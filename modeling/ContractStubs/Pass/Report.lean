import ContractStubs.Sink.Emission

/-!
# Reports

What a pass over a program did.
-/

namespace ContractStubs

/-- What a pass did. -/
structure PassReport where
  /-- The files, in the order of the requests. -/
  files : List StubFile
  /-- The number of declarations that carry the marker. -/
  candidates : Nat
  /-- The number of those that no type could be told for. -/
  dropped : Nat
  /-- The number of files that came from the cache. -/
  cacheHits : Nat
  /-- The pass was told to stop. -/
  cancelled : Bool
  emission : EmissionSummary
  deriving DecidableEq, Repr, Inhabited

namespace PassReport

/-- The number of diagnostics in all files. -/
def diagnosticCount (r : PassReport) : Nat := r.files.foldl (fun n f => n + f.diagnostics.length) 0

/-- The record of a report. -/
def toJson (r : PassReport) : Json :=
  .ofFields [("units", .array (r.files.map StubFile.toJson)), ("candidates", .ofNat r.candidates),
    ("dropped", .ofNat r.dropped), ("cache_hits", .ofNat r.cacheHits), ("cancelled", .bool r.cancelled),
    ("emission", r.emission.toJson)]

end PassReport

end ContractStubs

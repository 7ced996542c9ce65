import ContractStubs.Sink.Directory
import ContractStubs.Sink.Memory
import ContractStubs.Stub.File

/-!
# Handing files on

A batch of files goes to a sink one after the other. Of files with one name only the first is handed on, and a sink that
refuses a file gets the others all the same.
-/

namespace ContractStubs

/-- How a sink with states of some type takes a file: its answer and its next state. -/
abbrev SinkStep (σ : Type) := σ → (name text : String) → Except Failure Unit × σ

/-- What became of a batch. -/
structure EmissionSummary where
  /-- The names of the files that the sink took. -/
  emitted : List String
  /-- The names of files that were not handed on because their name had come before. -/
  duplicates : List String
  /-- The names of the files that the sink refused, and why. -/
  refused : List (String × String)
  deriving DecidableEq, Repr, Inhabited

namespace EmissionSummary

/-- No file yet. -/
def empty : EmissionSummary := ⟨[], [], []⟩

/-- The summary with the answer of the sink to one more file. -/
def record (s : EmissionSummary) (name : String) : Except Failure Unit → EmissionSummary
  | .ok () => { s with emitted := s.emitted ++ [name] }
  | .error failure => { s with refused := s.refused ++ [(name, failure.message)] }

/-- The record of a summary. -/
def toJson (s : EmissionSummary) : Json :=
  .ofFields [("emitted", .ofStrings s.emitted), ("duplicates", .ofStrings s.duplicates),
    ("sink_failures", .array (s.refused.map fun (name, message) => .ofStrings [name, message]))]

end EmissionSummary

/-- A batch under way: the names that have come, the summary and the sink. -/
structure Emission (σ : Type) where
  seen : List String
  summary : EmissionSummary
  sink : σ

namespace Emission

variable {σ : Type}

/-- The batch with one more file. -/
def emit (step : SinkStep σ) (e : Emission σ) (f : StubFile) : Emission σ :=
  if e.seen.contains f.identifier then
    { e with summary := { e.summary with duplicates := e.summary.duplicates ++ [f.identifier] } }
  else
    let (answer, sink) := step e.sink f.identifier f.text
    ⟨f.identifier :: e.seen, e.summary.record f.identifier answer, sink⟩

end Emission

/-- What becomes of a batch, and the sink after it. -/
def emitAll {σ : Type} (step : SinkStep σ) (sink : σ) (files : List StubFile) : EmissionSummary × σ :=
  let e := files.foldl (Emission.emit step) ⟨[], .empty, sink⟩
  (e.summary, e.sink)

/-- How the sink of a directory of a file system takes a file. -/
def directoryStepOn {σ : Type} (fs : FileSystem σ) : SinkStep (DirectorySink × σ) :=
  fun (sink, state) name text => sink.addOn fs state name text

/-- How the sink of a directory on a disk takes a file. -/
def directoryStep : SinkStep (DirectorySink × Disk) := directoryStepOn Disk.fileSystem

/-- How the sink in memory takes a file. -/
def memoryStep : SinkStep MemorySink := MemorySink.add

end ContractStubs

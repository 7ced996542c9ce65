/-!
# A text cut in two

What a reader took from the front of a text, and what is left of it.
-/

namespace ContractStubs

/-- A list of characters cut in two. -/
structure Split where
  taken : List Char
  rest : List Char
  deriving DecidableEq, Repr, Inhabited

namespace Split

/-- One character more was taken, in front of the others. -/
def cons (c : Char) (s : Split) : Split := ⟨c :: s.taken, s.rest⟩

/-- The cut behind the first characters. -/
def behind (n : Nat) (cs : List Char) : Split := ⟨cs.take n, cs.drop n⟩

/-- The cut behind the longest run of characters of a class. -/
def behindRun (inClass : Char → Bool) (cs : List Char) : Split := ⟨cs.takeWhile inClass, cs.dropWhile inClass⟩

/-- The characters taken as a text. -/
def text (s : Split) : String := String.ofList s.taken

end Split

end ContractStubs

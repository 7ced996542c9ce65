import ContractStubs.Decimal.Binary64

/-!
# JSON documents

A JSON text as a tree. A text that goes wrong somewhere is a tree up to that place, where `malformed` stands; so a
reader of the tree that goes from left to right meets a mistake in the content and a mistake in the form in the order of
the text.
-/

namespace ContractStubs

/-- A number as JSON writes it. -/
inductive JsonNumber where
  /-- A whole number of 64 bits, with or without sign. -/
  | integer (value : Int)
  /-- Any other number. -/
  | real (negative : Bool) (magnitude : Binary64)
  deriving DecidableEq, Repr, Inhabited

/-- A JSON text as far as it could be read. -/
inductive Json where
  | null
  | bool (value : Bool)
  | number (value : JsonNumber)
  | string (value : String)
  | array (items : List Json)
  /-- Keys in their order; a key that denotes no text is missing. -/
  | object (fields : List (Option String × Json))
  /-- A number out of range or a text with half a character: wrong when read, harmless when passed over. -/
  | illegible
  /-- The text is wrong here, and nothing behind this place was read. -/
  | malformed
  deriving Repr, Inhabited

namespace Json

/-- A whole number. -/
def ofNat (n : Nat) : Json := .number (.integer n)

/-- An object whose keys are all legible. -/
def ofFields (fields : List (String × Json)) : Json := .object (fields.map fun (key, value) => (some key, value))

/-- A list of texts. -/
def ofStrings (texts : List String) : Json := .array (texts.map .string)

mutual

/-- Nothing inside is wrong in form, so the document can be passed over. -/
def isWellFormed : Json → Bool
  | .malformed => false
  | .array items => areWellFormed items
  | .object fields => areFieldsWellFormed fields
  | _ => true

/-- Every item can be passed over. -/
def areWellFormed : List Json → Bool
  | [] => true
  | item :: items => isWellFormed item && areWellFormed items

/-- Every value of the fields can be passed over. -/
def areFieldsWellFormed : List (Option String × Json) → Bool
  | [] => true
  | (_, value) :: fields => isWellFormed value && areFieldsWellFormed fields

end

end Json

end ContractStubs

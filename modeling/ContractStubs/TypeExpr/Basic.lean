/-!
# Type expressions

A type as written, before any of its names is looked up: a name with type arguments, a tuple, or a text whose shape is
not known. Array, nullable and pointer marks stand together in a suffix.
-/

namespace ContractStubs

/-- A type as written. -/
inductive TypeExpr where
  /-- A name, possibly with dots, its type arguments and the marks after it. -/
  | named (name : String) (args : List TypeExpr) (suffix : String)
  /-- At least two elements in parentheses, each perhaps with a name, and the marks after them. -/
  | tuple (elements : List (TypeExpr × Option String)) (suffix : String)
  /-- Anything else, kept as it was written. -/
  | verbatim (text : String)
  deriving Repr, Inhabited

namespace TypeExpr

mutual

/-- Equality of type expressions is decided along their structure. -/
def decEq : (a b : TypeExpr) → Decidable (a = b)
  | .named n as s, .named m bs t =>
    match decEqArgs as bs with
    | .isTrue h => if h' : n = m ∧ s = t then .isTrue (by simp [h, h']) else .isFalse (by simp; grind)
    | .isFalse h => .isFalse (by simp; grind)
  | .tuple as s, .tuple bs t =>
    match decEqElements as bs with
    | .isTrue h => if h' : s = t then .isTrue (by simp [h, h']) else .isFalse (by simp; grind)
    | .isFalse h => .isFalse (by simp; grind)
  | .verbatim s, .verbatim t => if h : s = t then .isTrue (by simp [h]) else .isFalse (by simp [h])
  | .named .., .tuple .. => .isFalse (by simp)
  | .named .., .verbatim .. => .isFalse (by simp)
  | .tuple .., .named .. => .isFalse (by simp)
  | .tuple .., .verbatim .. => .isFalse (by simp)
  | .verbatim .., .named .. => .isFalse (by simp)
  | .verbatim .., .tuple .. => .isFalse (by simp)

/-- Equality of argument lists. -/
def decEqArgs : (as bs : List TypeExpr) → Decidable (as = bs)
  | [], [] => .isTrue rfl
  | [], _ :: _ => .isFalse (by simp)
  | _ :: _, [] => .isFalse (by simp)
  | a :: as, b :: bs =>
    match decEq a b, decEqArgs as bs with
    | .isTrue h, .isTrue h' => .isTrue (by simp [h, h'])
    | .isFalse h, _ => .isFalse (by simp [h])
    | _, .isFalse h => .isFalse (by simp [h])

/-- Equality of tuple elements. -/
def decEqElements : (as bs : List (TypeExpr × Option String)) → Decidable (as = bs)
  | [], [] => .isTrue rfl
  | [], _ :: _ => .isFalse (by simp)
  | _ :: _, [] => .isFalse (by simp)
  | (a, n) :: as, (b, m) :: bs =>
    match decEq a b, decEqElements as bs with
    | .isTrue h, .isTrue h' => if h'' : n = m then .isTrue (by simp [h, h', h'']) else .isFalse (by simp [h''])
    | .isFalse h, _ => .isFalse (by simp [h])
    | _, .isFalse h => .isFalse (by simp [h])

end

instance : DecidableEq TypeExpr := decEq

/-- The type arguments. -/
def args : TypeExpr → List TypeExpr
  | .named _ args _ => args
  | _ => []

/-- The number of type arguments. -/
def arity (t : TypeExpr) : Nat := t.args.length

end TypeExpr

end ContractStubs

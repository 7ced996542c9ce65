import ContractStubs.TypeExpr.Printer

/-!
# Type references

A type after its names were looked up. A reference knows the namespace of its name where there is one, and its written
form (`toText`) is minimally qualified: the namespace is left to the using lines.
-/

namespace ContractStubs

/-- What a type reference refers to. -/
inductive TypeRefKind where
  /-- A declared or well-known type. -/
  | named
  /-- A type that is a keyword of the language. -/
  | keyword
  /-- A type parameter in scope. -/
  | typeParameter
  /-- A name that could not be looked up, kept as written. -/
  | unresolved
  /-- A tuple, its element types being the arguments. -/
  | tuple
  /-- A text of unknown shape. -/
  | verbatim
  deriving DecidableEq, Repr, Inhabited

/-- A type whose names were looked up. -/
structure TypeRef where
  /-- The name as it is written. -/
  name : String
  /-- The namespace of the name; none is the global one. -/
  namespaceName? : Option String
  /-- Type arguments or tuple elements. -/
  args : List TypeRef
  /-- Nullable, array and pointer marks. -/
  suffix : String
  /-- Names of tuple elements, in the order of the arguments. -/
  elementNames : List (Option String)
  kind : TypeRefKind
  deriving Repr, Inhabited

/-- The types that are keywords. They belong to no namespace. -/
def keywordTypes : List String :=
  ["bool", "byte", "sbyte", "char", "decimal", "double", "float", "int", "uint", "nint", "nuint", "long", "ulong",
   "short", "ushort", "object", "string", "void", "dynamic"]

/-- The name is a keyword type. -/
def isKeywordType (name : String) : Bool := keywordTypes.contains name

namespace TypeRef

mutual

/-- Equality of references is decided along their structure. -/
def decEq : (a b : TypeRef) → Decidable (a = b)
  | ⟨n, ns, as, s, es, k⟩, ⟨m, ms, bs, t, fs, l⟩ =>
    match decEqArgs as bs with
    | .isTrue h =>
      if h' : n = m ∧ ns = ms ∧ s = t ∧ es = fs ∧ k = l then .isTrue (by simp [h, h'])
      else .isFalse (by simp; grind)
    | .isFalse h => .isFalse (by simp; grind)

/-- Equality of argument lists. -/
def decEqArgs : (as bs : List TypeRef) → Decidable (as = bs)
  | [], [] => .isTrue rfl
  | [], _ :: _ => .isFalse (by simp)
  | _ :: _, [] => .isFalse (by simp)
  | a :: as, b :: bs =>
    match decEq a b, decEqArgs as bs with
    | .isTrue h, .isTrue h' => .isTrue (by simp [h, h'])
    | .isFalse h, _ => .isFalse (by simp [h])
    | _, .isFalse h => .isFalse (by simp [h])

end

instance : DecidableEq TypeRef := decEq

/-! ## Building references -/

/-- A reference that is only a name. -/
def bare (kind : TypeRefKind) (name : String) : TypeRef := ⟨name, none, [], "", [], kind⟩

/-- A declared or well-known type; the empty namespace is the global one. -/
def named (namespaceName? : Option String) (name : String) (args : List TypeRef) : TypeRef :=
  ⟨name, namespaceName?.filter (· ≠ ""), args, "", [], .named⟩

/-- A tuple of types that may have names. -/
def tuple (elements : List (TypeRef × Option String)) : TypeRef :=
  ⟨"", none, elements.map (·.1), "", elements.map (·.2), .tuple⟩

/-- A name that could not be looked up. -/
def unresolved (name : String) (args : List TypeRef) : TypeRef := ⟨name, none, args, "", [], .unresolved⟩

/-- The reference with its marks replaced. -/
def withSuffix (r : TypeRef) (suffix : String) : TypeRef := { r with suffix }

/-! ## Text -/

mutual

/-- The minimally qualified text of a reference. -/
def toText : TypeRef → String
  | ⟨_, _, args, suffix, names, .tuple⟩ => "(" ++ commaSeparated (elementTexts args names) ++ ")" ++ suffix
  | ⟨name, _, [], suffix, _, _⟩ => name ++ suffix
  | ⟨name, _, arg :: args, suffix, _, _⟩ =>
    name ++ "<" ++ commaSeparated (toText arg :: argTexts args) ++ ">" ++ suffix

/-- The texts of type arguments. -/
def argTexts : List TypeRef → List String
  | [] => []
  | arg :: args => toText arg :: argTexts args

/-- The texts of tuple elements; where the names run out the rest have none. -/
def elementTexts : List TypeRef → List (Option String) → List String
  | [], _ => []
  | arg :: args, name? :: names => elementText (toText arg) name? :: elementTexts args names
  | arg :: args, [] => elementText (toText arg) none :: elementTexts args []

end

/-- The text of the reference behind its namespace. -/
def qualifiedText (r : TypeRef) : String :=
  match r.namespaceName? with
  | some ns => ns ++ "." ++ r.toText
  | none => r.toText

/-! ## Questions -/

/-- The number of arguments. -/
def arity (r : TypeRef) : Nat := r.args.length

/-- The keyword `void` itself. -/
def isVoid (r : TypeRef) : Bool := r.kind == .keyword && r.name == "void" && r.suffix == ""

/-- No type was written at all. -/
def isMissing (r : TypeRef) : Bool := r.kind != .tuple && r.name == ""

/-- A name or keyword that is neither an array nor a pointer. -/
def isNamedShape (r : TypeRef) : Bool :=
  (r.kind == .named || r.kind == .unresolved || r.kind == .keyword)
    && !r.suffix.toList.contains '[' && !r.suffix.toList.contains '*'

mutual

/-- The namespaces that a reference touches: its own, then those of its arguments. -/
def namespaces : TypeRef → List String
  | ⟨_, ns, args, _, _, _⟩ => ns.toList ++ namespacesOfAll args

/-- The namespaces that a list of references touches. -/
def namespacesOfAll : List TypeRef → List String
  | [] => []
  | arg :: args => namespaces arg ++ namespacesOfAll args

end

/-! ## Substitution -/

mutual

/-- The reference with type parameters replaced. The marks of a replaced parameter go behind those of its replacement;
the arguments of any other reference are replaced in turn. -/
def substitute (replacement : String → Option TypeRef) : TypeRef → TypeRef
  | ⟨name, ns, args, suffix, names, .typeParameter⟩ =>
    match replacement name with
    | some r => { r with suffix := r.suffix ++ suffix }
    | none => ⟨name, ns, substituteAll replacement args, suffix, names, .typeParameter⟩
  | ⟨name, ns, args, suffix, names, kind⟩ => ⟨name, ns, substituteAll replacement args, suffix, names, kind⟩

/-- The references of a list with type parameters replaced. -/
def substituteAll (replacement : String → Option TypeRef) : List TypeRef → List TypeRef
  | [] => []
  | arg :: args => substitute replacement arg :: substituteAll replacement args

end

end TypeRef

end ContractStubs

import ContractStubs.TypeExpr.Basic
import ContractStubs.TypeExpr.Token

/-!
# Reading type expressions

A reader by recursive descent over tokens. Each step answers what it read and the tokens that follow, or nothing; a text
that is not one type expression from end to end is kept verbatim.
-/

namespace ContractStubs

namespace TypeExpr

/-- The rest of a name whose start was read. After a double colon the name starts anew, since an alias in front of it
says nothing about its namespace. -/
def parseName : String → List Token → Option (String × List Token)
  | name, .mark '.' :: .word w :: ts => parseName (name ++ "." ++ w) ts
  | _, .colons :: .word w :: ts => parseName w ts
  | _, .mark '.' :: _ => none
  | _, .colons :: _ => none
  | name, ts => some (name, ts)

/-- The marks after a type, `inside` telling whether a bracket is open. -/
def parseMarks : (inside : Bool) → List Token → Option (List Char × List Token)
  | false, .mark '?' :: ts => (parseMarks false ts).map fun (cs, rest) => ('?' :: cs, rest)
  | false, .mark '*' :: ts => (parseMarks false ts).map fun (cs, rest) => ('*' :: cs, rest)
  | false, .mark '[' :: ts => (parseMarks true ts).map fun (cs, rest) => ('[' :: cs, rest)
  | true, .mark ',' :: ts => (parseMarks true ts).map fun (cs, rest) => (',' :: cs, rest)
  | true, .mark ']' :: ts => (parseMarks false ts).map fun (cs, rest) => (']' :: cs, rest)
  | true, _ => none
  | false, ts => some ([], ts)

/-- The suffix after a type. -/
def parseSuffix (ts : List Token) : Option (String × List Token) :=
  (parseMarks false ts).map fun (cs, rest) => (String.ofList cs, rest)

/-- The name of a tuple element, if one follows. -/
def parseElementName : List Token → Option String × List Token
  | .word w :: ts => (some w, ts)
  | ts => (none, ts)

mutual

/-- One type. -/
def parseType : (fuel : Nat) → List Token → Option (TypeExpr × List Token)
  | 0, _ => none
  | fuel + 1, .mark '(' :: ts => do
    let (elements, ts) ← parseElements fuel ts
    if elements.length < 2 then none
    else
      let (suffix, ts) ← parseSuffix ts
      some (.tuple elements suffix, ts)
  | fuel + 1, .word w :: ts => do
    let (name, ts) ← parseName w ts
    let (args, ts) ← parseArgs fuel ts
    let (suffix, ts) ← parseSuffix ts
    some (.named name args suffix, ts)
  | _ + 1, _ => none

/-- The type arguments after a name; none where no angle bracket opens. -/
def parseArgs : (fuel : Nat) → List Token → Option (List TypeExpr × List Token)
  | 0, _ => none
  | fuel + 1, .mark '<' :: ts => parseArgList fuel ts
  | _ + 1, ts => some ([], ts)

/-- Type arguments up to the closing bracket. -/
def parseArgList : (fuel : Nat) → List Token → Option (List TypeExpr × List Token)
  | 0, _ => none
  | fuel + 1, ts => do
    let (arg, ts) ← parseType fuel ts
    match ts with
    | .mark ',' :: ts =>
      let (args, ts) ← parseArgList fuel ts
      some (arg :: args, ts)
    | .mark '>' :: ts => some ([arg], ts)
    | _ => none

/-- Tuple elements up to the closing parenthesis. -/
def parseElements : (fuel : Nat) → List Token → Option (List (TypeExpr × Option String) × List Token)
  | 0, _ => none
  | fuel + 1, ts => do
    let (type, ts) ← parseType fuel ts
    let (name, ts) := parseElementName ts
    match ts with
    | .mark ',' :: ts =>
      let (elements, ts) ← parseElements fuel ts
      some ((type, name) :: elements, ts)
    | .mark ')' :: ts => some ([(type, name)], ts)
    | _ => none

end

/-- The type that all the tokens together make up. No step is taken twice at the same token more than three times
over, so the fuel never runs out. -/
def ofTokens? (ts : List Token) : Option TypeExpr :=
  match parseType (3 * ts.length + 1) ts with
  | some (t, []) => some t
  | _ => none

/-- The type expression that a text is. -/
def parse (text : String) : TypeExpr :=
  (ofTokens? (tokens text)).getD (.verbatim (trimBlank text))

end TypeExpr

end ContractStubs

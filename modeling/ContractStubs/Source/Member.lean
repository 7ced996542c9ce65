import ContractStubs.Source.Parameter

/-!
# Reading members

A member of a type, apart from types declared in it. Where a member ends is found first, from its semicolon or its
body; then its first words tell what it is. Bodies and values are not looked at.
-/

namespace ContractStubs

namespace Source

/-- The trees up to the end of a member and those behind it. A body ends a member unless a value was begun; a value
may still follow a body. -/
def memberExtent : (inValue : Bool) → List Tree → List Tree × List Tree
  | _, [] => ([], [])
  | inValue, tree :: trees =>
    let goOn (inValue : Bool) : List Tree × List Tree :=
      let (taken, rest) := memberExtent inValue trees
      (tree :: taken, rest)
    if tree.isMark ";" then ([tree], trees)
    else if tree.isMark "=" || tree.isMark "=>" then goOn true
    else if tree.isBody && !inValue then
      match trees with
      | next :: _ => if next.isMark "=" then goOn false else ([tree], trees)
      | [] => ([tree], [])
    else goOn inValue

/-- What a member is: the kind of its node, and the nodes of its parts behind the modifiers. -/
abbrev MemberShape := String × List SyntaxNode

/-- No member was made of it. -/
def noMember : MemberShape := ("ERROR", [])

/-- The name of a variable, and the rest behind the size that may follow it. -/
def declared? : List Tree → Option (Tree × List Tree)
  | [] => none
  | name :: rest =>
    if name.word?.isSome then some (name, if rest.head?.any (·.isGroup "[") then rest.tail else rest) else none

/-- The member that declares each of some names with a type. -/
def variablesShape (kind : String) (type trees : List Tree) : MemberShape :=
  let listed := trees.takeWhile fun tree => !tree.isMark ";"
  let declarators := (entries declared? listed).map fun entry =>
    node "variable_declarator" (entry.head :: entry.value) [nameField [entry.head]]
  (kind, [node "variable_declaration" (type ++ listed) (typeField type :: declarators)])

/-- The types that a member may be read to have, each with the trees of the name behind it and with the rest. -/
def namedTypes (trees : List Tree) : List (List Tree × List Tree × List Tree) :=
  (types trees).filterMap fun (type, rest) => (name? rest).map fun (name, rest) => (type, name, rest)

/-- The event that follows its keyword, or the events. One of another interface, or with a body, stands alone. -/
def eventShape (trees : List Tree) : MemberShape :=
  match (namedTypes trees).head? with
  | none => noMember
  | some (type, name, rest) =>
    let (last, qualified) := lastName 0 name
    if qualified || rest.head?.any Tree.isBody then
      match last.head?.filter (·.word?.isSome) with
      | some word => ("event_declaration", [typeField type, nameField [word]])
      | none => noMember
    else variablesShape "event_field_declaration" type (name ++ rest)

/-- The conversion to the type behind the keyword. -/
def conversionShape (trees : List Tree) : MemberShape :=
  let target := (trees.dropWhile fun tree => !tree.isWord "operator").drop 1
  let target := if target.head?.any (·.isWord "checked") then target.tail else target
  match type? target with
  | some (type, _) => ("conversion_operator_declaration", [typeField type])
  | none => noMember

/-- The method with a type, whose name has its type parameters behind it and may have an interface in front. -/
def methodShape (type inFront : List Tree) (name : Tree) (angled : List Tree) (parameters : SyntaxNode) :
    MemberShape :=
  let specifier := if inFront.isEmpty then [] else [node "explicit_interface_specifier" inFront []]
  let typeParameters := if angled.isEmpty then [] else [typeParameterList angled]
  ("method_declaration", (typeNode type).asField "returns" :: specifier ++ nameField [name] :: typeParameters ++
    [parameters.asField "parameters"])

/-- The member with a type, from its name and what follows it. -/
def typedShape (type name rest : List Tree) : MemberShape :=
  match (lastName 0 name).1, rest with
  | head :: angled, next :: _ =>
    if head.isWord "operator" then ("operator_declaration", [typeField type])
    else if head.isWord "this" then ("indexer_declaration", [typeField type])
    else if head.word?.isNone then noMember
    else match next.itemsIn? "(" with
      | some items =>
        methodShape type (name.take (name.length - (angled.length + 1))) head angled (parameterList next items)
      | none =>
        if next.isBody || next.isMark "=>" then ("property_declaration", [typeField type, nameField [head]])
        else variablesShape "field_declaration" type (name ++ rest)
  | _, _ => noMember

/-- The member that the trees between the modifiers and the end of a declaration declare. -/
def memberShape (trees : List Tree) : MemberShape :=
  match trees with
  | [] => noMember
  | first :: others =>
    if first.isWord "using" then ("using_directive", [])
    else if first.isWord "event" then eventShape others
    else if first.isWord "delegate" && !others.head?.any (·.isMark "*") then ("delegate_declaration", [])
    else if first.isMark "~" then
      match others.head?.filter (·.word?.isSome) with
      | some name => ("destructor_declaration", [nameField [name]])
      | none => noMember
    else if first.isAmong ["implicit", "explicit"] then conversionShape others
    else if startsConstructor trees then ("constructor_declaration", [nameField [first]])
    else match (namedTypes trees).head? with
      | some (type, name, rest) => typedShape type name rest
      | none => noMember

/-- The node of the member that stands behind some trees in front of it, and what is behind the member. -/
def memberNode (front declared : List Tree) : SyntaxNode × List Tree :=
  let (taken, rest) := memberExtent false declared
  let (kind, parts) := memberShape taken
  (node kind (front ++ taken) (front.map frontNode ++ parts), rest)

end Source

end ContractStubs

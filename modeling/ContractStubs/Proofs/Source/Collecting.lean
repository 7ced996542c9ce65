import ContractStubs.Proofs.Source.Places
import ContractStubs.Source.SyntaxTree
import Mathlib.Data.List.Forall2

/-!
# Collected types

The declarations of a file are those of the types at all places of its syntax tree (`collectItems_declarations`), each
with the surroundings at its place (`Surroundings.atPlace`). So each type is found once, in the order of the text, with
the namespaces and types around it (`collect_finds_each_type`). What stands in the body of a type and is no type itself is
not looked through (`namespace_in_type_not_found`).
-/

namespace ContractStubs

/-! ## Surroundings at a place -/

/-- The name of a namespace in another one, which may be missing. One without a name is the namespace around it. -/
def innerNamespace? (outer? : Option String) (name : String) : Option String :=
  (Surroundings.inNamespace ⟨outer?, [], []⟩ name).namespaceName?

/-- The namespace that the text of a directive brings into scope, for the whole program or for what is behind it. -/
def UsingDirective.namespaceOf? (isGlobal : Bool) (text : String) : Option String :=
  (ofText? text).bind fun d => if d.isGlobal = isGlobal then some d.namespaceName else none

theorem UsingDirective.namespaceOf?_eq_some {isGlobal : Bool} {text name : String} :
    namespaceOf? isGlobal text = some name ↔ ofText? text = some ⟨isGlobal, name⟩ := by
  rw [namespaceOf?, Option.bind_eq_some_iff]
  constructor
  · rintro ⟨⟨_, _⟩, h, hname⟩
    split at hname
    next hglobal =>
      cases Option.some.inj hname
      cases hglobal
      exact h
    next => cases hname
  · intro h
    exact ⟨_, h, if_pos rfl⟩

theorem withMissing_append (names xs ys : List String) :
    withMissing names (xs ++ ys) = withMissing (withMissing names xs) ys := List.foldl_append

namespace TypeNode

/-- A type as one around others. -/
def container (source : String) (t : TypeNode) : Container := t.node.container source t.kind

end TypeNode

namespace Surroundings

/-- The surroundings behind some nodes. -/
def behind (source : String) (s : Surroundings) (before : List SyntaxNode) : Surroundings :=
  { s with
    namespaceName? := ((before.filter (·.role = .namespaceLine)).map (·.namespaceName source)).foldl innerNamespace?
      s.namespaceName?
    usings := withMissing s.usings ((before.filter (·.role = .directive)).filterMap
      fun n => UsingDirective.namespaceOf? false (n.text source)) }

/-- The surroundings at a place. -/
def atPlace (source : String) (s : Surroundings) (p : TypePlace) : Surroundings where
  namespaceName? := (p.namespaces.map (·.namespaceName source)).foldl innerNamespace? s.namespaceName?
  usings := withMissing s.usings (p.directives.filterMap fun n => UsingDirective.namespaceOf? false (n.text source))
  containers := s.containers ++ p.containers.map (TypeNode.container source)

variable {source : String} {s : Surroundings}

theorem atPlace_behind (s : Surroundings) (p : TypePlace) (before : List SyntaxNode) :
    s.atPlace source (p.behind before) = (s.behind source before).atPlace source p := by
  simp only [atPlace, TypePlace.behind, behind, List.map_append, List.foldl_append, List.filterMap_append,
    withMissing_append]

theorem atPlace_inType (s : Surroundings) (p : TypePlace) (t : TypeNode) :
    s.atPlace source (p.inType t) = (s.inType (t.container source)).atPlace source p := by
  simp only [atPlace, TypePlace.inType, inType, List.map_cons, List.append_assoc, List.singleton_append]

theorem atPlace_inNamespace (h : s.containers = []) (p : TypePlace) (n : SyntaxNode) :
    s.atPlace source (p.inNamespace n) = (s.inNamespace (n.namespaceName source)).atPlace source p := by
  obtain ⟨outer?, usings, containers⟩ := s
  cases h
  rfl

theorem behind_concat (s : Surroundings) (before : List SyntaxNode) (n : SyntaxNode) :
    s.behind source (before ++ [n]) = (s.behind source before).behind source [n] := by
  simp only [behind, List.filter_append, List.map_append, List.foldl_append, List.filterMap_append,
    withMissing_append]

end Surroundings

section Equations

variable {source : String} {file? : Option String} {s : Surroundings} {n : SyntaxNode}

theorem SyntaxNode.collect_eq (n : SyntaxNode) : n.collect source file? s = match n.role with
    | .directive => collectDirective s (n.text source)
    | .namespaceBlock =>
      (collectBody source file? (isBody n.children) (s.inNamespace (n.namespaceName source)) n.children, s)
    | .namespaceLine =>
      (collectItems source file? (s.inNamespace (n.namespaceName source)) n.children,
        s.inNamespace (n.namespaceName source))
    | .group => (collectItems source file? s n.children, s)
    | .type => (⟨n.declarations source file? s, []⟩, s)
    | .other => (.empty, s) := by
  cases n
  rw [collect]
  rfl

theorem TypeNode.declarations_eq (t : TypeNode) : t.node.declarations source file? s =
    t.node.declaration source file? s t.kind :: if t.kind = .enumType then []
      else SyntaxNode.bodyDeclarations source file? (SyntaxNode.isBody t.node.children) (s.inType (t.container source))
        t.node.children := by
  obtain ⟨⟨label, children⟩, kind, h⟩ := t
  rw [SyntaxNode.declarations, h]
  rfl

theorem SyntaxNode.declarations_eq_nil (h : n.typeKind? = none) : n.declarations source file? s = [] := by
  obtain ⟨label, children⟩ := n
  rw [declarations, h]

theorem SyntaxNode.looksForBody_bodyDeclarations {isBody : SyntaxNode → Bool} : LooksForBody isBody []
    (fun _ c => nestedDeclarations source file? s c.children)
    (fun _ => bodyDeclarations source file? isBody s) where
  nil _ := rfl
  cons | _, .mk _ _, _ => rfl

theorem SyntaxNode.looksForBody_collectBody {isBody : SyntaxNode → Bool} : LooksForBody isBody .empty
    (fun _ c => collectItems source file? s c.children)
    (fun _ => collectBody source file? isBody s) where
  nil _ := rfl
  cons | _, .mk _ _, _ => rfl

/-- The nodes of one role among one node. -/
theorem SyntaxNode.filter_role_singleton (role : NodeRole) :
    [n].filter (·.role = role) = if n.role = role then [n] else [] := by
  rw [List.filter_cons]
  simp

/-- Behind a node the surroundings are those that collecting it leaves. -/
theorem SyntaxNode.collect_snd (h : s.containers = []) (n : SyntaxNode) :
    (n.collect source file? s).2 = s.behind source [n] := by
  rw [collect_eq, Surroundings.behind, filter_role_singleton, filter_role_singleton]
  generalize n.role = role
  cases role with
  | directive =>
    rw [if_neg (by simp), if_pos rfl, List.filterMap_cons]
    unfold UsingDirective.namespaceOf? collectDirective
    cases UsingDirective.ofText? (n.text source) with
    | none => rfl
    | some d =>
      obtain ⟨isGlobal, name⟩ := d
      cases isGlobal <;> rfl
  | namespaceLine =>
    obtain ⟨outer?, usings, containers⟩ := s
    cases h
    rw [if_pos rfl, if_neg (by simp)]
    rfl
  | namespaceBlock | group | type | other =>
    rw [if_neg (by simp), if_neg (by simp)]
    rfl

end Equations

/-! ## Collecting all places -/

namespace TypePlace

/-- The declaration of the type at a place, within some surroundings. -/
def declaration (source : String) (file? : Option String) (s : Surroundings) (p : TypePlace) : Declaration :=
  p.type.node.declaration source file? (s.atPlace source p) p.type.kind

variable {source : String} {file? : Option String} {s : Surroundings}

theorem declaration_here (t : TypeNode) :
    (here t).declaration source file? s = t.node.declaration source file? s t.kind := by
  have hs : s.atPlace source (here t) = s := by
    rw [Surroundings.atPlace, here]
    simp only [List.map_nil, List.append_nil]
    rfl
  rw [declaration, hs]
  rfl

theorem declaration_under (number : Nat) (p : TypePlace) :
    (p.under number).declaration source file? s = p.declaration source file? s := rfl

theorem declaration_behind (before : List SyntaxNode) (p : TypePlace) :
    (p.behind before).declaration source file? s = p.declaration source file? (s.behind source before) := by
  rw [declaration, Surroundings.atPlace_behind]
  rfl

theorem declaration_inType (t : TypeNode) (p : TypePlace) :
    (p.inType t).declaration source file? s = p.declaration source file? (s.inType (t.container source)) := by
  rw [declaration, Surroundings.atPlace_inType]
  rfl

theorem declaration_inNamespace (h : s.containers = []) (n : SyntaxNode) (p : TypePlace) :
    (p.inNamespace n).declaration source file? s =
      p.declaration source file? (s.inNamespace (n.namespaceName source)) := by
  rw [declaration, Surroundings.atPlace_inNamespace h]
  rfl

/-- What is declared at places as seen from outside is what is declared at them within other surroundings. -/
theorem map_declaration {f : TypePlace → TypePlace} {t : Surroundings}
    (h : ∀ p, (f p).declaration source file? s = p.declaration source file? t) (ps : List TypePlace) :
    (ps.map f).map (declaration source file? s) = ps.map (declaration source file? t) := by
  rw [List.map_map]
  exact List.map_congr_left fun p _ => h p

end TypePlace

section Collecting

open SyntaxNode

variable (source : String) (file? : Option String)

theorem SyntaxNode.nestedDeclarations_eq {s : Surroundings} : ∀ {nodes : List SyntaxNode} (number : Nat),
    (∀ n ∈ nodes, n.declarations source file? s = n.places.map (TypePlace.declaration source file? s)) →
      nestedDeclarations source file? s nodes =
        (memberPlaces number nodes).map (TypePlace.declaration source file? s)
  | [], _, _ => rfl
  | n :: nodes, number, h => by
    obtain ⟨hn, hnodes⟩ := List.forall_mem_cons.mp h
    rw [nestedDeclarations, memberPlaces, List.map_append, nestedDeclarations_eq (number + 1) hnodes]
    split
    next => rw [hn, TypePlace.map_declaration (TypePlace.declaration_under number)]
    next => rfl

/-- The declarations of a type are those at its places. -/
theorem SyntaxNode.declarations_eq_map (n : SyntaxNode) (s : Surroundings) :
    n.declarations source file? s = n.places.map (TypePlace.declaration source file? s) := by
  cases hkind : n.typeKind? with
  | none => rw [declarations_eq_nil hkind, places_eq_nil hkind, List.map_nil]
  | some kind =>
    rw [TypeNode.declarations_eq ⟨n, kind, hkind⟩, TypeNode.places_eq ⟨n, kind, hkind⟩, List.map_cons,
      TypePlace.declaration_here]
    congr 1
    split
    next => rfl
    next =>
      rw [TypePlace.map_declaration (TypePlace.declaration_inType _)]
      obtain ⟨first, body, hbody⟩ | hnone := n.hasBody_or_forall
      · rw [LooksForBody.of_hasBody hbody looksForBody_bodyPlaces,
          LooksForBody.of_hasBody hbody looksForBody_bodyDeclarations,
          TypePlace.map_declaration (TypePlace.declaration_under _)]
        refine nestedDeclarations_eq source file? 0 fun c hc => ?_
        have := hbody.sizeOf_lt
        have := sizeOf_lt_of_mem_children hc
        exact c.declarations_eq_map _
      · rw [looksForBody_bodyPlaces.of_forall 0 hnone, looksForBody_bodyDeclarations.of_forall 0 hnone]
        rfl
termination_by sizeOf n

/-- The declarations of some nodes that stand behind others are those at their places, if this is so for each node. -/
theorem SyntaxNode.collectItems_eq {s : Surroundings} (h : s.containers = []) : ∀ {nodes : List SyntaxNode}
    (first : List SyntaxNode), (∀ n ∈ nodes, ∀ s : Surroundings, s.containers = [] →
      (n.collect source file? s).1.declarations = n.itemPlaces.map (TypePlace.declaration source file? s)) →
      (collectItems source file? (s.behind source first) nodes).declarations =
        (placesBehind first nodes).map (TypePlace.declaration source file? s)
  | [], _, _ => rfl
  | n :: nodes, first, hnodes => by
    obtain ⟨hn, hnodes⟩ := List.forall_mem_cons.mp hnodes
    have houter : (s.behind source first).containers = [] := h
    have hbehind : (n.collect source file? (s.behind source first)).2 = _ := n.collect_snd houter
    rw [collectItems, placesBehind, List.map_append, TypePlace.map_declaration (TypePlace.declaration_behind first),
      ← hn (s.behind source first) houter, ← collectItems_eq h (first ++ [n]) hnodes, Surroundings.behind_concat, ← hbehind]
    rfl

/-- The declarations of a node are those at its places. -/
theorem SyntaxNode.collect_declarations (n : SyntaxNode) (s : Surroundings) (h : s.containers = []) :
    (n.collect source file? s).1.declarations = n.itemPlaces.map (TypePlace.declaration source file? s) := by
  have hchildren : ∀ m : SyntaxNode, sizeOf m ≤ sizeOf n → ∀ s : Surroundings, s.containers = [] →
      (collectItems source file? s m.children).declarations =
        (placesBehind [] m.children).map (TypePlace.declaration source file? s) := fun m hm s h => by
    refine collectItems_eq source file? h [] fun c hc s h => ?_
    have := sizeOf_lt_of_mem_children hc
    exact c.collect_declarations s h
  rw [collect_eq, itemPlaces_eq]
  cases n.role with
  | directive =>
    unfold collectDirective
    dsimp only
    split
    next => split <;> rfl
    next => rfl
  | other => rfl
  | namespaceBlock =>
    dsimp only
    rw [TypePlace.map_declaration (TypePlace.declaration_inNamespace h n)]
    obtain ⟨first, body, hbody⟩ | hnone := n.hasBody_or_forall
    · rw [LooksForBody.of_hasBody hbody looksForBody_blockPlaces,
        LooksForBody.of_hasBody hbody looksForBody_collectBody,
        TypePlace.map_declaration (TypePlace.declaration_under _)]
      exact hchildren body (Nat.le_of_lt hbody.sizeOf_lt) _ rfl
    · rw [looksForBody_blockPlaces.of_forall 0 hnone, looksForBody_collectBody.of_forall 0 hnone]
      rfl
  | namespaceLine =>
    dsimp only
    rw [TypePlace.map_declaration (TypePlace.declaration_inNamespace h n)]
    exact hchildren n (Nat.le_refl _) _ rfl
  | group => exact hchildren n (Nat.le_refl _) s h
  | type => exact n.declarations_eq_map source file? s
termination_by sizeOf n

/-- **The declarations of a file are those at the places of its syntax tree.** -/
theorem collect_declarations (root : SyntaxNode) : (collect source file? root).declarations = root.typePlaces.map
    fun p => (p.declaration source file? .outermost).addUsings
      (collectItems source file? .outermost root.children).globalUsings := by
  have hfound : (collectItems source file? .outermost root.children).declarations =
      root.typePlaces.map (TypePlace.declaration source file? .outermost) :=
    collectItems_eq source file? (s := .outermost) rfl [] fun n _ => n.collect_declarations source file?
  rw [collect, hfound, List.map_map]
  rfl

end Collecting

/-! ## Each type is found once, in its place -/

/-- The namespace with these names, those of the namespaces around it first. There is none without a name that is not
empty. -/
def dottedNamespace? (names : List String) : Option String :=
  match names.filter (!·.isEmpty) with
  | [] => none
  | named => some (".".intercalate named)

theorem foldl_innerNamespace?_some (outer : String) (names : List String) :
    names.foldl innerNamespace? (some outer) = some (".".intercalate (outer :: names.filter (!·.isEmpty))) := by
  induction names generalizing outer with
  | nil => rfl
  | cons name names ih =>
    rw [List.foldl_cons, innerNamespace?, Surroundings.inNamespace]
    cases hempty : name.isEmpty with
    | true =>
      rw [if_pos rfl, ih, List.filter_cons_of_neg (by simp [hempty])]
    | false =>
      rw [if_neg Bool.false_ne_true, ih, List.filter_cons_of_pos (by simp [hempty])]
      rfl

theorem foldl_innerNamespace?_none (names : List String) :
    names.foldl innerNamespace? none = dottedNamespace? names := by
  induction names with
  | nil => rfl
  | cons name names ih =>
    rw [List.foldl_cons, innerNamespace?, Surroundings.inNamespace, dottedNamespace?]
    cases hempty : name.isEmpty with
    | true =>
      rw [if_pos rfl, ih, List.filter_cons_of_neg (by simp [hempty])]
      rfl
    | false =>
      rw [if_neg Bool.false_ne_true, List.filter_cons_of_pos (by simp [hempty])]
      exact foldl_innerNamespace?_some name names

/-- A declaration is that of the type at a place. -/
structure DeclaredAt (source : String) (file? : Option String) (p : TypePlace) (d : Declaration) : Prop where
  kind : d.kind = p.type.kind
  name : d.name = p.type.node.typeName source
  malformed : d.malformed = (p.type.node.typeName?.isNone || p.type.node.label.isMissing)
  typeParameters : d.typeParameters = p.type.node.typeParameterNames source
  attributes : d.attributes = p.type.node.attributes source
  baseTypes : d.baseTypes = p.type.node.baseTypes source
  members : d.members = p.type.node.bodyMembers source
  text : d.text = p.type.node.text source
  file : d.file? = file?
  /-- Its namespace has the names of the namespaces around it. -/
  namespaceName : d.namespaceName? = dottedNamespace? (p.namespaces.map (·.namespaceName source))
  /-- The types around it come outermost first, with their kinds and type parameters. -/
  containers : d.containers = p.containers.map (TypeNode.container source)

section Found

variable {source : String} {file? : Option String} {p : TypePlace} {d : Declaration}

/-- More namespaces in scope do not matter for it. -/
theorem DeclaredAt.addUsings (h : DeclaredAt source file? p d) (namespaces : List String) :
    DeclaredAt source file? p (d.addUsings namespaces) :=
  { h with }

theorem declaredAt_declaration (source : String) (file? : Option String) (p : TypePlace) :
    DeclaredAt source file? p (p.declaration source file? .outermost) where
  kind := rfl
  name := rfl
  malformed := rfl
  typeParameters := rfl
  attributes := rfl
  baseTypes := rfl
  members := rfl
  text := rfl
  file := rfl
  namespaceName := foldl_innerNamespace?_none _
  containers := List.nil_append _

end Found

/-- **Each type of a file is found once, in its place.** There is one declaration for each place of its syntax tree at
which a type stands and no other one; a declaration comes before those of the types in it, and they before what is
behind. The way to each place leads to the type. -/
theorem collect_finds_each_type (source : String) (file? : Option String) (root : SyntaxNode) :
    ∃ places : List TypePlace, (∀ p, p ∈ places ↔ Stands root.children p) ∧
      (∀ p ∈ places, root.at? p.path = some p.type.node) ∧ places.Pairwise TypePlace.Precedes ∧
      List.Forall₂ (DeclaredAt source file?) places (collect source file? root).declarations := by
  refine ⟨root.typePlaces, fun _ => SyntaxNode.mem_typePlaces_iff, fun p hp => ?_, root.pairwise_typePlaces, ?_⟩
  · exact (SyntaxNode.mem_typePlaces_iff.mp hp).at?_path root rfl
  · rw [collect_declarations, List.forall₂_map_right_iff, List.forall₂_same]
    exact fun p _ => (declaredAt_declaration source file? p).addUsings _

/-- A file with a type in a namespace that stands in a type. -/
def typeInNamespaceInType : String := "class A \x7b namespace N \x7b class B \x7b \x7d \x7d \x7d"

/-- A namespace in the body of a type is not looked through: the type in it is not found. -/
theorem namespace_in_type_not_found :
    ([[0], [0, 2], [0, 2, 0], [0, 2, 0, 1], [0, 2, 0, 1, 0]].map fun path =>
        ((Source.syntaxTree typeInNamespaceInType).at? path).map (·.kind)) =
      [some "class_declaration", some "declaration_list", some "namespace_declaration", some "declaration_list",
        some "class_declaration"] ∧
    ((Source.syntaxTree typeInNamespaceInType).at? [0, 2, 0, 1, 0]).map (·.text typeInNamespaceInType) =
      some "class B \x7b \x7d" ∧
    (collect typeInNamespaceInType none (Source.syntaxTree typeInNamespaceInType)).declarations.map (·.name) = ["A"] :=
  ⟨by decide +kernel, by decide +kernel, by decide +kernel⟩

/-- A file with types in types, in namespaces and behind a namespace for the rest of it. -/
def nestedTypes : String :=
  "namespace A \x7b namespace B.C \x7b class Outer \x7b class Inner \x7b \x7d \x7d \x7d \x7d namespace D; class Last \x7b \x7d"

example : (collect nestedTypes none (Source.syntaxTree nestedTypes)).declarations.map
      (fun d => (d.namespaceName?, d.nestedName)) =
    [(some "A.B.C", "Outer"), (some "A.B.C", "Outer.Inner"), (some "D", "Last")] := by
  decide +kernel

end ContractStubs

import ContractStubs.Source.Collect
import Mathlib.Data.List.Basic

/-!
# Places of types in a syntax tree

Where a type stands in a syntax tree (`Stands`): in the body of a type that is no enumeration, in the body of a namespace,
in a namespace for the rest of the file, in a group of nodes or among the children of the root, and behind others of
them. A namespace for the rest of the file and a directive govern what stands behind them among the nodes they stand
with, and what stands in that. The list of all places (`typePlaces`) has each of them (`mem_typePlaces_iff`), with the way
to it (`Stands.at?_path`), and comes in the order of the text (`pairwise_typePlaces`).
-/

namespace ContractStubs

namespace SyntaxNode

/-- The node at the end of a way: the number of the child to go to, and the way on from there. -/
def at? : List Nat → SyntaxNode → Option SyntaxNode
  | [], n => some n
  | i :: path, n => n.children[i]?.bind (at? path)

/-- The body of a namespace or a type, behind some other children. -/
structure HasBody (n : SyntaxNode) (first : List SyntaxNode) (body : SyntaxNode) : Prop where
  children : ∃ others, n.children = first ++ body :: others
  isBody : SyntaxNode.isBody n.children body = true
  first : ∀ c ∈ first, SyntaxNode.isBody n.children c = false

end SyntaxNode

/-! ## Places -/

/-- A node that declares a type. -/
structure TypeNode where
  node : SyntaxNode
  kind : DeclarationKind
  typeKind_eq : node.typeKind? = some kind

/-- A type in a syntax tree: the way to it, and what governs it there. -/
structure TypePlace where
  /-- The number of the child to go to, at each node on the way. -/
  path : List Nat
  /-- The namespaces around it, outermost first, those for the rest of a file among them. -/
  namespaces : List SyntaxNode
  /-- The directives in front of it or of something around it. -/
  directives : List SyntaxNode
  /-- The types around it, outermost first. -/
  containers : List TypeNode
  type : TypeNode

namespace TypePlace

/-- The place of a type, as seen from the type itself. -/
def here (t : TypeNode) : TypePlace := ⟨[], [], [], [], t⟩

/-- The place in a node, as seen from its parent. -/
def under (p : TypePlace) (number : Nat) : TypePlace := { p with path := number :: p.path }

/-- The place in a type, as seen from outside of that type. -/
def inType (p : TypePlace) (t : TypeNode) : TypePlace := { p with containers := t :: p.containers }

/-- The place in a namespace, as seen from outside of it. -/
def inNamespace (p : TypePlace) (n : SyntaxNode) : TypePlace := { p with namespaces := n :: p.namespaces }

/-- The place in a node that stands behind others, as seen from the parent. -/
def behind (p : TypePlace) (before : List SyntaxNode) : TypePlace :=
  { p with
    path := before.length :: p.path
    namespaces := before.filter (·.role = .namespaceLine) ++ p.namespaces
    directives := before.filter (·.role = .directive) ++ p.directives }

/-- One place comes before another one in the text: the type is around the other one, or the ways to both part and its
own goes on with the smaller number. -/
def Precedes (p q : TypePlace) : Prop := p.path < q.path

end TypePlace

/-- A place of a type is the type itself or, unless that is an enumeration, in its body. -/
inductive TypeNode.Holds : TypeNode → TypePlace → Prop where
  | self (t : TypeNode) : Holds t (.here t)
  | inside {t u : TypeNode} {first before after : List SyntaxNode} {body : SyntaxNode} {p : TypePlace}
    (hkind : t.kind ≠ .enumType) (hbody : t.node.HasBody first body)
    (hchildren : body.children = before ++ u.node :: after) (hnamed : u.node.isNamed = true) (h : Holds u p) :
    Holds t (((p.under before.length).under first.length).inType t)

/-- A type stands at a place among the children of a node. -/
inductive Stands : List SyntaxNode → TypePlace → Prop where
  | type (before : List SyntaxNode) {t : TypeNode} (after : List SyntaxNode) {p : TypePlace}
    (hrole : t.node.role = .type) (h : t.Holds p) : Stands (before ++ t.node :: after) (p.behind before)
  | inBlock (before : List SyntaxNode) {n : SyntaxNode} (after : List SyntaxNode) {first : List SyntaxNode}
    {body : SyntaxNode} {p : TypePlace} (hrole : n.role = .namespaceBlock) (hbody : n.HasBody first body)
    (h : Stands body.children p) :
    Stands (before ++ n :: after) (((p.under first.length).inNamespace n).behind before)
  | inLine (before : List SyntaxNode) {n : SyntaxNode} (after : List SyntaxNode) {p : TypePlace}
    (hrole : n.role = .namespaceLine) (h : Stands n.children p) :
    Stands (before ++ n :: after) ((p.inNamespace n).behind before)
  | inGroup (before : List SyntaxNode) {n : SyntaxNode} (after : List SyntaxNode) {p : TypePlace}
    (hrole : n.role = .group) (h : Stands n.children p) : Stands (before ++ n :: after) (p.behind before)

/-! ## The way to a place -/

section Ways

variable {n body : SyntaxNode} {first before after nodes : List SyntaxNode} {t : TypeNode} {p : TypePlace}

theorem SyntaxNode.at?_append {path : List Nat} (h : n.children = before ++ body :: after) :
    n.at? (before.length :: path) = body.at? path := by
  rw [SyntaxNode.at?, h, List.getElem?_append_right (Nat.le_refl _), Nat.sub_self, List.getElem?_cons_zero]
  rfl

theorem SyntaxNode.HasBody.at?_cons {path : List Nat} (h : n.HasBody first body) :
    n.at? (first.length :: path) = body.at? path := by
  obtain ⟨others, hchildren⟩ := h.children
  exact SyntaxNode.at?_append hchildren

theorem TypeNode.Holds.at?_path (h : t.Holds p) : t.node.at? p.path = some p.type.node := by
  induction h with
  | self t => rfl
  | inside hkind hbody hchildren hnamed _ ih => exact (hbody.at?_cons.trans (SyntaxNode.at?_append hchildren)).trans ih

/-- **The way to a place leads to the type.** -/
theorem Stands.at?_path (h : Stands nodes p) : ∀ n : SyntaxNode, n.children = nodes →
    n.at? p.path = some p.type.node := by
  induction h with
  | type before after hrole h => exact fun n hn => (SyntaxNode.at?_append hn).trans h.at?_path
  | inBlock before after hrole hbody _ ih =>
    exact fun n hn => ((SyntaxNode.at?_append hn).trans hbody.at?_cons).trans (ih _ rfl)
  | inLine before after hrole _ ih | inGroup before after hrole _ ih =>
    exact fun n hn => (SyntaxNode.at?_append hn).trans (ih _ rfl)

end Ways

/-! ## All places -/

namespace SyntaxNode

mutual

/-- The places of a type and of the types in its body, if the node declares one. -/
def places : SyntaxNode → List TypePlace
  | .mk label children =>
    match h : typeKind? (.mk label children) with
    | none => []
    | some kind =>
      .here ⟨.mk label children, kind, h⟩ ::
        if kind = .enumType then []
        else (bodyPlaces (isBody children) 0 children).map (·.inType ⟨.mk label children, kind, h⟩)

/-- The places in the body, which is the first of some nodes that is said to be it. The first of them has this
number. -/
def bodyPlaces (isBody : SyntaxNode → Bool) (number : Nat) : List SyntaxNode → List TypePlace
  | [] => []
  | .mk label members :: nodes =>
    if isBody (.mk label members) then (memberPlaces 0 members).map (·.under number)
    else bodyPlaces isBody (number + 1) nodes

/-- The places in some nodes of the body of a type, where the first one has this number. -/
def memberPlaces (number : Nat) : List SyntaxNode → List TypePlace
  | [] => []
  | node :: nodes =>
    (if node.isNamed then node.places.map (·.under number) else []) ++ memberPlaces (number + 1) nodes

end

mutual

/-- The places in a node that is an item of a file. -/
def itemPlaces : SyntaxNode → List TypePlace
  | .mk label children =>
    let node := SyntaxNode.mk label children
    match node.role with
    | .directive | .other => []
    | .namespaceBlock => (blockPlaces (isBody children) 0 children).map (·.inNamespace node)
    | .namespaceLine => (placesBehind [] children).map (·.inNamespace node)
    | .group => placesBehind [] children
    | .type => node.places

/-- The places in the body of a namespace, which is the first of some nodes that is said to be it. The first of them has
this number. -/
def blockPlaces (isBody : SyntaxNode → Bool) (number : Nat) : List SyntaxNode → List TypePlace
  | [] => []
  | .mk label items :: nodes =>
    if isBody (.mk label items) then (placesBehind [] items).map (·.under number)
    else blockPlaces isBody (number + 1) nodes

/-- The places in some nodes that stand behind others. -/
def placesBehind (before : List SyntaxNode) : List SyntaxNode → List TypePlace
  | [] => []
  | node :: nodes => node.itemPlaces.map (·.behind before) ++ placesBehind (before ++ [node]) nodes

end

/-- The places of all types of a file, given by its root. -/
def typePlaces (root : SyntaxNode) : List TypePlace := placesBehind [] root.children

end SyntaxNode

/-! ## Bodies

Functions that look for a body go through the children of a node in the same way: they do something with the first one
that is said to be the body, and its number. -/

section FirstBody

variable {β : Type} {isBody : SyntaxNode → Bool} {none : β} {visit : Nat → SyntaxNode → β}
  {look : Nat → List SyntaxNode → β}

/-- The function does something with the first of some nodes that is said to be the body. -/
structure LooksForBody (isBody : SyntaxNode → Bool) (none : β) (visit : Nat → SyntaxNode → β)
    (look : Nat → List SyntaxNode → β) : Prop where
  nil : ∀ number, look number [] = none
  cons : ∀ number c cs, look number (c :: cs) = if isBody c then visit number c else look (number + 1) cs

theorem LooksForBody.append (hlook : LooksForBody isBody none visit look) {body : SyntaxNode}
    {after : List SyntaxNode} (hbody : isBody body = true) : ∀ {first : List SyntaxNode} (number : Nat),
    (∀ c ∈ first, isBody c = false) → look number (first ++ body :: after) = visit (number + first.length) body
  | [], number, _ => by
    rw [List.nil_append, hlook.cons, if_pos hbody]
    rfl
  | c :: first, number, h => by
    obtain ⟨hc, hfirst⟩ := List.forall_mem_cons.mp h
    rw [List.cons_append, hlook.cons, if_neg (by simp [hc]), hlook.append hbody (number + 1) hfirst, List.length_cons,
      Nat.add_assoc, Nat.add_comm 1]

theorem LooksForBody.of_forall (hlook : LooksForBody isBody none visit look) : ∀ {nodes : List SyntaxNode}
    (number : Nat), (∀ c ∈ nodes, isBody c = false) → look number nodes = none
  | [], number, _ => hlook.nil number
  | c :: nodes, number, h => by
    obtain ⟨hc, hnodes⟩ := List.forall_mem_cons.mp h
    rw [hlook.cons, if_neg (by simp [hc]), hlook.of_forall (number + 1) hnodes]

/-- Among the children of a node the function finds its body. -/
theorem LooksForBody.of_hasBody {n body : SyntaxNode} {first : List SyntaxNode} (h : n.HasBody first body)
    (hlook : LooksForBody (SyntaxNode.isBody n.children) none visit look) :
    look 0 n.children = visit first.length body := by
  obtain ⟨others, hchildren⟩ := h.children
  conv_lhs => rw [hchildren]
  rw [hlook.append h.isBody 0 h.first, Nat.zero_add]

/-- A node has a body, or none of its children is said to be it. -/
theorem SyntaxNode.hasBody_or_forall (n : SyntaxNode) :
    (∃ first body, n.HasBody first body) ∨ ∀ c ∈ n.children, SyntaxNode.isBody n.children c = false := by
  cases h : n.children.find? (SyntaxNode.isBody n.children) with
  | none => exact .inr fun c hc => by simpa using List.find?_eq_none.mp h c hc
  | some body =>
    obtain ⟨hbody, first, others, hchildren, hfirst⟩ := List.find?_eq_some_iff_append.mp h
    exact .inl ⟨first, body, ⟨others, hchildren⟩, hbody, fun c hc => by simpa using hfirst c hc⟩

theorem SyntaxNode.looksForBody_bodyPlaces : LooksForBody isBody []
    (fun number c => (memberPlaces 0 c.children).map (·.under number)) (bodyPlaces isBody) where
  nil _ := rfl
  cons | _, .mk _ _, _ => rfl

theorem SyntaxNode.looksForBody_blockPlaces : LooksForBody isBody []
    (fun number c => (placesBehind [] c.children).map (·.under number)) (blockPlaces isBody) where
  nil _ := rfl
  cons | _, .mk _ _, _ => rfl

end FirstBody

/-! ## The list has each place -/

section Membership

open SyntaxNode

variable {t : TypeNode} {n body : SyntaxNode} {nodes : List SyntaxNode} {p : TypePlace}

theorem SyntaxNode.sizeOf_lt_of_mem_children (h : body ∈ n.children) : sizeOf body < sizeOf n := by
  obtain ⟨label, children⟩ := n
  have hlt : sizeOf body < sizeOf children := List.sizeOf_lt_of_mem h
  rw [mk.sizeOf_spec]
  omega

theorem SyntaxNode.sizeOf_lt_of_children {before after : List SyntaxNode} (h : n.children = before ++ body :: after) :
    sizeOf body < sizeOf n :=
  sizeOf_lt_of_mem_children (h ▸ List.mem_append_right before List.mem_cons_self)

theorem SyntaxNode.HasBody.sizeOf_lt {first : List SyntaxNode} (h : n.HasBody first body) : sizeOf body < sizeOf n := by
  obtain ⟨_, hchildren⟩ := h.children
  exact sizeOf_lt_of_children hchildren

theorem SyntaxNode.places_eq_nil (h : n.typeKind? = none) : n.places = [] := by
  obtain ⟨label, children⟩ := n
  rw [places.eq_def]
  dsimp only
  split
  next => rfl
  next kind hkind => cases h.symm.trans hkind

theorem TypeNode.places_eq (t : TypeNode) : t.node.places =
    .here t :: if t.kind = .enumType then []
      else (bodyPlaces (isBody t.node.children) 0 t.node.children).map (·.inType t) := by
  obtain ⟨⟨label, children⟩, kind, h⟩ := t
  rw [places.eq_def]
  dsimp only
  split
  next hnone => cases h.symm.trans hnone
  next other hother =>
    cases Option.some.inj (h.symm.trans hother)
    rfl

theorem SyntaxNode.mem_memberPlaces_iff : ∀ {nodes : List SyntaxNode} {number : Nat}, p ∈ memberPlaces number nodes ↔
    ∃ before n after, nodes = before ++ n :: after ∧ n.isNamed = true ∧ ∃ q ∈ n.places,
      p = q.under (number + before.length)
  | [], number => by simp [memberPlaces]
  | n :: nodes, number => by
    rw [memberPlaces, List.mem_append, mem_memberPlaces_iff]
    constructor
    · rintro (h | ⟨before, m, after, rfl, hnamed, q, hq, rfl⟩)
      · split at h
        next hnamed =>
          obtain ⟨q, hq, rfl⟩ := List.mem_map.mp h
          exact ⟨[], n, nodes, rfl, hnamed, q, hq, rfl⟩
        next => cases h
      · refine ⟨n :: before, m, after, rfl, hnamed, q, hq, ?_⟩
        rw [List.length_cons, Nat.add_assoc, Nat.add_comm 1]
    · rintro ⟨before, m, after, hsplit, hnamed, q, hq, rfl⟩
      cases before with
      | nil =>
        cases hsplit
        exact .inl (by rw [if_pos hnamed]; exact List.mem_map.mpr ⟨q, hq, rfl⟩)
      | cons _ before =>
        cases hsplit
        refine .inr ⟨before, m, after, rfl, hnamed, q, hq, ?_⟩
        rw [List.length_cons, Nat.add_assoc, Nat.add_comm 1]

/-- A type stands in another one at the places of the list, and at no others. -/
theorem TypeNode.mem_places_iff (t : TypeNode) {p : TypePlace} : p ∈ t.node.places ↔ t.Holds p := by
  rw [t.places_eq, List.mem_cons]
  constructor
  · rintro (rfl | h)
    · exact .self t
    · split at h
      next => cases h
      next hkind =>
        obtain ⟨q, hq, rfl⟩ := List.mem_map.mp h
        obtain ⟨first, body, hbody⟩ | hnone := t.node.hasBody_or_forall
        · rw [LooksForBody.of_hasBody hbody looksForBody_bodyPlaces] at hq
          obtain ⟨r, hr, rfl⟩ := List.mem_map.mp hq
          obtain ⟨before, n, after, hchildren, hnamed, o, ho, rfl⟩ := mem_memberPlaces_iff.mp hr
          have hn : n.typeKind? ≠ none := fun hnone => by
            rw [places_eq_nil hnone] at ho
            cases ho
          obtain ⟨kind, hu⟩ := Option.ne_none_iff_exists'.mp hn
          rw [Nat.zero_add]
          have := hbody.sizeOf_lt
          have := sizeOf_lt_of_children hchildren
          exact .inside (u := ⟨n, kind, hu⟩) hkind hbody hchildren hnamed ((TypeNode.mk n kind hu).mem_places_iff.mp ho)
        · rw [looksForBody_bodyPlaces.of_forall 0 hnone] at hq
          cases hq
  · intro h
    cases h with
    | self => exact .inl rfl
    | @inside _ u first before after body q hkind hbody hchildren hnamed h =>
      right
      have := hbody.sizeOf_lt
      have := sizeOf_lt_of_children hchildren
      rw [if_neg hkind, LooksForBody.of_hasBody hbody looksForBody_bodyPlaces]
      refine List.mem_map.mpr ⟨_, List.mem_map.mpr ⟨_, mem_memberPlaces_iff.mpr ?_, rfl⟩, rfl⟩
      exact ⟨before, u.node, after, hchildren, hnamed, q, u.mem_places_iff.mpr h, by rw [Nat.zero_add]⟩
termination_by sizeOf t.node

theorem SyntaxNode.mem_placesBehind_iff : ∀ {nodes first : List SyntaxNode}, p ∈ placesBehind first nodes ↔
    ∃ before n after, nodes = before ++ n :: after ∧ ∃ q ∈ n.itemPlaces, p = q.behind (first ++ before)
  | [], first => by simp [placesBehind]
  | n :: nodes, first => by
    rw [placesBehind, List.mem_append, mem_placesBehind_iff]
    constructor
    · rintro (h | ⟨before, m, after, rfl, q, hq, rfl⟩)
      · obtain ⟨q, hq, rfl⟩ := List.mem_map.mp h
        exact ⟨[], n, nodes, rfl, q, hq, by rw [List.append_nil]⟩
      · exact ⟨n :: before, m, after, rfl, q, hq, by rw [← List.append_cons]⟩
    · rintro ⟨before, m, after, hsplit, q, hq, rfl⟩
      cases before with
      | nil =>
        cases hsplit
        exact .inl (List.mem_map.mpr ⟨q, hq, by rw [List.append_nil]⟩)
      | cons _ before =>
        cases hsplit
        exact .inr ⟨before, m, after, rfl, q, hq, by rw [← List.append_cons]⟩

theorem SyntaxNode.itemPlaces_eq (n : SyntaxNode) : n.itemPlaces = match n.role with
    | .directive | .other => []
    | .namespaceBlock => (blockPlaces (isBody n.children) 0 n.children).map (·.inNamespace n)
    | .namespaceLine => (placesBehind [] n.children).map (·.inNamespace n)
    | .group => placesBehind [] n.children
    | .type => n.places := by
  cases n
  rw [itemPlaces]
  rfl

mutual

theorem SyntaxNode.stands_of_mem_itemPlaces (n : SyntaxNode) {p : TypePlace} (h : p ∈ n.itemPlaces)
    (before after : List SyntaxNode) : Stands (before ++ n :: after) (p.behind before) := by
  rw [itemPlaces_eq] at h
  cases hrole : n.role with
  | directive | other =>
    rw [hrole] at h
    cases h
  | namespaceBlock =>
    rw [hrole] at h
    obtain ⟨q, hq, rfl⟩ := List.mem_map.mp h
    obtain ⟨first, body, hbody⟩ | hnone := n.hasBody_or_forall
    · rw [LooksForBody.of_hasBody hbody looksForBody_blockPlaces] at hq
      obtain ⟨r, hr, rfl⟩ := List.mem_map.mp hq
      have := hbody.sizeOf_lt
      exact .inBlock before after hrole hbody (body.stands_of_mem_children hr)
    · rw [looksForBody_blockPlaces.of_forall 0 hnone] at hq
      cases hq
  | namespaceLine =>
    rw [hrole] at h
    obtain ⟨q, hq, rfl⟩ := List.mem_map.mp h
    exact .inLine before after hrole (n.stands_of_mem_children hq)
  | group =>
    rw [hrole] at h
    exact .inGroup before after hrole (n.stands_of_mem_children h)
  | type =>
    rw [hrole] at h
    have hn : n.typeKind? ≠ none := fun hnone => by
      rw [places_eq_nil hnone] at h
      cases h
    obtain ⟨kind, hkind⟩ := Option.ne_none_iff_exists'.mp hn
    exact .type (t := ⟨n, kind, hkind⟩) before after hrole ((TypeNode.mk n kind hkind).mem_places_iff.mp h)
termination_by (sizeOf n, 1)

theorem SyntaxNode.stands_of_mem_children (n : SyntaxNode) {p : TypePlace} (h : p ∈ placesBehind [] n.children) :
    Stands n.children p := by
  obtain ⟨before, m, after, hchildren, q, hq, rfl⟩ := mem_placesBehind_iff.mp h
  have := sizeOf_lt_of_children hchildren
  rw [hchildren]
  exact m.stands_of_mem_itemPlaces hq before after
termination_by (sizeOf n, 0)

end

/-- **A type stands at the places of the list**, and at no others. -/
theorem SyntaxNode.mem_typePlaces_iff {root : SyntaxNode} {p : TypePlace} :
    p ∈ root.typePlaces ↔ Stands root.children p := by
  refine ⟨root.stands_of_mem_children, fun h => ?_⟩
  have hbehind : ∀ {before after : List SyntaxNode} {n : SyntaxNode} {q : TypePlace}, q ∈ n.itemPlaces →
      q.behind before ∈ placesBehind [] (before ++ n :: after) := fun hq =>
    mem_placesBehind_iff.mpr ⟨_, _, _, rfl, _, hq, rfl⟩
  rw [typePlaces]
  generalize root.children = nodes at h ⊢
  induction h with
  | type before after hrole h =>
    refine hbehind ?_
    rw [itemPlaces_eq, hrole]
    exact (TypeNode.mem_places_iff _).mpr h
  | inBlock before after hrole hbody _ ih =>
    refine hbehind ?_
    rw [itemPlaces_eq, hrole]
    refine List.mem_map.mpr ⟨_, ?_, rfl⟩
    rw [LooksForBody.of_hasBody hbody looksForBody_blockPlaces]
    exact List.mem_map.mpr ⟨_, ih, rfl⟩
  | inLine before after hrole _ ih =>
    refine hbehind ?_
    rw [itemPlaces_eq, hrole]
    exact List.mem_map.mpr ⟨_, ih, rfl⟩
  | inGroup before after hrole _ ih =>
    refine hbehind ?_
    rw [itemPlaces_eq, hrole]
    exact ih

end Membership

/-! ## The list is in the order of the text -/

section Order

open SyntaxNode

/-- The way to a place starts at some child, and not at one with a smaller number than this. -/
def TypePlace.StartsFrom (number : Nat) (p : TypePlace) : Prop := ∃ n rest, p.path = n :: rest ∧ number ≤ n

/-- What stands in one node and what stands in those behind it are in order if both are. -/
theorem TypePlace.pairwise_append {number : Nat} {ps qs : List TypePlace} {f : TypePlace → TypePlace}
    (hf : ∀ p, (f p).path = number :: p.path) (hps : ps.Pairwise Precedes) (hqs : qs.Pairwise Precedes)
    (hfrom : ∀ q ∈ qs, q.StartsFrom (number + 1)) : (ps.map f ++ qs).Pairwise Precedes := by
  refine List.pairwise_append.mpr ⟨List.pairwise_map.mpr (hps.imp fun {p q} h => ?_), hqs, fun p' hp' q hq => ?_⟩
  · rw [Precedes, hf, hf]
    exact List.cons_lt_cons_iff.mpr (.inr ⟨rfl, h⟩)
  · obtain ⟨p, -, rfl⟩ := List.mem_map.mp hp'
    obtain ⟨n, rest, hpath, hn⟩ := hfrom q hq
    rw [Precedes, hf, hpath]
    exact List.cons_lt_cons_iff.mpr (.inl hn)

theorem TypePlace.pairwise_under {ps : List TypePlace} (h : ps.Pairwise Precedes) (number : Nat) :
    (ps.map (·.under number)).Pairwise Precedes :=
  List.pairwise_map.mpr (h.imp fun h => List.cons_lt_cons_iff.mpr (.inr ⟨rfl, h⟩))

theorem SyntaxNode.startsFrom_of_mem_memberPlaces {nodes : List SyntaxNode} {number : Nat} {p : TypePlace}
    (h : p ∈ memberPlaces number nodes) : p.StartsFrom number := by
  obtain ⟨before, n, after, -, -, q, -, rfl⟩ := mem_memberPlaces_iff.mp h
  exact ⟨_, q.path, rfl, Nat.le_add_right number before.length⟩

theorem SyntaxNode.startsFrom_of_mem_placesBehind {nodes first : List SyntaxNode} {p : TypePlace}
    (h : p ∈ placesBehind first nodes) : p.StartsFrom first.length := by
  obtain ⟨before, n, after, -, q, -, rfl⟩ := mem_placesBehind_iff.mp h
  exact ⟨_, q.path, rfl, by simp⟩

theorem SyntaxNode.pairwise_memberPlaces : ∀ {nodes : List SyntaxNode} (number : Nat),
    (∀ n ∈ nodes, n.places.Pairwise TypePlace.Precedes) → (memberPlaces number nodes).Pairwise TypePlace.Precedes
  | [], _, _ => .nil
  | n :: nodes, number, h => by
    obtain ⟨hn, hnodes⟩ := List.forall_mem_cons.mp h
    rw [memberPlaces]
    split
    next =>
      exact TypePlace.pairwise_append (fun _ => rfl) hn (pairwise_memberPlaces (number + 1) hnodes)
        fun _ => startsFrom_of_mem_memberPlaces
    next => exact pairwise_memberPlaces (number + 1) hnodes

theorem SyntaxNode.pairwise_placesBehind : ∀ {nodes : List SyntaxNode} (first : List SyntaxNode),
    (∀ n ∈ nodes, n.itemPlaces.Pairwise TypePlace.Precedes) → (placesBehind first nodes).Pairwise TypePlace.Precedes
  | [], _, _ => .nil
  | n :: nodes, first, h => by
    obtain ⟨hn, hnodes⟩ := List.forall_mem_cons.mp h
    have hrest := pairwise_placesBehind (first ++ [n]) hnodes
    refine TypePlace.pairwise_append (fun _ => rfl) hn hrest fun q hq => ?_
    have hfrom := startsFrom_of_mem_placesBehind hq
    rwa [List.length_append, List.length_singleton] at hfrom

theorem SyntaxNode.pairwise_places (n : SyntaxNode) : n.places.Pairwise TypePlace.Precedes := by
  cases hkind : n.typeKind? with
  | none =>
    rw [places_eq_nil hkind]
    exact .nil
  | some kind =>
    rw [TypeNode.places_eq ⟨n, kind, hkind⟩]
    split
    next => exact List.pairwise_singleton _ _
    next =>
      obtain ⟨first, body, hbody⟩ | hnone := n.hasBody_or_forall
      · rw [LooksForBody.of_hasBody hbody looksForBody_bodyPlaces]
        have hmembers : (memberPlaces 0 body.children).Pairwise TypePlace.Precedes :=
          pairwise_memberPlaces 0 fun c hc => by
            have := hbody.sizeOf_lt
            have := sizeOf_lt_of_mem_children hc
            exact c.pairwise_places
        refine List.pairwise_cons.mpr ⟨fun p hp => ?_, List.pairwise_map.mpr (TypePlace.pairwise_under hmembers _)⟩
        obtain ⟨q, hq, rfl⟩ := List.mem_map.mp hp
        obtain ⟨r, -, rfl⟩ := List.mem_map.mp hq
        exact List.nil_lt_cons first.length r.path
      · rw [looksForBody_bodyPlaces.of_forall 0 hnone]
        exact List.pairwise_singleton _ _
termination_by sizeOf n

theorem SyntaxNode.pairwise_itemPlaces (n : SyntaxNode) : n.itemPlaces.Pairwise TypePlace.Precedes := by
  have hchildren : ∀ m : SyntaxNode, sizeOf m ≤ sizeOf n → (placesBehind [] m.children).Pairwise TypePlace.Precedes :=
    fun m hm => pairwise_placesBehind [] fun c hc => by
      have := sizeOf_lt_of_mem_children hc
      exact c.pairwise_itemPlaces
  rw [itemPlaces_eq]
  cases n.role with
  | directive | other => exact .nil
  | namespaceBlock =>
    obtain ⟨first, body, hbody⟩ | hnone := n.hasBody_or_forall
    · rw [LooksForBody.of_hasBody hbody looksForBody_blockPlaces]
      exact List.pairwise_map.mpr (TypePlace.pairwise_under (hchildren body (Nat.le_of_lt hbody.sizeOf_lt)) _)
    · rw [looksForBody_blockPlaces.of_forall 0 hnone]
      exact .nil
  | namespaceLine => exact List.pairwise_map.mpr (hchildren n (Nat.le_refl _))
  | group => exact hchildren n (Nat.le_refl _)
  | type => exact n.pairwise_places
termination_by sizeOf n

/-- **The list has the places in the order of the text**, and none of them twice. -/
theorem SyntaxNode.pairwise_typePlaces (root : SyntaxNode) : root.typePlaces.Pairwise TypePlace.Precedes :=
  pairwise_placesBehind [] fun n _ => n.pairwise_itemPlaces

end Order

end ContractStubs

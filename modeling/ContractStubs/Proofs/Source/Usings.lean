import ContractStubs.Proofs.Lists
import ContractStubs.Proofs.Source.Collecting
import ContractStubs.Proofs.Source.Directives
import Mathlib.Data.List.Nodup
import Mathlib.Data.List.Perm.Basic

/-!
# Namespaces in scope

Which directives reach a declaration. A directive for what follows it governs a place if it stands among the same items
as the type, or as something around it, and in front of that (`Governs`, `mem_directives_iff`); so it governs nothing in
an item that stands beside an item around it (`not_governs_of_beside`). A directive for the whole program governs all
places of all files. A declaration has the namespaces of the directives that govern its place in scope, each one once,
whatever the order of the files is (`usings_reach_what_they_govern`).
-/

namespace ContractStubs

/-! ## Lists of names without repeats -/

section Missing

variable {names others : List String} {name : String}

theorem mem_addMissing {other : String} : name ∈ addMissing names other ↔ name ∈ names ∨ name = other := by
  rw [addMissing]
  split
  next h =>
    rw [List.contains_iff_mem] at h
    refine ⟨.inl, ?_⟩
    rintro (hname | rfl)
    · exact hname
    · exact h
  next => rw [List.mem_append, List.mem_singleton]

theorem nodup_addMissing (h : names.Nodup) (other : String) : (addMissing names other).Nodup := by
  rw [addMissing]
  split
  next => exact h
  next hmissing =>
    rw [List.contains_iff_mem] at hmissing
    exact h.append (List.nodup_singleton other) (List.disjoint_singleton.mpr hmissing)

theorem mem_withMissing : name ∈ withMissing names others ↔ name ∈ names ∨ name ∈ others := by
  rw [withMissing]
  induction others generalizing names with
  | nil => rw [List.foldl_nil, iff_self_or]; exact fun h => absurd h List.not_mem_nil
  | cons other others ih => rw [List.foldl_cons, ih, mem_addMissing, List.mem_cons, or_assoc]

theorem nodup_withMissing (h : names.Nodup) (others : List String) : (withMissing names others).Nodup := by
  rw [withMissing]
  induction others generalizing names with
  | nil => exact h
  | cons other others ih => exact ih (nodup_addMissing h other)

end Missing

/-! ## Directives that govern a place -/

/-- The nodes that are read as items of the file when a node is one, and the way to their parent: what stands in the
body of a namespace, in a namespace for the rest of the file, or in a group. -/
inductive SyntaxNode.Opens (n : SyntaxNode) : List Nat → List SyntaxNode → Prop where
  | block {first : List SyntaxNode} {body : SyntaxNode} (hrole : n.role = .namespaceBlock)
    (hbody : n.HasBody first body) : Opens n [first.length] body.children
  | line (hrole : n.role = .namespaceLine) : Opens n [] n.children
  | group (hrole : n.role = .group) : Opens n [] n.children

/-- A directive stands among some items of a file, or in one of them. -/
inductive DirectiveAt (d : SyntaxNode) : List SyntaxNode → List Nat → Prop where
  | here {nodes : List SyntaxNode} {i : Nat} (hi : nodes[i]? = some d) (hrole : d.role = .directive) :
    DirectiveAt d nodes [i]
  | inside {nodes items : List SyntaxNode} {i : Nat} {n : SyntaxNode} {way path : List Nat}
    (hi : nodes[i]? = some n) (hopens : n.Opens way items) (h : DirectiveAt d items path) :
    DirectiveAt d nodes (i :: (way ++ path))

/-- A directive governs a place if it stands under the same node as the type, or as something around it, and in front
of that. -/
def Governs (directive place : List Nat) : Prop :=
  ∃ container k n rest, directive = container ++ [k] ∧ place = container ++ n :: rest ∧ k < n

/-- A directive in one node governs nothing in another one that stands beside it. -/
theorem not_governs_of_beside {container inside rest : List Nat} {i j : Nat} (hinside : inside ≠ []) (hij : i ≠ j) :
    ¬Governs (container ++ i :: inside) (container ++ j :: rest) := by
  induction container with
  | nil =>
    rintro ⟨_ | ⟨m, container⟩, k, n, rest', hdirective, hplace, -⟩
    · exact hinside (List.cons.inj hdirective).2
    · exact hij ((List.cons.inj hdirective).1.trans (List.cons.inj hplace).1.symm)
  | cons l container ih =>
    rintro ⟨_ | ⟨m, container'⟩, k, n, rest', hdirective, hplace, hlt⟩
    · exact absurd (List.cons.inj hdirective).2 (by simp)
    · exact ih ⟨container', k, n, rest', (List.cons.inj hdirective).2, (List.cons.inj hplace).2, hlt⟩

section Governing

variable {d n body : SyntaxNode} {first before after nodes items : List SyntaxNode} {way : List Nat} {p : TypePlace}

theorem governs_cons {directive place : List Nat} {n : Nat} : Governs directive (n :: place) ↔
    (∃ k < n, directive = [k]) ∨ ∃ rest, directive = n :: rest ∧ Governs rest place := by
  constructor
  · rintro ⟨_ | ⟨m, container⟩, k, n', rest, rfl, hplace, hlt⟩
    · obtain ⟨rfl, -⟩ := List.cons.inj hplace
      exact .inl ⟨k, hlt, rfl⟩
    · obtain ⟨rfl, rfl⟩ := List.cons.inj hplace
      exact .inr ⟨container ++ [k], rfl, container, k, n', rest, rfl, rfl, hlt⟩
  · rintro (⟨k, hlt, rfl⟩ | ⟨_, rfl, container, k, n', rest, rfl, rfl, hlt⟩)
    · exact ⟨[], k, n, place, rfl, rfl, hlt⟩
    · exact ⟨n :: container, k, n', rest, rfl, rfl, hlt⟩

theorem governs_append {path place : List Nat} (hpath : path ≠ []) (way : List Nat) :
    Governs (way ++ path) (way ++ place) ↔ Governs path place := by
  induction way with
  | nil => rfl
  | cons i way ih =>
    rw [List.cons_append, List.cons_append, governs_cons]
    constructor
    · rintro (⟨k, -, h⟩ | ⟨rest, h, hgoverns⟩)
      · exact absurd (List.append_eq_nil_iff.mp (List.cons.inj h).2).2 hpath
      · obtain ⟨-, rfl⟩ := List.cons.inj h
        exact ih.mp hgoverns
    · exact fun h => .inr ⟨way ++ path, rfl, ih.mpr h⟩

theorem DirectiveAt.ne_nil {path : List Nat} (h : DirectiveAt d nodes path) : path ≠ [] := by
  cases h <;> simp

theorem directiveAt_cons_iff {i : Nat} {rest : List Nat} : DirectiveAt d nodes (i :: rest) ↔
    (rest = [] ∧ nodes[i]? = some d ∧ d.role = .directive) ∨ ∃ n way items path, nodes[i]? = some n ∧
      n.Opens way items ∧ DirectiveAt d items path ∧ rest = way ++ path := by
  constructor
  · generalize hpath : i :: rest = path
    rintro (⟨hi, hrole⟩ | ⟨hi, hopens, h⟩)
    · cases hpath
      exact .inl ⟨rfl, hi, hrole⟩
    · cases hpath
      exact .inr ⟨_, _, _, _, hi, hopens, h, rfl⟩
  · rintro (⟨rfl, hi, hrole⟩ | ⟨n, way, items, path, hi, hopens, h, rfl⟩)
    · exact .here hi hrole
    · exact .inside hi hopens h

/-- The way to a directive leads to it. -/
theorem DirectiveAt.at?_path {path : List Nat} (h : DirectiveAt d nodes path) : ∀ n : SyntaxNode,
    n.children = nodes → n.at? path = some d := by
  induction h with
  | here hi hrole =>
    rintro n rfl
    rw [SyntaxNode.at?, hi]
    rfl
  | @inside _ _ _ m _ path hi hopens _ ih =>
    rintro n rfl
    rw [SyntaxNode.at?, hi, Option.bind_some]
    cases hopens with
    | block hrole hbody => exact hbody.at?_cons.trans (ih _ rfl)
    | line hrole | group hrole => exact ih m rfl

theorem SyntaxNode.HasBody.unique {first' : List SyntaxNode} {body' : SyntaxNode} (h : n.HasBody first body)
    (h' : n.HasBody first' body') : first = first' ∧ body = body' := by
  have hfind : ∀ {first : List SyntaxNode} {body : SyntaxNode}, n.HasBody first body →
      n.children.findIdx? (SyntaxNode.isBody n.children) = some first.length := fun {first body} h => by
    obtain ⟨others, hchildren⟩ := h.children
    have hfirst := h.first
    have hbody := h.isBody
    generalize SyntaxNode.isBody n.children = isBody at *
    rw [hchildren, List.findIdx?_append, List.findIdx?_eq_none_iff.mpr hfirst, List.findIdx?_cons, hbody]
    simp
  have hlength : first.length = first'.length := Option.some.inj ((hfind h).symm.trans (hfind h'))
  obtain ⟨others, hchildren⟩ := h.children
  obtain ⟨others', hchildren'⟩ := h'.children
  obtain ⟨rfl, hrest⟩ := List.append_inj (hchildren.symm.trans hchildren') hlength
  exact ⟨rfl, (List.cons.inj hrest).1⟩

theorem SyntaxNode.Opens.unique {way' : List Nat} {items' : List SyntaxNode} (h : n.Opens way items)
    (h' : n.Opens way' items') : way = way' ∧ items = items' := by
  cases h with
  | block hrole hbody =>
    cases h' with
    | block hrole' hbody' =>
      obtain ⟨rfl, rfl⟩ := hbody.unique hbody'
      exact ⟨rfl, rfl⟩
    | line hrole' | group hrole' => cases hrole.symm.trans hrole'
  | line hrole =>
    cases h' with
    | line hrole' => exact ⟨rfl, rfl⟩
    | block hrole' _ | group hrole' => cases hrole.symm.trans hrole'
  | group hrole =>
    cases h' with
    | group hrole' => exact ⟨rfl, rfl⟩
    | block hrole' _ | line hrole' => cases hrole.symm.trans hrole'

theorem directives_of_holds {t : TypeNode} (h : t.Holds p) : p.directives = [] := by
  induction h with
  | self => rfl
  | inside _ _ _ _ _ ih => exact ih

/-- The directives that govern a place in a node are those in front of the node and those in it that govern the place
there. -/
theorem governing_iff {path : List Nat} :
    (∃ directive, DirectiveAt d (before ++ n :: after) directive ∧ Governs directive (before.length :: path)) ↔
      (d ∈ before ∧ d.role = .directive) ∨ ∃ way items directive, n.Opens way items ∧ DirectiveAt d items directive ∧
        Governs (way ++ directive) path := by
  have hn : (before ++ n :: after)[before.length]? = some n := by simp
  constructor
  · rintro ⟨directive, hat, hgoverns⟩
    rcases governs_cons.mp hgoverns with ⟨k, hlt, rfl⟩ | ⟨rest, rfl, hrest⟩
    · obtain ⟨-, hi, hrole⟩ | ⟨m, way, items, path, -, -, h, hnil⟩ := directiveAt_cons_iff.mp hat
      · rw [List.getElem?_append_left hlt] at hi
        exact .inl ⟨List.mem_of_getElem? hi, hrole⟩
      · exact absurd (List.append_eq_nil_iff.mp hnil.symm).2 h.ne_nil
    · obtain ⟨rfl, -⟩ | ⟨m, way, items, path, hi, hopens, h, rfl⟩ := directiveAt_cons_iff.mp hat
      · exact absurd hrest fun ⟨container, _, _, _, hnil, _⟩ => by simp at hnil
      · cases hn.symm.trans hi
        exact .inr ⟨way, items, path, hopens, h, hrest⟩
  · rintro (⟨hmem, hrole⟩ | ⟨way, items, directive, hopens, h, hgoverns⟩)
    · obtain ⟨k, hk, hget⟩ := List.mem_iff_getElem.mp hmem
      refine ⟨[k], .here ?_ hrole, governs_cons.mpr (.inl ⟨k, hk, rfl⟩)⟩
      rw [List.getElem?_append_left hk, List.getElem?_eq_getElem hk, hget]
    · exact ⟨_, .inside hn hopens h, governs_cons.mpr (.inr ⟨_, rfl, hgoverns⟩)⟩

/-- In a node that opens some items the directives that govern a place are those among the items that do. -/
theorem governing_inside_iff (hopens : n.Opens way items) {path : List Nat} :
    (∃ directive, DirectiveAt d (before ++ n :: after) directive ∧
      Governs directive (before.length :: (way ++ path))) ↔
      (d ∈ before ∧ d.role = .directive) ∨ ∃ directive, DirectiveAt d items directive ∧ Governs directive path := by
  rw [governing_iff]
  refine or_congr_right ⟨?_, ?_⟩
  · rintro ⟨way', items', directive, hopens', h, hgoverns⟩
    obtain ⟨rfl, rfl⟩ := hopens.unique hopens'
    exact ⟨directive, h, (governs_append h.ne_nil _).mp hgoverns⟩
  · rintro ⟨directive, h, hgoverns⟩
    exact ⟨way, items, directive, hopens, h, (governs_append h.ne_nil _).mpr hgoverns⟩

theorem mem_directives_behind : d ∈ (p.behind before).directives ↔
    (d ∈ before ∧ d.role = .directive) ∨ d ∈ p.directives := by
  rw [TypePlace.behind, List.mem_append, List.mem_filter, decide_eq_true_iff]

/-- **The directives listed at a place are those that govern it.** -/
theorem mem_directives_iff (h : Stands nodes p) :
    d ∈ p.directives ↔ ∃ path, DirectiveAt d nodes path ∧ Governs path p.path := by
  induction h with
  | type before after hrole h =>
    rw [mem_directives_behind, TypePlace.behind, governing_iff, directives_of_holds h]
    refine or_congr_right ⟨fun hnil => absurd hnil List.not_mem_nil, ?_⟩
    rintro ⟨way, items, directive, hopens, -⟩
    cases hopens with
    | block hrole' | line hrole' | group hrole' => cases hrole.symm.trans hrole'
  | inBlock before after hrole hbody _ ih =>
    rw [mem_directives_behind]
    exact (or_congr_right ih).trans (governing_inside_iff (.block hrole hbody)).symm
  | inLine before after hrole _ ih =>
    rw [mem_directives_behind]
    exact (or_congr_right ih).trans (governing_inside_iff (.line hrole)).symm
  | inGroup before after hrole _ ih =>
    rw [mem_directives_behind]
    exact (or_congr_right ih).trans (governing_inside_iff (.group hrole)).symm

end Governing

/-! ## Directives for the whole program -/

section Global

variable {source name : String} {file? : Option String} {n : SyntaxNode} {nodes items : List SyntaxNode}

/-- A directive for the whole program brings this namespace into scope and stands among some items of a file, or in one
of them. -/
def BringsGlobally (source : String) (nodes : List SyntaxNode) (name : String) : Prop :=
  ∃ d path, DirectiveAt d nodes path ∧ UsingDirective.ofText? (d.text source) = some ⟨true, name⟩

theorem not_bringsGlobally_nil : ¬BringsGlobally source [] name := by
  rintro ⟨d, path, hat, -⟩
  cases hat with
  | here hi | inside hi => cases hi

/-- A node that is an item brings a namespace into scope for the whole program: it is a directive, or one of the items
that it opens does. -/
def SyntaxNode.BringsGlobally (source : String) (n : SyntaxNode) (name : String) : Prop :=
  n.role = .directive ∧ UsingDirective.ofText? (n.text source) = some ⟨true, name⟩ ∨
    ∃ way items, n.Opens way items ∧ ContractStubs.BringsGlobally source items name

theorem bringsGlobally_cons : BringsGlobally source (n :: nodes) name ↔
    n.BringsGlobally source name ∨ BringsGlobally source nodes name := by
  constructor
  · rintro ⟨d, path, hat, hd⟩
    cases hat with
    | @here _ i hi hrole =>
      cases i with
      | zero =>
        cases hi
        exact .inl (.inl ⟨hrole, hd⟩)
      | succ i => exact .inr ⟨d, [i], .here hi hrole, hd⟩
    | @inside _ items i m way path hi hopens h =>
      cases i with
      | zero =>
        cases hi
        exact .inl (.inr ⟨way, items, hopens, d, path, h, hd⟩)
      | succ i => exact .inr ⟨d, i :: (way ++ path), .inside hi hopens h, hd⟩
  · rintro ((⟨hrole, hd⟩ | ⟨way, items, hopens, d, path, h, hd⟩) | ⟨d, path, hat, hd⟩)
    · exact ⟨n, [0], .here rfl hrole, hd⟩
    · exact ⟨d, 0 :: (way ++ path), .inside rfl hopens h, hd⟩
    · cases hat with
      | @here _ i hi hrole => exact ⟨d, [i + 1], .here hi hrole, hd⟩
      | @inside _ _ i _ way path hi hopens h => exact ⟨d, (i + 1) :: (way ++ path), .inside hi hopens h, hd⟩

theorem SyntaxNode.Opens.bringsGlobally_iff {way : List Nat} (hopens : n.Opens way items)
    (hrole : n.role ≠ .directive) : n.BringsGlobally source name ↔ ContractStubs.BringsGlobally source items name := by
  constructor
  · rintro (⟨hdirective, -⟩ | ⟨way', items', hopens', h⟩)
    · exact absurd hdirective hrole
    · obtain ⟨-, rfl⟩ := hopens.unique hopens'
      exact h
  · exact fun h => .inr ⟨way, items, hopens, h⟩

theorem SyntaxNode.not_bringsGlobally (hrole : n.role ≠ .directive) (hopens : ∀ way items, ¬n.Opens way items) :
    ¬n.BringsGlobally source name := by
  rintro (⟨hdirective, -⟩ | ⟨way, items, h, -⟩)
  · exact hrole hdirective
  · exact hopens way items h

theorem mem_globalUsings_collectDirective {s : Surroundings} {text : String} :
    name ∈ (collectDirective s text).1.globalUsings ↔ UsingDirective.ofText? text = some ⟨true, name⟩ := by
  unfold collectDirective
  cases UsingDirective.ofText? text with
  | none => simp [Collected.empty]
  | some d =>
    obtain ⟨isGlobal, brought⟩ := d
    cases isGlobal <;> simp [Collected.empty, eq_comm]

/-- The namespaces that some nodes bring into scope for the whole program, if this is so for each node. -/
theorem SyntaxNode.mem_globalUsings_collectItems : ∀ {nodes : List SyntaxNode} {s : Surroundings},
    (∀ n ∈ nodes, ∀ s, name ∈ (n.collect source file? s).1.globalUsings ↔ n.BringsGlobally source name) →
      (name ∈ (collectItems source file? s nodes).globalUsings ↔ ContractStubs.BringsGlobally source nodes name)
  | [], _, _ => iff_of_false List.not_mem_nil not_bringsGlobally_nil
  | n :: nodes, s, h => by
    obtain ⟨hn, hnodes⟩ := List.forall_mem_cons.mp h
    rw [collectItems, bringsGlobally_cons, ← hn s, ← mem_globalUsings_collectItems hnodes]
    exact mem_withMissing

/-- The namespaces that a node brings into scope for the whole program are those of the directives for it. -/
theorem SyntaxNode.mem_globalUsings (n : SyntaxNode) (s : Surroundings) :
    name ∈ (n.collect source file? s).1.globalUsings ↔ n.BringsGlobally source name := by
  have hchildren : ∀ m : SyntaxNode, sizeOf m ≤ sizeOf n → ∀ s : Surroundings,
      name ∈ (collectItems source file? s m.children).globalUsings ↔
        ContractStubs.BringsGlobally source m.children name := fun m hm s =>
    mem_globalUsings_collectItems fun c hc s => by
      have := sizeOf_lt_of_mem_children hc
      exact c.mem_globalUsings s
  have hnone : ∀ role : NodeRole, n.role = role → role ∉ [.directive, .namespaceBlock, .namespaceLine, .group] →
      ¬n.BringsGlobally source name := fun role hrole hnot => by
    refine not_bringsGlobally (fun h => hnot ?_) fun way items hopens => hnot ?_
    · simp [← hrole, h]
    · cases hopens with
      | block h | line h | group h => simp [← hrole, h]
  rw [collect_eq]
  cases hrole : n.role with
  | directive =>
    dsimp only
    rw [mem_globalUsings_collectDirective]
    refine ⟨fun h => .inl ⟨hrole, h⟩, ?_⟩
    rintro (⟨-, h⟩ | ⟨way, items, hopens, -⟩)
    · exact h
    · cases hopens with
      | block h | line h | group h => cases hrole.symm.trans h
  | namespaceBlock =>
    dsimp only
    obtain ⟨first, body, hbody⟩ | hforall := n.hasBody_or_forall
    · rw [LooksForBody.of_hasBody hbody looksForBody_collectBody,
        (Opens.block hrole hbody).bringsGlobally_iff (by simp [hrole])]
      exact hchildren body (Nat.le_of_lt hbody.sizeOf_lt) _
    · rw [looksForBody_collectBody.of_forall 0 hforall]
      refine iff_of_false List.not_mem_nil (not_bringsGlobally (by simp [hrole]) fun way items hopens => ?_)
      cases hopens with
      | @block _ body _ hbody =>
        obtain ⟨others, hbodychildren⟩ := hbody.children
        have hmem := hforall body (hbodychildren ▸ List.mem_append_right _ List.mem_cons_self)
        rw [hbody.isBody] at hmem
        cases hmem
      | line h | group h => cases hrole.symm.trans h
  | namespaceLine =>
    rw [(Opens.line hrole).bringsGlobally_iff (by simp [hrole])]
    exact hchildren n (Nat.le_refl _) _
  | group =>
    rw [(Opens.group hrole).bringsGlobally_iff (by simp [hrole])]
    exact hchildren n (Nat.le_refl _) _
  | type | other => exact iff_of_false List.not_mem_nil (hnone _ hrole (by simp))
termination_by sizeOf n

end Global

/-! ## The model of some files -/

/-- A source file with its syntax tree. -/
structure ParsedFile extends SourceFile where
  root : SyntaxNode

namespace ParsedFile

/-- What the file holds. -/
def collected (file : ParsedFile) : Collected := collect file.text file.path? file.root

/-- What the file holds, before the directives for the whole program are added to its declarations. -/
def found (file : ParsedFile) : Collected :=
  SyntaxNode.collectItems file.text file.path? .outermost file.root.children

end ParsedFile

/-- The model of some source files with their syntax trees. -/
def Model.ofTrees (files : List ParsedFile) : Model :=
  .ofList (mergeCollected (files.map ParsedFile.collected)).declarations

/-- The model of some source files is that of the syntax trees of their texts. -/
theorem Model.ofFiles_eq_ofTrees (files : List SourceFile) :
    ofFiles files = ofTrees (files.map fun file => ⟨file, Source.syntaxTree file.text⟩) := by
  rw [ofTrees, List.map_map]
  rfl

/-- The places of the types of some files, file by file. -/
def placesIn (files : List ParsedFile) : List (ParsedFile × TypePlace) :=
  files.flatMap fun file => file.root.typePlaces.map (file, ·)

/-- These are the namespaces in scope at a place of one of some files. -/
structure InScope (files : List ParsedFile) (file : ParsedFile) (p : TypePlace) (usings : List String) :
    Prop where
  nodup : usings.Nodup
  /-- They come from the directives that govern the place, and from those of all files for the whole program. -/
  mem_iff : ∀ name, name ∈ usings ↔
    (∃ d path, DirectiveAt d file.root.children path ∧ Governs path p.path ∧
      UsingDirective.ofText? (d.text file.text) = some ⟨false, name⟩) ∨
    ∃ other ∈ files, BringsGlobally other.text other.root.children name

/-- A declaration of the model of some files is that of the type at a place of one of them. -/
structure DeclaredIn (files : List ParsedFile) (place : ParsedFile × TypePlace) (d : Declaration) : Prop where
  file : place.1 ∈ files
  stands : Stands place.1.root.children place.2
  declared : DeclaredAt place.1.text place.1.path? place.2 d
  inScope : InScope files place.1 place.2 d.usings

section Merging

variable {files : List ParsedFile} {name : String}

theorem foldl_append_declarations : ∀ (found : Collected) (collected : List Collected),
    (collected.foldl Collected.append found).declarations =
      found.declarations ++ collected.flatMap (·.declarations)
  | found, [] => (List.append_nil _).symm
  | found, c :: collected => by
    rw [List.foldl_cons, foldl_append_declarations, List.flatMap_cons, ← List.append_assoc]
    rfl

theorem mem_foldl_append_globalUsings : ∀ (found : Collected) (collected : List Collected),
    name ∈ (collected.foldl Collected.append found).globalUsings ↔
      name ∈ found.globalUsings ∨ ∃ c ∈ collected, name ∈ c.globalUsings
  | found, [] => by simp
  | found, c :: collected => by
    have happend : name ∈ (found.append c).globalUsings ↔ name ∈ found.globalUsings ∨ name ∈ c.globalUsings :=
      mem_withMissing
    rw [List.foldl_cons, mem_foldl_append_globalUsings, happend, List.exists_mem_cons_iff, or_assoc]

/-- The namespaces that some files bring into scope for the whole program. -/
def globalUsingsOf (files : List ParsedFile) : List String :=
  ((files.map ParsedFile.collected).foldl Collected.append .empty).globalUsings

theorem ParsedFile.mem_globalUsings {file : ParsedFile} :
    name ∈ file.found.globalUsings ↔ BringsGlobally file.text file.root.children name :=
  SyntaxNode.mem_globalUsings_collectItems fun n _ => n.mem_globalUsings

theorem mem_globalUsingsOf :
    name ∈ globalUsingsOf files ↔ ∃ file ∈ files, BringsGlobally file.text file.root.children name := by
  have hempty : name ∉ Collected.empty.globalUsings := List.not_mem_nil
  rw [globalUsingsOf, mem_foldl_append_globalUsings, or_iff_right hempty]
  simp only [List.mem_map, exists_exists_and_eq_and]
  exact exists_congr fun file => and_congr_right fun _ => file.mem_globalUsings

/-- The declaration of a type in one of some files, with all namespaces in scope. -/
def declarationIn (files : List ParsedFile) (place : ParsedFile × TypePlace) : Declaration :=
  ((place.2.declaration place.1.text place.1.path? .outermost).addUsings place.1.found.globalUsings).addUsings
    (globalUsingsOf files)

theorem mergeCollected_declarations (files : List ParsedFile) :
    (mergeCollected (files.map ParsedFile.collected)).declarations =
      (placesIn files).map (declarationIn files) := by
  rw [mergeCollected, foldl_append_declarations, placesIn, List.map_flatMap, Collected.empty, List.nil_append,
    List.flatMap_map, List.map_flatMap]
  refine List.flatMap_congr fun file _ => ?_
  rw [ParsedFile.collected, collect_declarations, List.map_map, List.map_map]
  rfl

/-- A declaration has those namespaces in scope that belong there. The ones for the whole program are added twice, those
of a file to its own declarations and then those of all files to all. -/
theorem declaredIn_declarationIn {place : ParsedFile × TypePlace} (h : place ∈ placesIn files) :
    DeclaredIn files place (declarationIn files place) := by
  obtain ⟨file, hfile, hplace⟩ := List.mem_flatMap.mp h
  obtain ⟨p, hp, rfl⟩ := List.mem_map.mp hplace
  have hstands : Stands file.root.children p := SyntaxNode.mem_typePlaces_iff.mp hp
  have hdeclared : DeclaredAt file.text file.path? p (declarationIn files (file, p)) :=
    ((declaredAt_declaration file.text file.path? p).addUsings _).addUsings _
  refine ⟨hfile, hstands, hdeclared, ?_, fun name => ?_⟩
  · exact nodup_withMissing (nodup_withMissing (nodup_withMissing List.nodup_nil _) _) _
  have hlocal : name ∈ p.directives.filterMap (fun d => UsingDirective.namespaceOf? false (d.text file.text)) ↔
      ∃ d path, DirectiveAt d file.root.children path ∧ Governs path p.path ∧
        UsingDirective.ofText? (d.text file.text) = some ⟨false, name⟩ := by
    simp only [List.mem_filterMap, mem_directives_iff hstands, UsingDirective.namespaceOf?_eq_some]
    constructor
    · rintro ⟨d, ⟨path, hat, hgoverns⟩, hread⟩
      exact ⟨d, path, hat, hgoverns, hread⟩
    · rintro ⟨d, path, hat, hgoverns, hread⟩
      exact ⟨d, ⟨path, hat, hgoverns⟩, hread⟩
  have husings : (declarationIn files (file, p)).usings = withMissing (withMissing (withMissing []
      (p.directives.filterMap fun d => UsingDirective.namespaceOf? false (d.text file.text)))
      file.found.globalUsings) (globalUsingsOf files) := rfl
  rw [husings, mem_withMissing, mem_withMissing, mem_withMissing, or_iff_right List.not_mem_nil, hlocal,
    ParsedFile.mem_globalUsings, mem_globalUsingsOf, or_assoc]
  exact or_congr_right (or_iff_right_of_imp fun hown => ⟨file, hfile, hown⟩)

theorem forall₂_number {α : Type} {R : α → Declaration → Prop} {f : α → Declaration} : ∀ {xs : List α} (next : Nat),
    (∀ x ∈ xs, ∀ id, R x { f x with id }) → List.Forall₂ R xs (Model.number next (xs.map f))
  | [], _, _ => .nil
  | x :: _, next, h =>
    .cons (h x List.mem_cons_self next) (forall₂_number (next + 1) fun y hy => h y (List.mem_cons_of_mem x hy))

/-- The model has one declaration for each place of a type in one of the files, file by file. -/
theorem forall₂_declaredIn (files : List ParsedFile) :
    List.Forall₂ (DeclaredIn files) (placesIn files) (Model.ofTrees files).declarations := by
  rw [Model.ofTrees, mergeCollected_declarations]
  refine forall₂_number 0 fun place hplace id => ?_
  have h := declaredIn_declarationIn hplace
  exact { h with declared := { h.declared with } }

/-- Two declarations are the same but for their ids and the order of the namespaces in scope. -/
structure Declaration.SameBut (d e : Declaration) : Prop where
  others : { e with id := d.id, usings := d.usings } = d
  usings : e.usings.Perm d.usings

theorem DeclaredIn.sameBut {files files' : List ParsedFile} {place : ParsedFile × TypePlace}
    {d e : Declaration} (hperm : files.Perm files') (hd : DeclaredIn files place d) (he : DeclaredIn files' place e) :
    d.SameBut e := by
  refine ⟨?_, (List.perm_ext_iff_of_nodup he.inScope.nodup hd.inScope.nodup).mpr fun name => ?_⟩
  · have h := hd.declared
    have h' := he.declared
    obtain ⟨⟩ := d
    obtain ⟨⟩ := e
    rw [Declaration.mk.injEq]
    exact ⟨rfl, h'.kind.trans h.kind.symm, h'.name.trans h.name.symm, h'.namespaceName.trans h.namespaceName.symm,
      h'.containers.trans h.containers.symm, h'.typeParameters.trans h.typeParameters.symm,
      h'.attributes.trans h.attributes.symm, h'.baseTypes.trans h.baseTypes.symm, h'.members.trans h.members.symm,
      rfl, h'.text.trans h.text.symm, h'.file.trans h.file.symm, h'.malformed.trans h.malformed.symm⟩
  · rw [he.inScope.mem_iff, hd.inScope.mem_iff]
    refine or_congr_right ⟨?_, ?_⟩
    · exact fun ⟨other, hother, hbrings⟩ => ⟨other, hperm.mem_iff.mpr hother, hbrings⟩
    · exact fun ⟨other, hother, hbrings⟩ => ⟨other, hperm.mem_iff.mp hother, hbrings⟩

/-- In another order of the files the declarations are the same, in another order. -/
theorem exists_sameBut_of_perm {files' : List ParsedFile} (hperm : files.Perm files') :
    ∃ ds, ds.Perm (Model.ofTrees files').declarations ∧
      List.Forall₂ Declaration.SameBut (Model.ofTrees files).declarations ds := by
  have hplaces : (placesIn files).Perm (placesIn files') := hperm.flatMap_right _
  obtain ⟨ds, hds, hsame⟩ := List.perm_comp_forall₂ hplaces (forall₂_declaredIn files')
  refine ⟨ds, hsame, (forall₂_common (forall₂_declaredIn files) hds).imp fun d e h => ?_⟩
  obtain ⟨place, hd, he⟩ := h
  exact hd.sameBut hperm he

end Merging

/-- **The directives reach the declarations that they govern.** Each declaration of a model has the namespaces in scope
that the directives governing its place bring there, and those of the directives of all files for the whole program,
each one once. So what stands in one namespace does not matter in another one beside it, nor does the order of the
files matter. A directive for a namespace brings its name, whatever blanks are in it. -/
theorem usings_reach_what_they_govern (files : List ParsedFile) :
    UsingDirective.ReadsNames ∧
      List.Forall₂ (DeclaredIn files) (placesIn files) (Model.ofTrees files).declarations ∧
      (∀ (container inside rest : List Nat) (i j : Nat), inside ≠ [] → i ≠ j →
        ¬Governs (container ++ i :: inside) (container ++ j :: rest)) ∧
      ∀ files', files.Perm files' → ∃ ds, ds.Perm (Model.ofTrees files').declarations ∧
        List.Forall₂ Declaration.SameBut (Model.ofTrees files).declarations ds := by
  refine ⟨UsingDirective.readsNames, forall₂_declaredIn files, ?_, ?_⟩
  · intro container inside rest i j hinside hij
    exact not_governs_of_beside hinside hij
  · intro files' hperm
    exact exists_sameBut_of_perm hperm

/-- A file with the syntax tree of its text. -/
def parsed (text : String) : ParsedFile := ⟨⟨none, text⟩, Source.syntaxTree text⟩

/-- A file with a directive in front of two namespaces and one in the first of them, and one with a directive for the
whole program. -/
def twoFiles : List ParsedFile :=
  [parsed "using A; namespace N \x7b using B; class First \x7b \x7d \x7d namespace M \x7b class Second \x7b \x7d \x7d",
   parsed "global using C; class Third \x7b \x7d"]

/-- The directive in the first namespace does not reach the second one, and the files may as well come the other way
round. -/
theorem twoFiles_in_scope : twoFiles.Perm twoFiles.reverse ∧
    (Model.ofTrees twoFiles).declarations.map (fun d => (d.name, d.usings)) =
      [("First", ["A", "B", "C"]), ("Second", ["A", "C"]), ("Third", ["C"])] ∧
    List.Forall₂ (DeclaredIn twoFiles) (placesIn twoFiles) (Model.ofTrees twoFiles).declarations ∧
    ¬Governs [1, 0] [2, 0] ∧
    ∃ ds, ds.Perm (Model.ofTrees twoFiles.reverse).declarations ∧
      List.Forall₂ Declaration.SameBut (Model.ofTrees twoFiles).declarations ds := by
  obtain ⟨-, hdeclared, hbeside, hperm⟩ := usings_reach_what_they_govern twoFiles
  have hreverse : twoFiles.Perm twoFiles.reverse := (List.reverse_perm twoFiles).symm
  exact ⟨hreverse, by decide +kernel, hdeclared, hbeside [] [0] [0] 1 2 (by simp) (by decide), hperm _ hreverse⟩

/-- A directive with a comment in the name brings nothing into scope, and neither does one in a passage on conditions or
in the body of a type: the class behind any of them has no namespace in scope. -/
theorem directives_without_effect :
    (Source.tokens "using A/*c*/.B;\nclass C \x7b \x7d\n").map (·.text) =
        ["using", "A", ".", "B", ";", "class", "C", "\x7b", "\x7d"] ∧
      (Model.ofFiles [⟨none, "using A/*c*/.B;\nclass C \x7b \x7d\n"⟩]).declarations.map (fun d => (d.name, d.usings)) =
        [("C", [])] ∧
      (Source.tokens "#if true\nglobal using A.B;\n#endif\nclass C \x7b \x7d\n").map (·.text) =
        ["#if", "true", "global", "using", "A", ".", "B", ";", "#endif", "class", "C", "\x7b", "\x7d"] ∧
      (Model.ofFiles [⟨none, "#if true\nglobal using A.B;\n#endif\nclass C \x7b \x7d\n"⟩]).declarations.map
        (fun d => (d.name, d.usings)) = [("C", [])] ∧
      ((Source.syntaxTree "class A \x7b using X; class B \x7b \x7d \x7d").at? [0, 2]).map
        (fun body => body.children.map (·.kind)) = some ["using_directive", "class_declaration"] ∧
      (Model.ofFiles [⟨none, "class A \x7b using X; class B \x7b \x7d \x7d"⟩]).declarations.map
        (fun d => (d.name, d.usings)) = [("A", []), ("B", [])] :=
  ⟨by decide +kernel, by decide +kernel, by decide +kernel, by decide +kernel, by decide +kernel, by decide +kernel⟩

end ContractStubs

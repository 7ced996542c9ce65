import ContractStubs.Proofs.Binding.Reference
import ContractStubs.Proofs.Fingerprint.Reached
import ContractStubs.Proofs.Inheritance.Search

/-!
# Fingerprints cover what the search for members reads

In a program that follows the rules of the language (`Program.IsLawful`), what a fingerprint reaches from some
interfaces has all declarations of every interface that they inherit from (`Program.Covers.includes_of_inherits`), and
tells in which order the declarations of one type stand (`Program.Covers.inOrder`).
-/

namespace ContractStubs

/-! ## Last parts of names -/

theorem lastPiece_behind (qualifier name : String) :
    lastPiece (· = '.') (qualifier ++ "." ++ name) = lastPiece (· = '.') name :=
  lastPiece_append rfl (by decide) qualifier name

theorem lastPiece_of_not_mem {name : String} (h : '.' ∉ name.toList) : lastPiece (· = '.') name = name :=
  lastPiece_of_none fun _ hc => decide_eq_false fun he => h (he ▸ hc)

/-- Behind the enclosing types stands the name itself. -/
theorem Declaration.lastPiece_nestedName {d : Declaration} (h : '.' ∉ d.name.toList) :
    lastPiece (· = '.') d.nestedName = d.name := by
  rw [nestedName]
  cases hc : d.containers.map (·.name) with
  | nil =>
    rw [List.nil_append, String.intercalate_singleton]
    exact lastPiece_of_not_mem h
  | cons c cs =>
    rw [String.intercalate_append_of_ne_nil (by simp) (by simp), String.intercalate_singleton, lastPiece_behind]
    exact lastPiece_of_not_mem h

namespace Binder

variable {b : Binder} {scope : Scope} {name : String} {args : List TypeRef}

/-- Looking up a name keeps the last part of it. -/
theorem lastPiece_bindName : lastPiece (· = '.') (b.bindName scope name args).name = lastPiece (· = '.') name := by
  rcases name_bindName with h | ⟨qualifier, h⟩
  · exact congrArg (lastPiece (· = '.')) h
  · exact (lastPiece_behind qualifier _).symm.trans (congrArg (lastPiece (· = '.')) h.symm)

end Binder

/-! ## Lawful programs -/

namespace Program

/-- What the language demands of the interfaces of a program. -/
structure IsLawful (p : Program) : Prop where
  /-- If one declaration of a type is an interface, all of them are. -/
  kinds : ∀ d ∈ p.model.declarations, ∀ e ∈ p.model.declarations, d.key = e.key → d.kind = .interfaceType →
    e.kind = .interfaceType
  /-- The name of an interface has no dot in it. -/
  names : ∀ d ∈ p.model.declarations, d.kind = .interfaceType → '.' ∉ d.name.toList
  /-- A base of an interface is not one of its type parameters. -/
  bases : ∀ d ∈ p.model.declarations, d.kind = .interfaceType → ∀ e ∈ d.baseTypes,
    (p.binder.bind (.ofDeclaration d) e).kind ≠ .typeParameter

variable {p : Program}

/-- A base that is no type parameter names the interface that it refers to, unless that has a dot in its name. -/
theorem isNamedBy_of_refers {scope : Scope} {e : Declaration} {t : TypeExpr} {ds : List Declaration} {r : TypeRef}
    (ht : (p.binder.bind scope t).kind ≠ .typeParameter) (he : e ∈ p.declarationsOf (p.typeIn scope ds r t))
    (hek : e.kind = .interfaceType) (hdot : '.' ∉ e.name.toList) : e.isNamedBy t = true := by
  obtain ⟨hkind, -, hkey⟩ := mem_declarationsOf.mp he
  rw [typeIn, TypeRef.substitute_of_ne_typeParameter _ ht] at hkind hkey
  have hname : e.nestedName = (p.binder.bind scope t).name := congrArg DeclarationKey.nestedName hkey
  have harity : e.typeParameters.length = (p.binder.bind scope t).args.length := by
    have h : e.typeParameters.length = _ := congrArg DeclarationKey.arity hkey
    simpa [TypeRef.lookupKey, TypeRef.arity] using h
  have hlast := Declaration.lastPiece_nestedName hdot
  cases t with
  | verbatim text => cases hkind
  | tuple elements suffix =>
    rw [Binder.bind] at hkind
    cases hkind
  | named name args suffix =>
    rw [Binder.bind] at hname harity
    have hsimple : e.name = lastPiece (· = '.') name := by
      rw [← hlast, hname]
      exact Binder.lastPiece_bindName
    have hargs : e.typeParameters.length = args.length := by
      rw [harity]
      exact (congrArg List.length Binder.bindName_args).trans (by rw [Binder.bindAll_eq_map, List.length_map])
    simp [Declaration.isNamedBy, hek, hsimple, hargs, TypeExpr.simpleName, TypeExpr.arity, TypeExpr.args]

/-- An interface that a base refers to is one that the base names. -/
theorem IsLawful.isNamedBy (hp : p.IsLawful) {d e : Declaration} {t : TypeExpr} {ds : List Declaration} {r : TypeRef}
    (hd : d ∈ p.model.declarations) (hdk : d.kind = .interfaceType) (ht : t ∈ d.baseTypes)
    (he : e ∈ p.declarationsOf (p.typeIn (.ofDeclaration d) ds r t)) (hek : e.kind = .interfaceType) :
    e.isNamedBy t = true :=
  isNamedBy_of_refers (hp.bases d hd hdk t ht) he hek (hp.names e (mem_declarationsOf.mp he).2.1 hek)

/-- The declarations of one type may be bases of the same. -/
theorem IsLawful.isUniform (hp : p.IsLawful) (key : DeclarationKey) :
    IsUniform p.model.declarations fun d => d.key == key := by
  intro base d hd e he hdk hek hnamed
  have hkey : d.key = e.key := (beq_iff_eq.mp hdk).trans (beq_iff_eq.mp hek).symm
  simp only [Declaration.isNamedBy, Bool.and_eq_true, beq_iff_eq] at hnamed ⊢
  obtain ⟨⟨hkind, hname⟩, harity⟩ := hnamed
  have hekind := hp.kinds d hd e he hkey hkind
  have hnested : d.nestedName = e.nestedName := congrArg DeclarationKey.nestedName hkey
  have hlength : d.typeParameters.length = e.typeParameters.length := congrArg DeclarationKey.arity hkey
  refine ⟨⟨hekind, ?_⟩, hlength ▸ harity⟩
  rw [← hname, ← Declaration.lastPiece_nestedName (hp.names e he hekind), ← hnested,
    Declaration.lastPiece_nestedName (hp.names d hd hkind)]

/-! ## Covering -/

/-- The declarations are those of a program that can be reached from some of them, each once, in an order that tells how
those of one type stand in the program. -/
structure Covers (p : Program) (ds : List Declaration) : Prop where
  mem : ∀ d ∈ ds, d ∈ p.model.declarations
  nodup : ds.Nodup
  closed : ∀ d ∈ ds, ∀ e ∈ possibleBases p.model.declarations d, e ∈ ds
  inOrder : ∀ key : DeclarationKey, (∀ d ∈ p.model.declarations, d.key = key → d ∈ ds) →
    ds.filter (fun d => d.key == key) = (declarationsWithKey p.model.declarations key).reverse

/-- All declarations of a type are in a list. -/
def Includes (p : Program) (ds : List Declaration) (t : TypeRef) : Prop := ∀ d ∈ p.declarationsOf t, d ∈ ds

theorem mem_of_mem_starts {targets : List TypeRef} :
    ∀ d ∈ (targets.flatMap p.declarationsOf).reverse, d ∈ p.model.declarations := by
  intro d hd
  obtain ⟨t, -, hd⟩ := List.mem_flatMap.mp (List.mem_reverse.mp hd)
  exact (mem_declarationsOf.mp hd).2.1

/-- **What a fingerprint reaches from targets** has all their declarations, and with each declaration the interfaces that
its bases may be. -/
theorem reachedFrom_closed (hm : p.model.IsNumbered) (targets : List TypeRef) :
    (∀ t ∈ targets, p.Includes (reachedFrom p.model.declarations (targets.flatMap p.declarationsOf)) t) ∧
      ∀ c ∈ reachedFrom p.model.declarations (targets.flatMap p.declarationsOf),
        ∀ d ∈ possibleBases p.model.declarations c,
          d ∈ reachedFrom p.model.declarations (targets.flatMap p.declarationsOf) := by
  have hfuel : (unvisited p.model.declarations []).length ≤
      (targets.flatMap p.declarationsOf).length + p.model.declarations.length := by
    have := List.length_filter_le (fun d : Declaration => !([] : List Nat).contains d.id) p.model.declarations
    rw [unvisited]
    omega
  obtain ⟨honStack, hclosed⟩ := reached_covers (fun d hd e he => hm.eq_of_id_eq hd he) hfuel mem_of_mem_starts
  constructor
  · exact fun t ht d hd => (honStack d (List.mem_reverse.mpr (List.mem_flatMap.mpr ⟨t, ht, hd⟩))).resolve_left
      List.not_mem_nil
  · exact fun c hc d hd => (hclosed c hc d hd).resolve_left List.not_mem_nil

/-- In a lawful program what a fingerprint reaches covers the targets. -/
theorem IsLawful.covers (hp : p.IsLawful) (hm : p.model.IsNumbered) (targets : List TypeRef) :
    p.Covers (reachedFrom p.model.declarations (targets.flatMap p.declarationsOf)) ∧
      ∀ t ∈ targets, p.Includes (reachedFrom p.model.declarations (targets.flatMap p.declarationsOf)) t := by
  obtain ⟨hincludes, hclosed⟩ := reachedFrom_closed hm targets
  refine ⟨⟨fun d => mem_of_mem_reached mem_of_mem_starts, nodup_reached.of_map _, hclosed, fun key hall => ?_⟩,
    hincludes⟩
  refine filter_reached hm.pairwise_id (fun d hd e he => hm.eq_of_id_eq hd he) (hp.isUniform key) mem_of_mem_starts ?_
    fun d hd hk => hall d hd (beq_iff_eq.mp hk)
  refine descends_reverse_flatMap fun t _ => ?_
  rw [declarationsOf]
  split
  · refine descends_reverse_filter hm.pairwise_id fun d _ e _ hd he hf => ?_
    rw [beq_iff_eq] at hd he hf ⊢
    rw [he, ← hf, hd]
  · exact descends_nil

namespace Covers

variable {ds : List Declaration} (hds : p.Covers ds)

include hds

/-- The declarations of a type that is covered, read off the covering list. -/
theorem declarationsOf_eq {t : TypeRef} (ht : p.Includes ds t) :
    p.declarationsOf t = if t.kind = .named then (ds.filter fun d => d.key == t.lookupKey).reverse else [] := by
  rw [declarationsOf]
  split
  next hk =>
    rw [hds.inOrder t.lookupKey fun d hd hkey => ht d (mem_declarationsOf.mpr ⟨hk, hd, hkey⟩), List.reverse_reverse]
    rfl
  next => rfl

/-- Interfaces among the bases of what is included are included. -/
theorem includes_base (hp : p.IsLawful) {s t : TypeRef} (hs : p.Includes ds s) (ht : t ∈ p.bases s)
    (hti : p.isInterface t) : p.Includes ds t := by
  intro e he
  have hek := kind_of_mem_declarationsOf hti he
  obtain ⟨hi, d, hd, expr, hexpr, rfl⟩ := mem_bases_iff.mp ht
  obtain ⟨-, hmem, -⟩ := mem_declarationsOf.mp hd
  have hnamed := hp.isNamedBy hmem (kind_of_mem_declarationsOf hi hd) hexpr he hek
  exact hds.closed d (hs d hd) e (mem_possibleBases hexpr (mem_declarationsOf.mp he).2.1 hnamed)

/-- **All that an included interface inherits from is included.** -/
theorem includes_of_inherits (hp : p.IsLawful) {r s : TypeRef} (hr : p.Includes ds r) (h : p.Inherits r s) :
    p.Includes ds s := by
  induction h with
  | self => exact hr
  | base _ ht hi ih => exact hds.includes_base hp ih ht hi

end Covers

end Program

end ContractStubs

import ContractStubs.Proofs.Inheritance.Search
import ContractStubs.Proofs.TypeRef.Nodes
import Mathlib.Data.Finite.Prod
import Mathlib.Data.Set.Finite.Lattice

/-!
# Programs whose bases stand in layers

A base may wrap a type parameter of its interface into a further type, as `IEnumerable<KeyValuePair<K, V>>` does. Where
interfaces can be put into layers such that a base with wrapped parameters stands in a lower layer, and no base in a
higher one (`Layered`), only finitely many constructed interfaces are inherited from (`Layered.finite`): within a layer
the arguments come from a finite stock (`Stocked`), and each step down leaves fewer layers.
-/

namespace ContractStubs

namespace TypeRef

mutual

/-- No type parameter occurs in the reference. -/
def isClosed : TypeRef → Bool
  | ⟨_, _, args, _, _, kind⟩ => kind != .typeParameter && allClosed args

/-- No type parameter occurs in the references. -/
def allClosed : List TypeRef → Bool
  | [] => true
  | arg :: args => isClosed arg && allClosed args

end

mutual

theorem substitute_of_isClosed (f : String → Option TypeRef) : ∀ r : TypeRef, r.isClosed → r.substitute f = r
  | ⟨name, ns, args, suffix, names, kind⟩, h => by
    rw [isClosed, Bool.and_eq_true] at h
    have hargs := substituteAll_of_allClosed f args h.2
    cases kind with
    | typeParameter => exact absurd h.1 (by decide)
    | _ => simp only [substitute, hargs]

theorem substituteAll_of_allClosed (f : String → Option TypeRef) :
    ∀ rs : List TypeRef, allClosed rs → substituteAll f rs = rs
  | [], _ => rfl
  | r :: rs, h => by
    rw [allClosed, Bool.and_eq_true] at h
    rw [substituteAll, substitute_of_isClosed f r h.1, substituteAll_of_allClosed f rs h.2]

end

/-- A type parameter alone, or a reference in which none occurs. -/
def isPlain (r : TypeRef) : Bool := r.isClosed || r == .bare .typeParameter r.name

theorem substitute_bare_typeParameter (f : String → Option TypeRef) (name : String) :
    (bare .typeParameter name).substitute f = (f name).getD (bare .typeParameter name) := by
  cases hf : f name with
  | none => simp [bare, substitute, substituteAll, hf]
  | some r => simp only [bare, substitute, hf, String.append_empty, Option.getD_some, eta]

/-- A plain reference is kept, or replaced as a whole. -/
theorem substitute_of_isPlain (f : String → Option TypeRef) {r : TypeRef} (h : r.isPlain) :
    r.substitute f = r ∨ f r.name = some (r.substitute f) := by
  rcases Bool.or_eq_true _ _ ▸ h with h | h
  · exact .inl (substitute_of_isClosed f r h)
  · have he : r = .bare .typeParameter r.name := by simpa using h
    rw [he, substitute_bare_typeParameter]
    cases hf : f r.name with
    | none => exact .inl rfl
    | some s => exact .inr hf

end TypeRef

namespace Program

variable {p : Program} {rank : DeclarationKey → Nat}

/-- A base of a declaration as it is written, its names looked up. -/
def writtenBase (p : Program) (d : Declaration) (t : TypeExpr) : TypeRef := p.binder.bind (.ofDeclaration d) t

/-- No base of an interface is a type parameter, none stands in a higher layer, and in the layer of the interface
only those whose arguments are plain. -/
def Layered (p : Program) (rank : DeclarationKey → Nat) : Prop :=
  ∀ d ∈ p.model.declarations, d.kind = .interfaceType → ∀ t ∈ d.baseTypes,
    (p.writtenBase d t).kind ≠ .typeParameter ∧ (rank (p.writtenBase d t).lookupKey < rank d.key ∨
      rank (p.writtenBase d t).lookupKey = rank d.key ∧ ∀ a ∈ (p.writtenBase d t).args, a.isPlain)

instance (p : Program) (rank : DeclarationKey → Nat) : Decidable (p.Layered rank) :=
  inferInstanceAs (Decidable (∀ d ∈ _, _ → ∀ t ∈ _, _))

/-- All bases in the program as they are written. -/
def writtenBases (p : Program) : List TypeRef := p.model.declarations.flatMap fun d => d.baseTypes.map (p.writtenBase d)

/-- A base of a constructed interface comes from a base that one of its declarations is written with. -/
theorem mem_bases {s t : TypeRef} (h : t ∈ p.bases s) :
    ∃ d ∈ p.model.declarations, d.kind = .interfaceType ∧ d.key = s.lookupKey ∧
      ∃ e ∈ d.baseTypes, ∃ f : String → Option TypeRef, (∀ n a, f n = some a → a ∈ s.args) ∧
        t = (p.writtenBase d e).substitute f := by
  obtain ⟨hi, d, hd, e, he, rfl⟩ := mem_bases_iff.mp h
  obtain ⟨-, hmem, hkey⟩ := mem_declarationsOf.mp hd
  exact ⟨d, hmem, kind_of_mem_declarationsOf hi hd, hkey, e, he, argumentOf? _ s, fun _ _ => mem_args_of_argumentOf?,
    rfl⟩

theorem writtenBase_mem {d : Declaration} {e : TypeExpr} (hd : d ∈ p.model.declarations) (he : e ∈ d.baseTypes) :
    p.writtenBase d e ∈ p.writtenBases :=
  List.mem_flatMap.mpr ⟨d, hd, List.mem_map.mpr ⟨e, he, rfl⟩⟩

/-! ## One layer -/

/-- The arguments that occur in a layer below `r`: those of `r` and those that bases are written with. -/
def stock (p : Program) (r : TypeRef) : List TypeRef := r.args ++ p.writtenBases.flatMap TypeRef.args

/-- The reference is `r` or a written base, with arguments from the stock. -/
def Stocked (p : Program) (r s : TypeRef) : Prop :=
  (∀ a ∈ s.args, a ∈ p.stock r) ∧
    ∃ b ∈ r :: p.writtenBases, s = { b with args := s.args } ∧ s.args.length = b.args.length

/-- Lists of a given length from a finite set are finitely many. -/
theorem finite_lists {α : Type} {xs : Set α} (hx : xs.Finite) :
    ∀ n, {l : List α | l.length = n ∧ ∀ a ∈ l, a ∈ xs}.Finite
  | 0 => (Set.finite_singleton []).subset fun l h => List.length_eq_zero_iff.mp h.1
  | n + 1 => by
    refine (hx.image2 List.cons (finite_lists hx n)).subset fun l h => ?_
    obtain ⟨a, l, rfl⟩ := List.exists_cons_of_length_eq_add_one h.1
    exact ⟨a, h.2 a List.mem_cons_self, l, ⟨Nat.succ.inj h.1, fun b hb => h.2 b (List.mem_cons_of_mem _ hb)⟩, rfl⟩

theorem finite_stocked (p : Program) (r : TypeRef) : {s | p.Stocked r s}.Finite := by
  have hbase : ∀ b : TypeRef, {s : TypeRef | (∀ a ∈ s.args, a ∈ p.stock r) ∧ s = { b with args := s.args } ∧
      s.args.length = b.args.length}.Finite := by
    intro b
    refine ((finite_lists (List.finite_toSet (p.stock r)) b.args.length).image
      fun as => { b with args := as }).subset ?_
    rintro s ⟨hstock, he, hlen⟩
    exact ⟨s.args, ⟨hlen, hstock⟩, he.symm⟩
  refine ((List.finite_toSet (r :: p.writtenBases)).biUnion fun b _ => hbase b).subset ?_
  rintro s ⟨hstock, b, hb, he⟩
  exact Set.mem_biUnion hb ⟨hstock, he⟩

theorem stocked_self (r : TypeRef) : p.Stocked r r :=
  ⟨fun _ ha => List.mem_append_left _ ha, r, List.mem_cons_self, r.eta.symm, rfl⟩

/-- A base keeps to the stock, or stands in a lower layer. -/
theorem Layered.base_stocked (hp : p.Layered rank) {r s t : TypeRef} (hs : p.Stocked r s) (ht : t ∈ p.bases s) :
    rank t.lookupKey < rank s.lookupKey ∨ rank t.lookupKey = rank s.lookupKey ∧ p.Stocked r t := by
  obtain ⟨d, hd, hkind, hkey, e, he, f, hf, rfl⟩ := mem_bases ht
  obtain ⟨hk, hrank⟩ := hp d hd hkind e he
  have hsub := TypeRef.substitute_of_ne_typeParameter f hk
  have hlook : ((p.writtenBase d e).substitute f).lookupKey = (p.writtenBase d e).lookupKey := by
    rw [hsub]
    simp [TypeRef.lookupKey, TypeRef.arity]
  rw [hlook, ← hkey]
  refine hrank.imp_right fun hlayer => ?_
  obtain ⟨heq, hplain⟩ := hlayer
  refine ⟨heq, fun a ha => ?_, p.writtenBase d e, List.mem_cons_of_mem _ (writtenBase_mem hd he), by rw [hsub],
    by rw [hsub, List.length_map]⟩
  rw [hsub] at ha
  obtain ⟨c, hc, rfl⟩ := List.mem_map.mp ha
  rcases TypeRef.substitute_of_isPlain f (hplain c hc) with h | h
  · rw [h]
    exact List.mem_append_right _ (List.mem_flatMap.mpr ⟨_, writtenBase_mem hd he, hc⟩)
  · exact hs.1 _ (hf _ _ h)

/-! ## All layers -/

/-- What is inherited from keeps to the stock, or is inherited from a base in a lower layer. -/
theorem Layered.inherits_cases (hp : p.Layered rank) {r s : TypeRef} (h : p.Inherits r s) :
    (rank s.lookupKey = rank r.lookupKey ∧ p.Stocked r s) ∨
      ∃ u, p.Stocked r u ∧ ∃ t ∈ p.bases u, rank t.lookupKey < rank r.lookupKey ∧ p.Inherits t s := by
  induction h with
  | self => exact .inl ⟨rfl, stocked_self r⟩
  | base _ ht hi ih =>
    obtain ⟨hrank, hs⟩ | ⟨u, hu, t', ht', hlt, hin⟩ := ih
    · rcases hp.base_stocked hs ht with hlt | ⟨heq, hst⟩
      · exact .inr ⟨_, hs, _, ht, hrank ▸ hlt, .self hi⟩
      · exact .inl ⟨heq.trans hrank, hst⟩
    · exact .inr ⟨u, hu, t', ht', hlt, hin.base ht hi⟩

/-- **In layers, only finitely many interfaces are inherited from.** -/
theorem Layered.finite (hp : p.Layered rank) (r : TypeRef) : {s | p.Inherits r s}.Finite := by
  induction hn : rank r.lookupKey using Nat.strongRecOn generalizing r with
  | ind n ih =>
    have hbelow : ∀ u, {s | ∃ t ∈ p.bases u, rank t.lookupKey < n ∧ p.Inherits t s}.Finite := by
      intro u
      refine ((List.finite_toSet ((p.bases u).filter fun t => rank t.lookupKey < n)).biUnion
        (t := fun t => {s | p.Inherits t s}) fun t ht => ?_).subset ?_
      · exact ih _ (by simpa using (List.mem_filter.mp ht).2) t rfl
      · rintro s ⟨t, ht, hlt, hs⟩
        exact Set.mem_biUnion (show t ∈ _ from List.mem_filter.mpr ⟨ht, by simpa using hlt⟩) hs
    refine ((finite_stocked p r).union ((finite_stocked p r).biUnion fun u _ => hbelow u)).subset fun s hs => ?_
    obtain ⟨_, hst⟩ | ⟨u, hu, hdown⟩ := hp.inherits_cases hs
    · exact .inl hst
    · exact .inr (Set.mem_biUnion hu (hn ▸ hdown))

end Program

end ContractStubs

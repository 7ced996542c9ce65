import ContractStubs.Proofs.Inheritance.Parameters
import ContractStubs.Proofs.Lists
import ContractStubs.Proofs.Samples
import ContractStubs.Proofs.TypeRef.Composition

/-!
# Filling in arguments

The arguments of a constructed interface can be filled in at any level: what it inherits from once they are filled in is
what it inherits from before, filled in afterwards, and what comes by bases that are type parameters
(`Program.inherits_substitute_iff`). That is so for all names but the type parameters that an interface on the way leaves
open. A member is filled in as well, exactly if nothing else is put for the type parameters of its own
(`Program.Writes.substitute_iff`). A search finds the same members either way, in the same order, where it tells the same
interfaces apart (`Program.visit_substitute`, `Program.substitutions_compose`); it tells them apart by their texts, so
members can be lost by filling in (`Program.bothRepositories_lose_member`).
-/

namespace ContractStubs

/-- The member with type parameters replaced in its types and in the interface that declares it. -/
def InterfaceMember.substitute (f : String → Option TypeRef) (m : InterfaceMember) : InterfaceMember :=
  { m with
    returnType? := m.returnType?.map (TypeRef.substitute f)
    parameters := m.parameters.map fun q => { q with type := q.type.substitute f }
    declaringInterface := m.declaringInterface.substitute f }

/-- Looking up gives a type parameter with marks and nothing else. -/
theorem Binder.bareParameters_bind {b : Binder} {scope : Scope} {t : TypeExpr} : (b.bind scope t).BareParameters := by
  intro place u hu hk
  rw [at?_bind] at hu
  obtain ⟨c, -, rfl⟩ := Option.map_eq_some_iff.mp hu
  obtain ⟨⟨suffix, he⟩, hname, hs⟩ := isParameter_bind_iff.mp ⟨hk, rfl⟩
  have hbind : b.bind scope (.named (b.bind scope c).name [] suffix) = _ := bind_parameter hname hs
  rw [← he] at hbind
  rw [hbind]
  rfl

namespace Program

variable {p : Program} {i r s : TypeRef} {f : String → Option TypeRef} {ds : List Declaration}

/-! ## One interface -/

theorem not_isReplaced_of_named (hk : s.kind = .named) : ¬s.IsReplaced f := fun h => by
  have hparameter := h.1
  rw [hk] at hparameter
  cases hparameter

/-- What is declared stands under its key with other arguments as well. -/
theorem declarationsOf_substitute (hs : ¬s.IsReplaced f) : p.declarationsOf (s.substitute f) = p.declarationsOf s := by
  rw [TypeRef.substitute_of_kept f hs]
  simp [declarationsOf, TypeRef.arity]

/-- Only what is put for a type parameter can be an interface where there was none. -/
theorem isInterface_substitute (hs : ¬s.IsReplaced f) : p.isInterface (s.substitute f) ↔ p.isInterface s := by
  rw [isInterface_iff, isInterface_iff, interfaceDeclarations_eq_ok, interfaceDeclarations_eq_ok,
    declarationsOf_substitute hs]

/-- An interface with other arguments is an interface of the same declarations. -/
theorem interfaceDeclarations_substitute (hi : p.isInterface s) :
    p.interfaceDeclarations (s.substitute f) = .ok (p.declarationsOf s) := by
  have hkept : ¬s.IsReplaced f := not_isReplaced_of_named (kind_of_isInterface hi)
  rw [← declarationsOf_substitute hkept]
  exact isInterface_iff.mp ((isInterface_substitute hkept).mpr hi)

/-- What the type parameters of an interface stand for is filled in with its arguments. -/
theorem argumentOf?_substitute (hk : r.kind = .named) (name : String) :
    argumentOf? ds (r.substitute f) name = (argumentOf? ds r name).map (TypeRef.substitute f) := by
  rw [TypeRef.substitute_of_ne_typeParameter f (by simp [hk]), argumentOf?, argumentOf?, List.zip_map_right,
    ← List.map_reverse, lookup_map_snd]

variable {scope : Scope} {d : Declaration} {n : MemberDeclaration} {m : InterfaceMember}

/-- **A type in an interface is filled in with its arguments exactly if nothing else is put for the type parameters in it
that have no argument.** -/
theorem typeIn_substitute_iff (hk : r.kind = .named) (t : TypeExpr) :
    p.typeIn scope ds (r.substitute f) t = (p.typeIn scope ds r t).substitute f ↔
      ∀ name, (p.binder.bind scope t).HasParameter name → argumentOf? ds r name = none → TypeRef.Spares f name := by
  rw [typeIn, typeIn, TypeRef.substitute_substitute, TypeRef.substitute_eq_iff _ Binder.bareParameters_bind]
  refine forall_congr' fun name => imp_congr_right fun _ => ?_
  rw [TypeRef.standsFor, argumentOf?_substitute hk, TypeRef.standsFor, TypeRef.andThen]
  cases argumentOf? ds r name with
  | some a => exact iff_of_true rfl fun h => by cases h
  | none => exact ⟨fun h _ => h.symm, fun h => (h rfl).symm⟩

/-! ## Through all levels -/

/-- Nothing else is put for a type parameter that is left open on the way. -/
def SparesOpen (p : Program) (f : String → Option TypeRef) (i : TypeRef) : Prop :=
  ∀ s, p.Inherits i s → ∀ name, p.LeavesOpen s name → TypeRef.Spares f name

/-- Nothing else is put for a type parameter in a member that the interface has no argument for, such as one that the
member declares itself. -/
def SparesOwn (p : Program) (f : String → Option TypeRef) (d : Declaration) (n : MemberDeclaration) (s : TypeRef) :
    Prop :=
  ∀ t ∈ n.types, ∀ name, (p.binder.bind (scopeIn d n) t).HasParameter name → p.argumentIn? s name = none →
    TypeRef.Spares f name

/-- No type parameter that something is put for is a base on the way. -/
def SparesBases (p : Program) (f : String → Option TypeRef) (i : TypeRef) : Prop :=
  ∀ s, p.Inherits i s → ∀ t ∈ p.bases s, ¬t.IsReplaced f

/-- The bases of an interface are filled in with its arguments. -/
theorem bases_substitute (hi : p.isInterface s) (hf : ∀ name, p.LeavesOpen s name → TypeRef.Spares f name) :
    p.bases (s.substitute f) = (p.bases s).map (TypeRef.substitute f) := by
  have hk := kind_of_isInterface hi
  simp only [bases, interfaceDeclarations_substitute hi, isInterface_iff.mp hi, basesOf, List.map_flatMap, List.map_map]
  refine List.flatMap_congr fun d hd => List.map_congr_left fun e _ => ?_
  exact (typeIn_substitute_iff hk e).mpr fun name hname hnone =>
    hf name ⟨hnone, d, hd, Binder.mem_of_hasParameter_bind hname⟩

/-- **What is inherited from is filled in with the arguments, through any number of levels.** -/
theorem Inherits.substitute (h : p.Inherits i s) (hf : p.SparesOpen f i) :
    p.Inherits (i.substitute f) (s.substitute f) := by
  have hfilled : ∀ {t : TypeRef}, p.isInterface t → p.isInterface (t.substitute f) := fun ht =>
    (isInterface_substitute (not_isReplaced_of_named (kind_of_isInterface ht))).mpr ht
  induction h with
  | self hi => exact .self (hfilled hi)
  | @base s t hs ht hi ih =>
    refine ih.base ?_ (hfilled hi)
    rw [bases_substitute hs.isInterface (hf s hs)]
    exact List.mem_map_of_mem ht

/-- What comes by a base that is a type parameter, once something is put for it. -/
def BringsIn (p : Program) (f : String → Option TypeRef) (i t : TypeRef) : Prop :=
  ∃ s, p.Inherits i s ∧ ∃ u ∈ p.bases s, u.IsReplaced f ∧ p.Inherits (u.substitute f) t

/-- **What is inherited from once the arguments are filled in was inherited from before, or comes by a base that is a
type parameter.** -/
theorem inherits_substitute_iff (hi : p.isInterface i) (hf : p.SparesOpen f i) {t : TypeRef} :
    p.Inherits (i.substitute f) t ↔ (∃ s, p.Inherits i s ∧ s.substitute f = t) ∨ p.BringsIn f i t := by
  have hfilled : ∀ {s u : TypeRef}, p.Inherits i s → u ∈ p.bases s → u.substitute f ∈ p.bases (s.substitute f) :=
    fun hs hu => by
      rw [bases_substitute hs.isInterface (hf _ hs)]
      exact List.mem_map_of_mem hu
  constructor
  · intro h
    induction h with
    | self _ => exact .inl ⟨i, .self hi, rfl⟩
    | @base _ t _ ht hit ih =>
      obtain ⟨s, hs, rfl⟩ | ⟨s, hs, u, hu, hreplaced, ht'⟩ := ih
      · rw [bases_substitute hs.isInterface (hf s hs)] at ht
        obtain ⟨u, hu, rfl⟩ := List.mem_map.mp ht
        by_cases hreplaced : u.IsReplaced f
        · exact .inr ⟨s, hs, u, hu, hreplaced, .self hit⟩
        · exact .inl ⟨u, hs.base hu ((isInterface_substitute hreplaced).mp hit), rfl⟩
      · exact .inr ⟨s, hs, u, hu, hreplaced, ht'.base ht hit⟩
  · rintro (⟨s, hs, rfl⟩ | ⟨s, hs, u, hu, -, ht⟩)
    · exact hs.substitute hf
    · have hs' := hs.substitute hf
      exact hs'.trans (ht.head hs'.isInterface (hfilled hs hu))

theorem types_substitute : (m.substitute f).types = m.types.map (TypeRef.substitute f) := by
  cases h : m.returnType? <;> simp [InterfaceMember.types, InterfaceMember.substitute, h]

theorem memberOf_substitute (h : ∀ t ∈ n.types, p.typeIn (scopeIn d n) ds (s.substitute f) t =
    (p.typeIn (scopeIn d n) ds s t).substitute f) :
    (p.memberOf ds s d n).substitute f = p.memberOf ds (s.substitute f) d n := by
  have hreturn : (n.returnType?.map (p.typeIn (scopeIn d n) ds s)).map (TypeRef.substitute f) =
      n.returnType?.map (p.typeIn (scopeIn d n) ds (s.substitute f)) := by
    rw [Option.map_map]
    refine Option.map_congr fun t ht => (h t (List.mem_append_left _ ?_)).symm
    rwa [Option.mem_toList]
  have hparameters : (n.parameters.map fun q => Parameter.mk q.name (p.typeIn (scopeIn d n) ds s q.type) q.modifier?
      q.default?).map (fun q => { q with type := q.type.substitute f }) = n.parameters.map fun q =>
        Parameter.mk q.name (p.typeIn (scopeIn d n) ds (s.substitute f) q.type) q.modifier? q.default? := by
    rw [List.map_map]
    refine List.map_congr_left fun q hq => ?_
    rw [h q.type (List.mem_append_right _ (List.mem_map_of_mem hq))]
    rfl
  simp only [InterfaceMember.substitute, memberOf, InterfaceMember.mk.injEq, true_and, and_true]
  exact ⟨hreturn, hparameters⟩

/-- The declared members of an interface are filled in with its arguments, where their own type parameters are spared. -/
theorem declaredMembers_substitute (hi : p.isInterface s)
    (hown : ∀ d ∈ p.declarationsOf s, ∀ n ∈ d.members, p.SparesOwn f d n s) :
    p.declaredMembers (s.substitute f) = (p.declaredMembers s).map (InterfaceMember.substitute f) := by
  have hk := kind_of_isInterface hi
  simp only [declaredMembers, interfaceDeclarations_substitute hi, isInterface_iff.mp hi, ownMembers, List.map_flatMap,
    List.map_map]
  refine List.flatMap_congr fun d hd => List.map_congr_left fun n hn => ?_
  exact (memberOf_substitute fun t ht => (typeIn_substitute_iff hk t).mpr (hown d hd n hn t ht)).symm

/-- **A member is filled in with the arguments of its interface exactly if its own type parameters are spared.** -/
theorem Writes.substitute_iff (w : p.Writes d n m) :
    p.Writes d n (m.substitute f) ↔ p.SparesOwn f d n m.declaringInterface := by
  have ⟨hd, hn, he⟩ := w
  have hk : m.declaringInterface.kind = .named := (mem_declarationsOf.mp hd).1
  have hsame : p.declarationsOf (m.declaringInterface.substitute f) = p.declarationsOf m.declaringInterface :=
    declarationsOf_substitute (not_isReplaced_of_named hk)
  have hspares : p.SparesOwn f d n m.declaringInterface ↔ ∀ t ∈ n.types,
      p.typeIn (scopeIn d n) (p.declarationsOf m.declaringInterface) (m.declaringInterface.substitute f) t =
        (p.typeIn (scopeIn d n) (p.declarationsOf m.declaringInterface) m.declaringInterface t).substitute f :=
    forall₂_congr fun t _ => (typeIn_substitute_iff hk t).symm
  rw [hspares]
  constructor
  · intro w'
    have htypes := w'.types_eq
    rw [types_substitute, w.types_eq, List.map_map] at htypes
    have hinterface : (m.substitute f).declaringInterface = m.declaringInterface.substitute f := rfl
    rw [hinterface, hsame] at htypes
    exact fun t ht => (List.map_inj_left.mp htypes t ht).symm
  · intro htypes
    refine ⟨hsame ▸ hd, hn, ?_⟩
    have hinterface : (m.substitute f).declaringInterface = m.declaringInterface.substitute f := rfl
    rw [hinterface, hsame, ← memberOf_substitute htypes, ← he]

/-- The names that no declaration and no member declares are all spared. -/
theorem spares_of_foreign
    (h : ∀ d ∈ p.model.declarations, (∀ name ∈ (Scope.ofDeclaration d).typeParameters, f name = none) ∧
      ∀ n ∈ d.members, ∀ name ∈ n.typeParameters, f name = none) :
    p.SparesOpen f i ∧ ∀ s, ∀ d ∈ p.declarationsOf s, ∀ n ∈ d.members, p.SparesOwn f d n s := by
  have hspares : ∀ name, f name = none → TypeRef.Spares f name := fun name hnone => by
    rw [TypeRef.Spares, TypeRef.standsFor, hnone, Option.getD_none]
  refine ⟨fun s _ name hopen => ?_, fun s d hd n hn t _ name hname _ => ?_⟩
  · obtain ⟨-, d, hd, hname⟩ := hopen
    exact hspares name ((h d (mem_declarationsOf.mp hd).2.1).1 name hname)
  · have hscope : name ∈ (scopeIn d n).typeParameters := Binder.mem_of_hasParameter_bind hname
    have hd' := h d (mem_declarationsOf.mp hd).2.1
    exact hspares name ((List.mem_append.mp hscope).elim (hd'.1 name) (hd'.2 n hn name))

/-- What is inherited from is among some interfaces that hold their bases. -/
theorem Inherits.mem_of_closed {stock : List TypeRef} (h : p.Inherits i s) (hi : i ∈ stock)
    (hstock : ∀ s ∈ stock, ∀ t ∈ p.bases s, t ∈ stock) : s ∈ stock := by
  induction h with
  | self _ => exact hi
  | @base s t _ ht _ ih => exact hstock s ih t ht

/-! ## What a search finds -/

/-- Where texts differ, a search that ends finds just what is written in what is inherited from. -/
theorem mem_found_iff {depth : Nat} {ms : List InterfaceMember} (h : p.membersWithin? depth i = some (.ok ms))
    (hdiff : p.TextsDiffer i) : m ∈ ms ↔ p.Inherits i m.declaringInterface ∧ ∃ d n, p.Writes d n m := by
  refine ⟨exists_writes h, ?_⟩
  rintro ⟨hs, d, n, w⟩
  obtain ⟨visited, hv, rfl⟩ := members_of_visited h
  refine List.mem_flatMap.mpr ⟨m.declaringInterface, (visit_explores hv).mem_of_textsDiffer hdiff hs, ?_⟩
  exact mem_declaredMembers_iff.mpr ⟨hs.isInterface, d, w.declares, n, w.mem, w.eq⟩

theorem isInterface_of_found {depth : Nat} {ms : List InterfaceMember} (h : p.membersWithin? depth i = some (.ok ms)) :
    p.isInterface i := by
  by_contra hi
  rw [membersWithin?_eq] at h
  cases hd : p.interfaceDeclarations i with
  | ok ds => exact hi (by rw [isInterface, hd]; rfl)
  | error cause =>
    rw [hd] at h
    by_cases hz : depth = 0 <;> simp [hz] at h

/-- Two of the interfaces on the way have one text exactly if they have one once something is put for their type
parameters. -/
def TextsAgree (p : Program) (f : String → Option TypeRef) (i : TypeRef) : Prop :=
  ∀ s t, p.Inherits i s → p.Inherits i t →
    (s.qualifiedText = t.qualifiedText ↔ (s.substitute f).qualifiedText = (t.substitute f).qualifiedText)

/-- Where texts agree, an interface is found among visited ones before exactly if it is found afterwards. -/
theorem TextsAgree.mem_texts_map (h : p.TextsAgree f i) {seen : List TypeRef} (hr : p.Inherits i r)
    (hseen : ∀ s ∈ seen, p.Inherits i s) :
    (r.substitute f).qualifiedText ∈ texts (seen.map (TypeRef.substitute f)) ↔ r.qualifiedText ∈ texts seen := by
  simp only [texts, List.mem_map, exists_exists_and_eq_and]
  exact exists_congr fun s => and_congr_right fun hs => (h s r (hseen s hs) hr).symm

/-- **A search visits the same interfaces, whether the arguments are there from the start or are filled in
afterwards.** -/
theorem visit_substitute (hopen : p.SparesOpen f i) (hbases : p.SparesBases f i) (htexts : p.TextsAgree f i) :
    ∀ {depth : Nat} {r : TypeRef} {seen : List TypeRef}, ¬r.IsReplaced f → (p.isInterface r → p.Inherits i r) →
      (∀ s ∈ seen, p.Inherits i s) → p.visit depth (r.substitute f) (seen.map (TypeRef.substitute f)) =
        (p.visit depth r seen).map (List.map (TypeRef.substitute f))
  | 0, _, _, _, _, _ => rfl
  | depth + 1, r, seen, hkept, hr, hseen => by
    by_cases hi : p.isInterface r
    · have hir := hr hi
      by_cases hfresh : r.qualifiedText ∈ texts seen
      · have hold := (htexts.mem_texts_map hir hseen).mpr hfresh
        rw [visit, visit, if_neg fun h => h.2 hold, if_neg fun h => h.2 hfresh, Option.map_some]
      · have hfresh' := (htexts.mem_texts_map hir hseen).not.mpr hfresh
        rw [visit, visit, if_pos ⟨(isInterface_substitute hkept).mpr hi, hfresh'⟩, if_pos ⟨hi, hfresh⟩,
          bases_substitute hi (hopen r hir), List.foldlM_map]
        -- along the fold everything that was seen is inherited from
        have hstart : ∀ s ∈ seen ++ [r], p.Inherits i s := by
          rw [List.forall_mem_append, List.forall_mem_singleton]
          exact ⟨hseen, hir⟩
        have hfold := foldlM_view_of (P := fun seen => ∀ s ∈ seen, p.Inherits i s) (p.bases r) (seen ++ [r]) hstart
          (f := fun seen b => p.visit depth (b.substitute f) seen) (g := fun seen b => p.visit depth b seen)
          (v := List.map (TypeRef.substitute f)) fun acc hacc b hb =>
            ⟨visit_substitute hopen hbases htexts (hbases r hir b hb) (fun hbi => hir.base hb hbi) hacc,
              fun acc' hvisit s hs => (visit_explores hvisit).inherits_of_mem_of
                (fun t ht => hir.trans (ht.head hi hb)) hacc hs⟩
        rw [List.map_append] at hfold
        exact hfold
    · have hi' := (isInterface_substitute hkept).not.mpr hi
      rw [visit, visit, if_neg fun h => hi' h.1, if_neg fun h => hi h.1, Option.map_some]

/-- **A search finds the same members, whether the arguments are there from the start or are filled in afterwards.** -/
theorem membersWithin?_substitute (hi : p.isInterface i) (hopen : p.SparesOpen f i) (hbases : p.SparesBases f i)
    (hown : ∀ s, p.Inherits i s → ∀ d ∈ p.declarationsOf s, ∀ n ∈ d.members, p.SparesOwn f d n s)
    (htexts : p.TextsAgree f i) (depth : Nat) : p.membersWithin? depth (i.substitute f) =
      (p.membersWithin? depth i).map (Except.map (List.map (InterfaceMember.substitute f))) := by
  have hkept : ¬i.IsReplaced f := not_isReplaced_of_named (kind_of_isInterface hi)
  have hvisit : p.visit depth (i.substitute f) [] = _ :=
    visit_substitute hopen hbases htexts hkept .self fun s hs => absurd hs List.not_mem_nil
  rw [membersWithin?_eq, membersWithin?_eq, isInterface_iff.mp hi, interfaceDeclarations_substitute hi]
  dsimp only
  rw [hvisit, Option.map_map, Option.map_map]
  refine Option.map_congr fun visited hvisited => ?_
  have hfound : ∀ s ∈ visited, p.declaredMembers (s.substitute f) =
      (p.declaredMembers s).map (InterfaceMember.substitute f) := fun s hs =>
    have his := (visit_explores (Option.mem_def.mp hvisited)).inherits_of_mem hs
    declaredMembers_substitute his.isInterface (hown s his)
  simp only [Function.comp_apply, Except.map, List.flatMap_map, List.map_flatMap, List.flatMap_congr hfound]

/-- **Two substitutions are one, and no node is substituted twice; the members of an interface are the same whether its
arguments are there from the start or are filled in afterwards, through any number of levels.** What an interface on the
way leaves open, and what a member declares itself, is not the interface's to fill in; a member is the same exactly if
nothing else is put for the latter. The list of members is the same where filling in neither makes two texts one nor one
text two; and where different interfaces have different texts on both sides, more members come only by bases that are
type parameters. -/
theorem substitutions_compose (f : String → Option TypeRef) :
    (∀ (g : String → Option TypeRef) (r : TypeRef),
      (r.substitute f).substitute g = r.substitute (TypeRef.andThen f g)) ∧
    (∀ (r : TypeRef) (place : List Nat) (v : TypeRef), (r.substitute f).at? place = some v →
      TypeRef.KeepsAt f r place v ∨ TypeRef.BringsAt f r place v) ∧
    ∀ (p : Program) (i : TypeRef), p.SparesOpen f i →
      (∀ s, p.Inherits i s → p.Inherits (i.substitute f) (s.substitute f) ∧ ∀ d n m, p.Writes d n m →
        m.declaringInterface = s → (p.Writes d n (m.substitute f) ↔ p.SparesOwn f d n s)) ∧
      ((∀ s, p.Inherits i s → ∀ d ∈ p.declarationsOf s, ∀ n ∈ d.members, p.SparesOwn f d n s) →
        (p.isInterface i → p.SparesBases f i → p.TextsAgree f i → ∀ depth, p.membersWithin? depth (i.substitute f) =
          (p.membersWithin? depth i).map (Except.map (List.map (InterfaceMember.substitute f)))) ∧
        (p.TextsDiffer i → p.TextsDiffer (i.substitute f) → ∀ depth depth' ms ms',
          p.membersWithin? depth i = some (.ok ms) → p.membersWithin? depth' (i.substitute f) = some (.ok ms') →
            ∀ m', m' ∈ ms' ↔ (∃ m ∈ ms, m.substitute f = m') ∨
              p.BringsIn f i m'.declaringInterface ∧ ∃ d n, p.Writes d n m')) := by
  refine ⟨TypeRef.substitute_substitute f, fun r place v => TypeRef.keepsAt_or_bringsAt place r, fun p i hopen =>
    ⟨fun s hs => ⟨hs.substitute hopen, ?_⟩, fun hown =>
      ⟨fun hi hbases htexts => membersWithin?_substitute hi hopen hbases hown htexts,
        fun hdiff hdiff' depth depth' ms ms' h h' m' => ?_⟩⟩⟩
  · rintro d n m w rfl
    exact w.substitute_iff
  · have hwrites : ∀ m, p.Inherits i m.declaringInterface → ∀ d n, p.Writes d n m → p.Writes d n (m.substitute f) :=
      fun m hm d n w => w.substitute_iff.mpr (hown _ hm d w.declares n w.mem)
    rw [mem_found_iff h' hdiff', inherits_substitute_iff (isInterface_of_found h) hopen]
    constructor
    · rintro ⟨⟨s, hs, he⟩ | hbrings, d, n, w'⟩
      · have hsame : p.declarationsOf m'.declaringInterface = p.declarationsOf s := by
          rw [← he, declarationsOf_substitute (not_isReplaced_of_named (kind_of_isInterface hs.isInterface))]
        have w : p.Writes d n (p.memberOf (p.declarationsOf s) s d n) := ⟨hsame ▸ w'.declares, w'.mem, rfl⟩
        refine .inl ⟨_, (mem_found_iff h hdiff).mpr ⟨hs, d, n, w⟩, ?_⟩
        have hfilled := (hwrites _ hs d n w).eq
        rw [hfilled, w'.eq, ← he]
        rfl
      · exact .inr ⟨hbrings, d, n, w'⟩
    · rintro (⟨m, hm, rfl⟩ | ⟨hbrings, hw⟩)
      · obtain ⟨hs, d, n, w⟩ := (mem_found_iff h hdiff).mp hm
        exact ⟨.inl ⟨_, hs, rfl⟩, d, n, hwrites m hs d n w⟩
      · exact ⟨.inr hbrings, hw⟩

/-- Three levels of generic interfaces: `ITop<V> : IMid<V?>`, `IMid<U> : IBase<List<U>>`, and `IBase<T>` with a method
`Task<T> Get<K>(K key, T other)`. -/
def threeLevels : Program := .ofModel (.ofList [
  { interfaceNamed none "IBase" with
    typeParameters := ["T"]
    members := [⟨"Get", .method, false, ["K"], some (.named "Task" [.named "T" [] ""] ""),
      [⟨"key", .named "K" [] "", none, none⟩, ⟨"other", .named "T" [] "", none, none⟩]⟩] },
  { interfaceNamed none "IMid" with
    typeParameters := ["U"]
    baseTypes := [.named "IBase" [.named "List" [.named "U" [] ""] ""] ""] },
  { interfaceNamed none "ITop" with
    typeParameters := ["V"]
    baseTypes := [.named "IMid" [.named "V" [] "?"] ""] }]) []

/-- A list of a type. -/
def listOf (a : TypeRef) : TypeRef := .named (some "System.Collections.Generic") "List" [a]

/-- The interfaces of the three levels for a type, the last one first. -/
def levelsFor (a : TypeRef) : List TypeRef :=
  [.named none "ITop" [a], .named none "IMid" [a.withSuffix "?"], .named none "IBase" [listOf (a.withSuffix "?")]]

/-- The method of the first level as the last one has it for a type. -/
def getOfLevels (a : TypeRef) : InterfaceMember :=
  ⟨"Get", .method, false, ["K"],
    some (.named (some "System.Threading.Tasks") "Task" [listOf (a.withSuffix "?")]),
    [⟨"key", .bare .typeParameter "K", none, none⟩, ⟨"other", listOf (a.withSuffix "?"), none, none⟩],
    .named none "IBase" [listOf (a.withSuffix "?")]⟩

/-- Lists of `X` for `X`. -/
def listsForX (name : String) : Option TypeRef :=
  if name = "X" then some (listOf (.bare .typeParameter "X")) else none

/-- The three levels for lists of `X`, whether `ITop` has them for its argument or they are put for its argument `X`. -/
theorem threeLevels_filled :
    threeLevels.membersWithin? 4 (.named none "ITop" [.bare .typeParameter "X"]) =
        some (.ok [getOfLevels (.bare .typeParameter "X")]) ∧
      threeLevels.membersWithin? 4 (.named none "ITop" [listOf (.bare .typeParameter "X")]) =
        some (.ok [(getOfLevels (.bare .typeParameter "X")).substitute listsForX]) ∧
      (getOfLevels (.bare .typeParameter "X")).substitute listsForX ∈
        [getOfLevels (listOf (.bare .typeParameter "X"))] := by
  have hx : threeLevels.membersWithin? 4 (.named none "ITop" [.bare .typeParameter "X"]) =
      some (.ok [getOfLevels (.bare .typeParameter "X")]) := rfl
  have hlist : threeLevels.membersWithin? 4
      ((TypeRef.named none "ITop" [.bare .typeParameter "X"]).substitute listsForX) =
        some (.ok [getOfLevels (listOf (.bare .typeParameter "X"))]) := rfl
  have hmem : ∀ a ∈ [TypeRef.bare .typeParameter "X", listOf (.bare .typeParameter "X")], ∀ s,
      threeLevels.Inherits (.named none "ITop" [a]) s → s ∈ levelsFor a := by
    intro a ha s hs
    have hclosed : ∀ a ∈ [TypeRef.bare .typeParameter "X", listOf (.bare .typeParameter "X")],
        ∀ s ∈ levelsFor a, ∀ t ∈ threeLevels.bases s, t ∈ levelsFor a := by decide +kernel
    exact hs.mem_of_closed List.mem_cons_self (hclosed a ha)
  have hdiffer : ∀ a ∈ [TypeRef.bare .typeParameter "X", listOf (.bare .typeParameter "X")],
      threeLevels.TextsDiffer (.named none "ITop" [a]) := by
    intro a ha s t hs ht
    have htexts : ∀ a ∈ [TypeRef.bare .typeParameter "X", listOf (.bare .typeParameter "X")],
        ∀ s ∈ levelsFor a, ∀ t ∈ levelsFor a, s.qualifiedText = t.qualifiedText → s = t := by decide +kernel
    exact htexts a ha s (hmem a ha s hs) t (hmem a ha t ht)
  have hagree : threeLevels.TextsAgree listsForX (.named none "ITop" [.bare .typeParameter "X"]) := by
    intro s t hs ht
    have htexts : ∀ s ∈ levelsFor (.bare .typeParameter "X"), ∀ t ∈ levelsFor (.bare .typeParameter "X"),
        (s.qualifiedText = t.qualifiedText ↔
          (s.substitute listsForX).qualifiedText = (t.substitute listsForX).qualifiedText) := by decide +kernel
    exact htexts s (hmem _ List.mem_cons_self s hs) t (hmem _ List.mem_cons_self t ht)
  have hspares := spares_of_foreign (p := threeLevels) (f := listsForX)
    (i := .named none "ITop" [.bare .typeParameter "X"]) (by decide +kernel)
  have hbases : threeLevels.SparesBases listsForX (.named none "ITop" [.bare .typeParameter "X"]) := by
    intro s hs t ht hreplaced
    have hkinds : ∀ s ∈ levelsFor (.bare .typeParameter "X"), ∀ t ∈ threeLevels.bases s, t.kind ≠ .typeParameter := by
      decide +kernel
    exact hkinds s (hmem _ List.mem_cons_self s hs) t ht hreplaced.1
  have hfilled := ((substitutions_compose listsForX).2.2 threeLevels _ hspares.1).2 fun s _ => hspares.2 s
  refine ⟨hx, ?_, ?_⟩
  · have hsame := hfilled.1 rfl hbases hagree 4
    rwa [hx] at hsame
  · exact (hfilled.2 (hdiffer _ List.mem_cons_self) (hdiffer _ (List.mem_cons_of_mem _ List.mem_cons_self)) 4 4 _ _ hx
      hlist _).mpr (.inl ⟨_, List.mem_cons_self, rfl⟩)

/-- `IRepository<T>` with a method `T Get()`, and `IBoth<A, B> : IRepository<A>, IRepository<B>`. -/
def bothRepositories : Program := .ofModel (.ofList [
  genericSource none "IRepository",
  { interfaceNamed none "IBoth" with
    typeParameters := ["A", "B"]
    baseTypes := [.named "IRepository" [.named "A" [] ""] "", .named "IRepository" [.named "B" [] ""] ""] }]) []

/-- Both repositories for two types. -/
def bothFor (a b : TypeRef) : TypeRef := .named none "IBoth" [a, b]

/-- Two types of one name, for the type parameters `A` and `B`. -/
def customersForParameters (name : String) : Option TypeRef :=
  [("A", TypeRef.named (some "Shop") "Customer" []), ("B", .named (some "Bank") "Customer" [])].lookup name

/-- **The members are not the same where filling in makes two texts one.** For `A` and `B` there are two methods; for two
types of one name, which are put for them, one of the two is missing. -/
theorem bothRepositories_lose_member :
    bothRepositories.membersWithin? 3 (bothFor (.bare .typeParameter "A") (.bare .typeParameter "B")) =
        some (.ok [getOf none "IRepository" (.bare .typeParameter "A"),
          getOf none "IRepository" (.bare .typeParameter "B")]) ∧
      (getOf none "IRepository" (.bare .typeParameter "B")).substitute customersForParameters =
        getOf none "IRepository" (.named (some "Bank") "Customer" []) ∧
      (bothFor (.bare .typeParameter "A") (.bare .typeParameter "B")).substitute customersForParameters =
        bothFor (.named (some "Shop") "Customer" []) (.named (some "Bank") "Customer" []) ∧
      bothRepositories.membersWithin? 3
          (bothFor (.named (some "Shop") "Customer" []) (.named (some "Bank") "Customer" [])) =
        some (.ok [getOf none "IRepository" (.named (some "Shop") "Customer" [])]) ∧
      getOf none "IRepository" (.named (some "Bank") "Customer" []) ∉
        [getOf none "IRepository" (.named (some "Shop") "Customer" [])] :=
  ⟨rfl, rfl, rfl, rfl, by decide⟩

end Program

end ContractStubs

import ContractStubs.Request.Basic
import Mathlib.Algebra.GroupWithZero.Nat
import Mathlib.Data.List.Nodup

/-!
# Requests are groups

Candidates of one qualified name make up one request: the first of them, and behind it in order what the others add
(`Provider.requests_eq_groups`). So the uses and the declarations of a request are those of its candidates, none left
out and none twice (`sum_groups`).
-/

namespace ContractStubs

namespace StubRequest

/-- What the candidates with one name make up. -/
def joinAll (q : StubRequest) (qs : List StubRequest) : StubRequest := qs.foldl merge q

variable {q r : StubRequest} {qs : List StubRequest}

theorem joinAll_snoc : q.joinAll (qs ++ [r]) = (q.joinAll qs).merge r := by
  rw [joinAll, List.foldl_append]
  rfl

theorem joinAll_eq : ∀ (qs : List StubRequest) (q : StubRequest), q.joinAll qs =
    ⟨{ q.target with declarations := (q :: qs).flatMap (·.target.declarations) }, (q :: qs).flatMap (·.uses)⟩
  | [], q => by simp [joinAll]
  | r :: qs, q => by
    have hih := joinAll_eq qs (q.merge r)
    simpa [joinAll, merge] using hih

theorem qualifiedName_joinAll : (q.joinAll qs).qualifiedName = q.qualifiedName := by
  rw [joinAll_eq]
  rfl

end StubRequest

/-! ## Lists without repeats -/

section FirstOnly

variable {α : Type} [DecidableEq α] {a : α}

theorem mem_firstOnly : ∀ {as seen : List α}, a ∈ firstOnly seen as ↔ a ∈ as ∧ a ∉ seen
  | [], _ => by simp [firstOnly]
  | c :: as, seen => by
    rw [firstOnly]
    split
    next hc =>
      rw [mem_firstOnly, List.mem_cons]
      exact ⟨fun h => ⟨.inr h.1, h.2⟩, fun h => ⟨h.1.resolve_left fun he => h.2 (he ▸ hc), h.2⟩⟩
    next hc =>
      rw [List.mem_cons, mem_firstOnly, List.mem_cons, List.mem_cons, not_or]
      by_cases he : a = c
      · simp [he, hc]
      · simp [he]

theorem nodup_firstOnly : ∀ {as seen : List α}, (firstOnly seen as).Nodup
  | [], _ => List.nodup_nil
  | c :: as, seen => by
    rw [firstOnly]
    split
    · exact nodup_firstOnly
    · refine List.nodup_cons.mpr ⟨fun hc => ?_, nodup_firstOnly⟩
      exact (mem_firstOnly.mp hc).2 List.mem_cons_self

theorem firstOnly_snoc : ∀ {as seen : List α}, firstOnly seen (as ++ [a]) =
    if a ∈ as ∨ a ∈ seen then firstOnly seen as else firstOnly seen as ++ [a]
  | [], seen => by simp [firstOnly]
  | c :: as, seen => by
    rw [List.cons_append, firstOnly, firstOnly, firstOnly_snoc, firstOnly_snoc]
    by_cases hc : c ∈ seen
    · by_cases he : a = c <;> simp_all
    · by_cases he : a = c
      · simp [he, hc]
      · simp only [hc, if_false, List.mem_cons, he, false_or]
        split <;> simp

end FirstOnly

/-! ## Groups -/

/-- The request that the candidates with a name make up. -/
def groupOf? (qs : List StubRequest) (name : String) : Option StubRequest :=
  match qs.filter fun q => q.qualifiedName = name with
  | [] => none
  | q :: rest => some (q.joinAll rest)

/-- The requests that some candidates make up, in the order in which the names come first. -/
def groups (qs : List StubRequest) : List StubRequest :=
  (firstOnly [] (qs.map (·.qualifiedName))).filterMap (groupOf? qs)

variable {q r : StubRequest} {qs : List StubRequest} {name : String}

theorem groupOf?_eq_some : groupOf? qs name = some r ↔
    ∃ q rest, (qs.filter fun q => q.qualifiedName = name) = q :: rest ∧ r = q.joinAll rest := by
  rw [groupOf?]
  split
  next h => simp [h]
  next q rest h =>
    rw [h]
    exact ⟨fun he => ⟨q, rest, rfl, (Option.some.inj he).symm⟩, fun ⟨_, _, he, hr⟩ => by cases he; rw [hr]⟩

theorem qualifiedName_of_groupOf? (h : groupOf? qs name = some r) : r.qualifiedName = name := by
  obtain ⟨q, rest, hfilter, rfl⟩ := groupOf?_eq_some.mp h
  have hq : q ∈ qs.filter fun q => q.qualifiedName = name := hfilter ▸ List.mem_cons_self
  rw [StubRequest.qualifiedName_joinAll]
  simpa using (List.mem_filter.mp hq).2

theorem exists_groupOf? (h : name ∈ qs.map (·.qualifiedName)) : ∃ r, groupOf? qs name = some r := by
  obtain ⟨q, hq, he⟩ := List.mem_map.mp h
  have hmem : q ∈ qs.filter fun q => q.qualifiedName = name := List.mem_filter.mpr ⟨hq, by simpa using he⟩
  obtain ⟨first, rest, hfilter⟩ := List.exists_cons_of_ne_nil (List.ne_nil_of_mem hmem)
  exact ⟨_, groupOf?_eq_some.mpr ⟨first, rest, hfilter, rfl⟩⟩

/-- One more candidate joins its group and leaves the others alone. -/
theorem groupOf?_snoc_of_ne (h : q.qualifiedName ≠ name) : groupOf? (qs ++ [q]) name = groupOf? qs name := by
  rw [groupOf?, List.filter_append]
  simp [h, groupOf?]

theorem groupOf?_snoc_self : groupOf? (qs ++ [q]) q.qualifiedName =
    some (((groupOf? qs q.qualifiedName).map fun r => r.merge q).getD q) := by
  rw [groupOf?, groupOf?, List.filter_append]
  cases h : qs.filter fun s => s.qualifiedName = q.qualifiedName with
  | nil => simp [StubRequest.joinAll]
  | cons first rest => simp [StubRequest.joinAll_snoc]

theorem addRequest_filterMap : ∀ {names : List String}, names.Nodup → (∀ n ∈ names, ∃ r, groupOf? qs n = some r) →
    addRequest q (names.filterMap (groupOf? qs)) =
      if q.qualifiedName ∈ names then names.filterMap (groupOf? (qs ++ [q]))
      else names.filterMap (groupOf? (qs ++ [q])) ++ [q]
  | [], _, _ => rfl
  | n :: names, hd, hall => by
    obtain ⟨hn, hd⟩ := List.nodup_cons.mp hd
    obtain ⟨r, hr⟩ := hall n List.mem_cons_self
    have hname : r.qualifiedName = n := qualifiedName_of_groupOf? hr
    rw [List.filterMap_cons_some hr, addRequest]
    by_cases he : n = q.qualifiedName
    · have hself : groupOf? (qs ++ [q]) n = some (r.merge q) := by
        rw [he, groupOf?_snoc_self, ← he, hr]
        rfl
      have hrest : names.filterMap (groupOf? (qs ++ [q])) = names.filterMap (groupOf? qs) :=
        List.filterMap_congr fun m hm => groupOf?_snoc_of_ne fun hq => hn (he.trans hq ▸ hm)
      rw [if_pos (hname.trans he), if_pos (by simp [he]), List.filterMap_cons_some hself, hrest]
    · have hother : groupOf? (qs ++ [q]) n = some r := by rw [groupOf?_snoc_of_ne fun h => he h.symm, hr]
      rw [if_neg fun h => he (hname.symm.trans h), addRequest_filterMap hd fun m hm => hall m (List.mem_cons_of_mem _ hm),
        List.filterMap_cons_some hother]
      have hmem : q.qualifiedName ∈ n :: names ↔ q.qualifiedName ∈ names := by
        rw [List.mem_cons, or_iff_right fun h => he h.symm]
      by_cases hq : q.qualifiedName ∈ names
      · rw [if_pos hq, if_pos (hmem.mpr hq)]
      · rw [if_neg hq, if_neg fun h => hq (hmem.mp h), List.cons_append]

theorem addRequest_groups : addRequest q (groups qs) = groups (qs ++ [q]) := by
  have hall : ∀ n ∈ firstOnly [] (qs.map (·.qualifiedName)), ∃ r, groupOf? qs n = some r := fun n hn =>
    exists_groupOf? (mem_firstOnly.mp hn).1
  have hmem : q.qualifiedName ∈ firstOnly [] (qs.map (·.qualifiedName)) ↔
      q.qualifiedName ∈ qs.map (·.qualifiedName) ∨ q.qualifiedName ∈ ([] : List String) := by
    rw [mem_firstOnly]
    simp
  rw [groups, addRequest_filterMap nodup_firstOnly hall, groups, List.map_append, List.map_singleton, firstOnly_snoc]
  by_cases hq : q.qualifiedName ∈ firstOnly [] (qs.map (·.qualifiedName))
  · rw [if_pos hq, if_pos (hmem.mp hq)]
  · have hnone : groupOf? qs q.qualifiedName = none := by
      rw [groupOf?, List.filter_eq_nil_iff.mpr]
      intro s hs he
      exact hq (hmem.mpr (.inl (List.mem_map.mpr ⟨s, hs, by simpa using he⟩)))
    rw [if_neg hq, if_neg fun h => hq (hmem.mpr h), List.filterMap_append, List.filterMap_cons_some groupOf?_snoc_self,
      hnone]
    rfl

/-- **The requests are the groups of the candidates.** -/
theorem foldl_addRequest : ∀ (rest qs : List StubRequest),
    rest.foldl (fun rs r => addRequest r rs) (groups qs) = groups (qs ++ rest)
  | [], qs => by simp
  | q :: rest, qs => by
    rw [List.foldl_cons, addRequest_groups, foldl_addRequest rest (qs ++ [q]), List.append_assoc, List.singleton_append]

theorem Provider.requests_eq_groups (p : Provider) (marker : Marker) (ids : List Nat) :
    p.requests marker ids = groups (ids.filterMap (p.requestOf? marker)) := by
  have h := foldl_addRequest (ids.filterMap (p.requestOf? marker)) []
  rwa [List.nil_append] at h

/-- Requests are for different types. -/
theorem nodup_groups (qs : List StubRequest) : ((groups qs).map (·.qualifiedName)).Nodup := by
  rw [List.nodup_iff_pairwise_ne, List.pairwise_map, groups, List.pairwise_filterMap]
  refine (List.nodup_iff_pairwise_ne.mp nodup_firstOnly).imp fun hne r hr s hs => ?_
  rw [qualifiedName_of_groupOf? hr, qualifiedName_of_groupOf? hs]
  exact hne

/-- The requests come in the order in which their names come first. -/
theorem map_qualifiedName_groups (qs : List StubRequest) :
    (groups qs).map (·.qualifiedName) = firstOnly [] (qs.map (·.qualifiedName)) := by
  have hnames : ∀ names : List String, (∀ n ∈ names, ∃ r, groupOf? qs n = some r) →
      (names.filterMap (groupOf? qs)).map (·.qualifiedName) = names := by
    intro names hall
    induction names with
    | nil => rfl
    | cons n names ih =>
      obtain ⟨⟨r, hr⟩, hrest⟩ := List.forall_mem_cons.mp hall
      rw [List.filterMap_cons_some hr, List.map_cons, ih hrest, qualifiedName_of_groupOf? hr]
  exact hnames _ fun n hn => exists_groupOf? (mem_firstOnly.mp hn).1

/-- A request is the group of its name. -/
theorem mem_groups : r ∈ groups qs ↔ groupOf? qs r.qualifiedName = some r := by
  rw [groups, List.mem_filterMap]
  constructor
  · rintro ⟨name, -, h⟩
    rwa [qualifiedName_of_groupOf? h]
  · intro h
    obtain ⟨q, rest, hfilter, -⟩ := groupOf?_eq_some.mp h
    have hq : q ∈ qs.filter fun q => q.qualifiedName = r.qualifiedName := hfilter ▸ List.mem_cons_self
    obtain ⟨hmem, hname⟩ := List.mem_filter.mp hq
    exact ⟨r.qualifiedName, mem_firstOnly.mpr ⟨List.mem_map.mpr ⟨q, hmem, by simpa using hname⟩, by simp⟩, h⟩

/-- A group has the declarations and the uses of its candidates, in their order. -/
theorem of_mem_groups (h : r ∈ groups qs) :
    r.target.declarations = (qs.filter fun q => q.qualifiedName = r.qualifiedName).flatMap (·.target.declarations) ∧
      r.uses = (qs.filter fun q => q.qualifiedName = r.qualifiedName).flatMap (·.uses) := by
  obtain ⟨first, rest, hfilter, hjoin⟩ := groupOf?_eq_some.mp (mem_groups.mp h)
  rw [hfilter]
  rw [StubRequest.joinAll_eq] at hjoin
  constructor
  · exact congrArg (·.target.declarations) hjoin
  · exact congrArg StubRequest.uses hjoin

/-! ## Counting declarations -/

/-- The number of declarations that a request is made of. -/
def StubRequest.declarationCount (r : StubRequest) : Nat := r.target.declarations.length

theorem sum_addRequest (q : StubRequest) : ∀ rs : List StubRequest,
    ((addRequest q rs).map (·.declarationCount)).sum = (rs.map (·.declarationCount)).sum + q.declarationCount
  | [] => by simp [addRequest]
  | r :: rs => by
    rw [addRequest]
    split
    next =>
      have hmerge : (r.merge q).declarationCount = r.declarationCount + q.declarationCount := List.length_append
      rw [List.map_cons, List.map_cons, List.sum_cons, List.sum_cons, hmerge]
      omega
    next =>
      rw [List.map_cons, List.map_cons, List.sum_cons, List.sum_cons, sum_addRequest q rs]
      omega

/-- **No declaration is lost and none is counted twice when candidates are grouped.** -/
theorem sum_groups (qs : List StubRequest) :
    ((groups qs).map (·.declarationCount)).sum = (qs.map (·.declarationCount)).sum := by
  have hfold : ∀ rest rs : List StubRequest, ((rest.foldl (fun rs r => addRequest r rs) rs).map
      (·.declarationCount)).sum = (rs.map (·.declarationCount)).sum + (rest.map (·.declarationCount)).sum := by
    intro rest
    induction rest with
    | nil => intro rs; rfl
    | cons q rest ih =>
      intro rs
      rw [List.foldl_cons, ih, sum_addRequest, List.map_cons, List.sum_cons]
      omega
  have hgroups := foldl_addRequest qs []
  rw [List.nil_append] at hgroups
  rw [← hgroups, hfold]
  exact Nat.zero_add _

end ContractStubs

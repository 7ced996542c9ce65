import ContractStubs.Proofs.Declaration.Numbering
import ContractStubs.Stub.Fingerprint
import Mathlib.Data.List.Sort

/-!
# The declarations that a fingerprint reaches

The work on the stack of a fingerprint ends with a closed set (`reached_covers`) in which each declaration stands once
(`nodup_reached`). Declarations that are always put on the stack together are taken from it the last one first, each
behind those that follow it in the program (`descends_reached`); so the order in which they are reached tells nothing
but their order in the program.
-/

namespace ContractStubs

variable {ds : List Declaration} {fuel : Nat} {visited : List Nat} {stack : List Declaration}

/-! ## One step -/

/-- Either all on the stack was visited, or the first that was not comes next and its possible bases go on the stack. -/
theorem reached_cases (ds : List Declaration) (fuel : Nat) (visited : List Nat) (stack : List Declaration) :
    ((∀ d ∈ stack, d.id ∈ visited) ∧ reached ds (fuel + 1) visited stack = []) ∨
      ∃ before d after, stack = before ++ d :: after ∧ (∀ e ∈ before, e.id ∈ visited) ∧ d.id ∉ visited ∧
        reached ds (fuel + 1) visited stack = d :: reached ds fuel (d.id :: visited) (possibleBases ds d ++ after) := by
  have hstack := (List.takeWhile_append_dropWhile (p := fun d : Declaration => visited.contains d.id) (l := stack)).symm
  have hbefore : ∀ e ∈ stack.takeWhile fun d => visited.contains d.id, e.id ∈ visited := fun e he => by
    simpa using List.all_eq_true.mp List.all_takeWhile e he
  cases hdrop : stack.dropWhile fun d => visited.contains d.id with
  | nil =>
    rw [hdrop, List.append_nil] at hstack
    refine .inl ⟨fun d hd => hbefore d (hstack ▸ hd), ?_⟩
    rw [reached, hdrop]
  | cons d after =>
    refine .inr ⟨_, d, after, by rw [← hdrop]; exact hstack, hbefore, ?_, by rw [reached, hdrop]⟩
    have hhead := List.head?_dropWhile_not (fun d : Declaration => visited.contains d.id) stack
    rw [hdrop] at hhead
    simpa using hhead

/-- What is reached is on the stack or may be a base of something reached, and was not visited before. -/
theorem of_mem_reached : ∀ {fuel : Nat} {visited : List Nat} {stack : List Declaration} {d : Declaration},
    d ∈ reached ds fuel visited stack →
      d.id ∉ visited ∧ (d ∈ stack ∨ ∃ c ∈ reached ds fuel visited stack, d ∈ possibleBases ds c)
  | 0, _, _, _, h => by cases h
  | fuel + 1, visited, stack, d, h => by
    rcases reached_cases ds fuel visited stack with ⟨-, hnil⟩ | ⟨before, c, after, rfl, -, hc, hcons⟩
    · rw [hnil] at h
      cases h
    · rw [hcons] at h ⊢
      rcases List.mem_cons.mp h with rfl | h
      · exact ⟨hc, .inl (by simp)⟩
      · obtain ⟨hd, hfrom⟩ := of_mem_reached h
        refine ⟨fun hv => hd (List.mem_cons_of_mem _ hv), ?_⟩
        rcases hfrom with hstack | ⟨e, he, hbase⟩
        · rcases List.mem_append.mp hstack with hbase | hafter
          · exact .inr ⟨c, List.mem_cons_self, hbase⟩
          · exact .inl (by simp [hafter])
        · exact .inr ⟨e, List.mem_cons_of_mem _ he, hbase⟩

theorem mem_of_mem_possibleBases {d e : Declaration} (h : e ∈ possibleBases ds d) :
    e ∈ ds ∧ ∃ base ∈ d.baseTypes, e.isNamedBy base = true := by
  rw [possibleBases, List.mem_reverse, List.mem_flatMap] at h
  obtain ⟨base, hbase, he⟩ := h
  obtain ⟨hmem, hnamed⟩ := List.mem_filter.mp he
  exact ⟨hmem, base, hbase, hnamed⟩

theorem mem_possibleBases {d e : Declaration} {base : TypeExpr} (hbase : base ∈ d.baseTypes) (he : e ∈ ds)
    (hnamed : e.isNamedBy base = true) : e ∈ possibleBases ds d := by
  rw [possibleBases, List.mem_reverse, List.mem_flatMap]
  exact ⟨base, hbase, List.mem_filter.mpr ⟨he, hnamed⟩⟩

theorem mem_of_mem_reached (hstack : ∀ d ∈ stack, d ∈ ds) {d : Declaration} (h : d ∈ reached ds fuel visited stack) :
    d ∈ ds := by
  rcases (of_mem_reached h).2 with hd | ⟨c, -, hd⟩
  · exact hstack d hd
  · exact (mem_of_mem_possibleBases hd).1

/-- What holds of all on the stack, and of what the bases may be of a declaration of which it holds, holds of all that is
reached. -/
theorem reached_induct {P : Declaration → Prop} (hbases : ∀ c, P c → ∀ d ∈ possibleBases ds c, P d) :
    ∀ {fuel : Nat} {visited : List Nat} {stack : List Declaration}, (∀ d ∈ stack, P d) →
      ∀ d ∈ reached ds fuel visited stack, P d
  | 0, _, _, _, _, h => by cases h
  | fuel + 1, visited, stack, hstack, d, h => by
    rcases reached_cases ds fuel visited stack with ⟨-, hnil⟩ | ⟨before, c, after, rfl, -, -, hcons⟩
    · rw [hnil] at h
      cases h
    · rw [hcons] at h
      have hc : P c := hstack c (by simp)
      rcases List.mem_cons.mp h with rfl | h
      · exact hc
      · refine reached_induct hbases (fun e he => ?_) d h
        rcases List.mem_append.mp he with hbase | hafter
        · exact hbases c hc e hbase
        · exact hstack e (by simp [hafter])

/-- No id is reached twice. -/
theorem nodup_reached : ∀ {fuel : Nat} {visited : List Nat} {stack : List Declaration},
    ((reached ds fuel visited stack).map (·.id)).Nodup
  | 0, _, _ => List.nodup_nil
  | fuel + 1, visited, stack => by
    rcases reached_cases ds fuel visited stack with ⟨-, hnil⟩ | ⟨-, c, after, -, -, -, hcons⟩
    · rw [hnil]
      exact List.nodup_nil
    · rw [hcons, List.map_cons, List.nodup_cons]
      refine ⟨fun hmem => ?_, nodup_reached⟩
      obtain ⟨d, hd, hid⟩ := List.mem_map.mp hmem
      exact (of_mem_reached hd).1 (hid ▸ List.mem_cons_self)

/-! ## The end of the work -/

/-- The declarations that were not visited yet. -/
def unvisited (ds : List Declaration) (visited : List Nat) : List Declaration :=
  ds.filter fun d => !visited.contains d.id

theorem length_unvisited_cons {d : Declaration} (hd : d ∈ ds) (h : d.id ∉ visited) :
    (unvisited ds (d.id :: visited)).length < (unvisited ds visited).length := by
  have hfilter : unvisited ds (d.id :: visited) = (unvisited ds visited).filter fun e => e.id != d.id := by
    rw [unvisited, unvisited, List.filter_filter]
    refine List.filter_congr fun e _ => ?_
    by_cases he : e.id = d.id <;> simp [he, h]
  rw [hfilter, List.length_filter_lt_length_iff_exists]
  exact ⟨d, List.mem_filter.mpr ⟨hd, by simpa using h⟩, by simp⟩

/-- **With fuel for what was not visited the work ends**: all on the stack is reached, and so is every possible base of
what is reached, but for what was visited before. -/
theorem reached_covers (hds : ∀ d ∈ ds, ∀ e ∈ ds, d.id = e.id → d = e) :
    ∀ {fuel : Nat} {visited : List Nat} {stack : List Declaration}, (unvisited ds visited).length ≤ fuel →
      (∀ d ∈ stack, d ∈ ds) →
      (∀ d ∈ stack, d.id ∈ visited ∨ d ∈ reached ds fuel visited stack) ∧
        ∀ c ∈ reached ds fuel visited stack, ∀ d ∈ possibleBases ds c,
          d.id ∈ visited ∨ d ∈ reached ds fuel visited stack
  | 0, visited, stack, hfuel, hstack => by
    have hnone : unvisited ds visited = [] := List.length_eq_zero_iff.mp (Nat.le_zero.mp hfuel)
    refine ⟨fun d hd => .inl ?_, fun c hc => by cases hc⟩
    simpa using List.filter_eq_nil_iff.mp hnone d (hstack d hd)
  | fuel + 1, visited, stack, hfuel, hstack => by
    rcases reached_cases ds fuel visited stack with ⟨hall, hnil⟩ | ⟨before, c, after, rfl, hbefore, hc, hcons⟩
    · refine ⟨fun d hd => .inl (hall d hd), fun c hc => ?_⟩
      rw [hnil] at hc
      cases hc
    · have hmem : c ∈ ds := hstack c (by simp)
      have hless : (unvisited ds (c.id :: visited)).length ≤ fuel := by
        have := length_unvisited_cons hmem hc
        omega
      have hstack' : ∀ d ∈ possibleBases ds c ++ after, d ∈ ds := fun d hd => by
        rcases List.mem_append.mp hd with hd | hd
        · exact (mem_of_mem_possibleBases hd).1
        · exact hstack d (by simp [hd])
      obtain ⟨honStack, hclosed⟩ := reached_covers hds hless hstack'
      have hwiden : ∀ d ∈ ds,
          d.id ∈ c.id :: visited ∨ d ∈ reached ds fuel (c.id :: visited) (possibleBases ds c ++ after) →
          d.id ∈ visited ∨ d ∈ reached ds (fuel + 1) visited (before ++ c :: after) := fun d hd h => by
        rw [hcons, List.mem_cons]
        rcases h with h | h
        · rcases List.mem_cons.mp h with hid | hv
          · exact .inr (.inl (hds d hd c hmem hid))
          · exact .inl hv
        · exact .inr (.inr h)
      constructor
      · intro d hd
        rcases List.mem_append.mp hd with hd' | hd'
        · exact .inl (hbefore d hd')
        · rcases List.mem_cons.mp hd' with rfl | hafter
          · exact .inr (by rw [hcons]; exact List.mem_cons_self)
          · exact hwiden d (hstack d hd) (honStack d (List.mem_append_right _ hafter))
      · intro e he d hd
        have hdmem : d ∈ ds := (mem_of_mem_possibleBases hd).1
        rw [hcons] at he
        rcases List.mem_cons.mp he with rfl | he
        · exact hwiden d hdmem (honStack d (List.mem_append_left _ hd))
        · exact hwiden d hdmem (hclosed e he d hd)

/-! ## The order of the work -/

section Order

variable {k : Declaration → Bool}

/-- On a stack each declaration of a class stands behind those of the class that follow it in the program, but for
visited ones. -/
def Descends (ds : List Declaration) (k : Declaration → Bool) (visited : List Nat) (stack : List Declaration) : Prop :=
  ∀ before d after, stack = before ++ d :: after → k d = true → ∀ e ∈ ds, k e = true → d.id < e.id →
    e.id ∈ visited ∨ e ∈ before

theorem descends_nil : Descends ds k visited [] := by
  intro before d after h
  simp at h

theorem Descends.append {s t : List Declaration} (hs : Descends ds k visited s) (ht : Descends ds k visited t) :
    Descends ds k visited (s ++ t) := by
  intro before d after hsplit hd e he hke hlt
  rcases List.append_eq_append_iff.mp hsplit with ⟨middle, hbefore, ht'⟩ | ⟨middle, hs', hafter⟩
  · rcases ht middle d after ht' hd e he hke hlt with h | h
    · exact .inl h
    · exact .inr (by simp [hbefore, h])
  · cases middle with
    | nil =>
      rcases ht [] d after (by simpa using hafter.symm) hd e he hke hlt with h | h
      · exact .inl h
      · cases h
    | cons c middle =>
      obtain ⟨rfl, -⟩ := List.cons.inj hafter
      exact hs before d middle hs' hd e he hke hlt

/-- What is left of a stack behind visited declarations and one more that is visited now. -/
theorem Descends.behind {before after : List Declaration} {c : Declaration}
    (h : Descends ds k visited (before ++ c :: after)) (hbefore : ∀ e ∈ before, e.id ∈ visited) :
    Descends ds k (c.id :: visited) after := by
  intro front d rest hsplit hd e he hke hlt
  rcases h (before ++ c :: front) d rest (by simp [hsplit]) hd e he hke hlt with hv | hmem
  · exact .inl (List.mem_cons_of_mem _ hv)
  · rcases List.mem_append.mp hmem with hmem | hmem
    · exact .inl (List.mem_cons_of_mem _ (hbefore e hmem))
    · rcases List.mem_cons.mp hmem with rfl | hmem
      · exact .inl List.mem_cons_self
      · exact .inr hmem

/-- Declarations that are picked from the program all or none descend when the last one comes first. -/
theorem descends_reverse_filter (hds : ds.Pairwise fun d e => d.id < e.id) {f : Declaration → Bool}
    (hf : ∀ d ∈ ds, ∀ e ∈ ds, k d = true → k e = true → f d = true → f e = true) :
    Descends ds k visited (ds.filter f).reverse := by
  intro before d after hsplit hd e he hke hlt
  have hfilter : ds.filter f = after.reverse ++ d :: before.reverse := by
    rw [← List.reverse_reverse (ds.filter f), hsplit]
    simp
  have hsorted := hds.filter f
  rw [hfilter, List.pairwise_append] at hsorted
  have hdmem : d ∈ ds.filter f := by simp [hfilter]
  obtain ⟨hdds, hfd⟩ := List.mem_filter.mp hdmem
  have hemem : e ∈ ds.filter f := List.mem_filter.mpr ⟨he, hf d hdds e he hd hke hfd⟩
  rw [hfilter, List.mem_append, List.mem_cons] at hemem
  rcases hemem with hafter | rfl | hbefore
  · have := hsorted.2.2 e hafter d List.mem_cons_self
    omega
  · omega
  · exact .inr (List.mem_reverse.mp hbefore)

theorem descends_reverse_flatMap {α : Type} {f : α → List Declaration} : ∀ {as : List α},
    (∀ a ∈ as, Descends ds k visited (f a).reverse) → Descends ds k visited (as.flatMap f).reverse
  | [], _ => descends_nil
  | a :: as, h => by
    rw [List.flatMap_cons, List.reverse_append]
    obtain ⟨ha, has⟩ := List.forall_mem_cons.mp h
    exact (descends_reverse_flatMap has).append ha

/-- The declarations of a class may be bases of the same. -/
def IsUniform (ds : List Declaration) (k : Declaration → Bool) : Prop :=
  ∀ base : TypeExpr, ∀ d ∈ ds, ∀ e ∈ ds, k d = true → k e = true → d.isNamedBy base = true → e.isNamedBy base = true

theorem descends_reached (hds : ds.Pairwise fun d e => d.id < e.id) (hid : ∀ d ∈ ds, ∀ e ∈ ds, d.id = e.id → d = e)
    (hk : IsUniform ds k) : ∀ {fuel : Nat} {visited : List Nat} {stack : List Declaration}, (∀ d ∈ stack, d ∈ ds) →
      Descends ds k visited stack → Descends ds k visited (reached ds fuel visited stack)
  | 0, _, _, _, _ => descends_nil
  | fuel + 1, visited, stack, hstack, hdesc => by
    rcases reached_cases ds fuel visited stack with ⟨-, hnil⟩ | ⟨front, c, rest, rfl, hfront, -, hcons⟩
    · rw [hnil]
      exact descends_nil
    · have hc : c ∈ ds := hstack c (by simp)
      have hstack' : ∀ d ∈ possibleBases ds c ++ rest, d ∈ ds := fun d hd => by
        rcases List.mem_append.mp hd with hd | hd
        · exact (mem_of_mem_possibleBases hd).1
        · exact hstack d (by simp [hd])
      have hbases : Descends ds k (c.id :: visited) (possibleBases ds c) :=
        descends_reverse_flatMap fun base _ => descends_reverse_filter hds (hk base)
      have hrest : Descends ds k (c.id :: visited) (reached ds fuel (c.id :: visited) (possibleBases ds c ++ rest)) :=
        descends_reached hds hid hk hstack' (hbases.append (hdesc.behind hfront))
      rw [hcons]
      intro before d after hsplit hd e he hke hlt
      cases before with
      | nil =>
        obtain ⟨rfl, -⟩ := List.cons.inj hsplit
        rcases hdesc front c rest rfl hd e he hke hlt with hv | hmem
        · exact .inl hv
        · exact .inl (hfront e hmem)
      | cons b before =>
        obtain ⟨rfl, htail⟩ := List.cons.inj hsplit
        rcases hrest before d after htail hd e he hke hlt with hv | hmem
        · rcases List.mem_cons.mp hv with hcid | hv
          · exact .inr (hid e he c hc hcid ▸ List.mem_cons_self)
          · exact .inl hv
        · exact .inr (List.mem_cons_of_mem _ hmem)

/-- Of two declarations of a class on a stack without repeats, the one that comes first follows in the program. -/
theorem Descends.pairwise (h : Descends ds k [] stack) (hid : (stack.map (·.id)).Nodup) (hstack : ∀ d ∈ stack, d ∈ ds) :
    (stack.filter k).Pairwise fun d e => e.id < d.id := by
  have hne := List.pairwise_iff_getElem.mp (List.pairwise_map.mp hid)
  rw [List.pairwise_filter, List.pairwise_iff_getElem]
  intro i j hi hj hij hki hkj
  refine (Nat.lt_or_gt_of_ne (hne i j hi hj hij)).resolve_left fun hlt => ?_
  have hsplit : stack = stack.take i ++ stack[i] :: stack.drop (i + 1) := by simp
  rcases h _ _ _ hsplit hki stack[j] (hstack _ (List.getElem_mem hj)) hkj hlt with hv | hmem
  · cases hv
  · obtain ⟨l, hl, hle⟩ := List.mem_take_iff_getElem.mp hmem
    exact hne l j (by omega) hj (by omega) (congrArg Declaration.id hle)

/-- **A class of which all is reached is reached in the opposite order of the program.** -/
theorem filter_reached (hds : ds.Pairwise fun d e => d.id < e.id) (hid : ∀ d ∈ ds, ∀ e ∈ ds, d.id = e.id → d = e)
    (hk : IsUniform ds k) (hstack : ∀ d ∈ stack, d ∈ ds) (hdesc : Descends ds k [] stack)
    (hall : ∀ d ∈ ds, k d = true → d ∈ reached ds fuel [] stack) :
    (reached ds fuel [] stack).filter k = (ds.filter k).reverse := by
  have hfound : Descends ds k [] (reached ds fuel [] stack) := descends_reached hds hid hk hstack hdesc
  have hnodup : (reached ds fuel [] stack).Nodup := List.Nodup.of_map _ nodup_reached
  have hsorted := hfound.pairwise nodup_reached fun d => mem_of_mem_reached hstack
  have hexpected : (ds.filter k).reverse.Pairwise fun d e => e.id < d.id := List.pairwise_reverse.mpr (hds.filter k)
  have hperm : ((reached ds fuel [] stack).filter k).Perm (ds.filter k).reverse := by
    have hdsnodup : ds.Nodup := hds.imp fun {d e} (hlt : d.id < e.id) he => by subst he; exact Nat.lt_irrefl _ hlt
    rw [List.perm_ext_iff_of_nodup (hnodup.filter _) (List.nodup_reverse.mpr (hdsnodup.filter _))]
    intro d
    rw [List.mem_reverse, List.mem_filter, List.mem_filter]
    exact ⟨fun h => ⟨mem_of_mem_reached hstack h.1, h.2⟩, fun h => ⟨hall d h.1 h.2, h.2⟩⟩
  exact hperm.eq_of_pairwise (fun d e _ _ hde hed => absurd hde (Nat.lt_asymm hed)) hsorted hexpected

end Order

end ContractStubs

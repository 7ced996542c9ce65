import Mathlib.Data.List.Forall2
import Mathlib.Data.List.Nodup
import Mathlib.Data.List.Pairwise

/-!
# Lists

Facts about lists of anything that proofs about programs rest on: about lists without repeats, about what is found in
lists and in pairs of them, and about folds that may not come to an end.
-/

namespace ContractStubs

/-! ## Lists without repeats -/

section Distinct

variable {α : Type} [BEq α] [LawfulBEq α] {a : α}

/-- What is left of a list without repeats has none, whichever is done first. -/
theorem filter_eraseDups (f : α → Bool) : ∀ as : List α, (as.filter f).eraseDups = as.eraseDups.filter f
  | [] => rfl
  | a :: as => by
    have hshort : (as.filter fun b => !b == a).length ≤ as.length := List.length_filter_le _ _
    have ih := filter_eraseDups f (as.filter fun b => !b == a)
    rw [List.eraseDups_cons, List.filter_cons, List.filter_cons, ← ih]
    split
    · rw [List.eraseDups_cons, List.filter_filter, List.filter_filter]
      simp only [Bool.and_comm]
    · next ha =>
      -- What is like `a` is filtered out with it.
      congr 1
      rw [List.filter_filter]
      refine List.filter_congr fun b _ => ?_
      by_cases hb : b = a
      · subst hb
        simpa using ha
      · simp [hb]
termination_by as => as.length

theorem nodup_eraseDups : ∀ as : List α, as.eraseDups.Nodup
  | [] => List.nodup_nil
  | a :: as => by
    have hshort : (as.filter fun b => !b == a).length ≤ as.length := List.length_filter_le _ _
    rw [List.eraseDups_cons, List.nodup_cons]
    refine ⟨fun ha => ?_, nodup_eraseDups _⟩
    simpa using (List.mem_filter.mp (List.mem_eraseDups.mp ha)).2
termination_by as => as.length

/-- One place more is enough to fill the gap that an element leaves. -/
theorem take_filter_take_succ {as : List α} (h : as.Nodup) (a : α) (n : Nat) :
    ((as.take (n + 1)).filter (· != a)).take n = (as.filter (· != a)).take n := by
  induction as generalizing n with
  | nil => rfl
  | cons b as ih =>
    obtain ⟨hb, has⟩ := List.nodup_cons.mp h
    rw [List.take_succ_cons, List.filter_cons, List.filter_cons]
    by_cases hba : b = a
    · subst hba
      have hall : ∀ c ∈ as, (c != b) = true := fun c hc => bne_iff_ne.mpr fun he => hb (he ▸ hc)
      rw [if_neg (by simp), if_neg (by simp), List.filter_eq_self.mpr hall,
        List.filter_eq_self.mpr fun c hc => hall c (List.mem_of_mem_take hc), List.take_take, Nat.min_self]
    · rw [if_pos (by simpa using hba), if_pos (by simpa using hba)]
      cases n with
      | zero => rfl
      | succ n => rw [List.take_succ_cons, List.take_succ_cons, ih has]

/-- Where only so many are kept, a further one is put in front of those that were kept. -/
theorem take_eraseDups_cons (a : α) (as : List α) {n : Nat} (hn : 0 < n) :
    (a :: as).eraseDups.take n = (a :: (as.eraseDups.take n).filter (· != a)).take n := by
  obtain ⟨m, rfl⟩ : ∃ m, n = m + 1 := ⟨n - 1, by omega⟩
  rw [List.eraseDups_cons, filter_eraseDups, List.take_succ_cons, List.take_succ_cons,
    take_filter_take_succ (nodup_eraseDups as)]
  rfl

end Distinct

/-- What comes of different things is different exactly where no two of them have it in common. -/
theorem nodup_filterMap_iff {α β : Type} {f : α → Option β} {as : List α} (has : as.Nodup) :
    (as.filterMap f).Nodup ↔ ∀ a ∈ as, ∀ b ∈ as, ∀ c, f a = some c → f b = some c → a = b := by
  rw [List.nodup_iff_pairwise_ne, List.pairwise_filterMap]
  constructor
  · intro hpairs a ha b hb c hac hbc
    by_contra hne
    have hsymm : Std.Symm fun a b => ∀ c, f a = some c → ∀ d, f b = some d → c ≠ d :=
      ⟨fun a b hab c hc d hd he => hab d hd c hc he.symm⟩
    exact hpairs.forall ha hb hne c hac c hbc rfl
  · intro hall
    refine (List.nodup_iff_pairwise_ne.mp has).imp_of_mem fun ha hb hne c hac d hbd he => ?_
    exact hne (hall _ ha _ hb c hac (he ▸ hbd))

/-- So many members of a list are in another one as that has members, if it has no others. -/
theorem countP_mem_eq_length {α : Type} [DecidableEq α] {as bs : List α} (has : as.Nodup) (hbs : bs.Nodup)
    (hsub : ∀ b ∈ bs, b ∈ as) : as.countP (· ∈ bs) = bs.length := by
  have hperm : (as.filter (· ∈ bs)).Perm bs := by
    refine (List.perm_ext_iff_of_nodup (has.filter _) hbs).mpr fun a => ?_
    rw [List.mem_filter, decide_eq_true_eq, and_iff_right_of_imp (hsub a)]
  rw [List.countP_eq_length_filter, hperm.length_eq]

/-- Of lists with no two elements in common, each is found among all by what tells its elements apart. -/
theorem filter_flatMap_of_mem {α β : Type} [DecidableEq α] {f : α → List β} {key : β → α}
    (hkey : ∀ a, ∀ b ∈ f a, key b = a) : ∀ {as : List α} {a : α}, as.Nodup → a ∈ as →
      (as.flatMap f).filter (fun b => key b = a) = f a
  | [], _, _, ha => by cases ha
  | c :: cs, a, hd, ha => by
    obtain ⟨hc, hcs⟩ := List.nodup_cons.mp hd
    rw [List.flatMap_cons, List.filter_append]
    by_cases he : c = a
    · subst he
      have hrest : (cs.flatMap f).filter (fun b => key b = c) = [] := by
        rw [List.filter_eq_nil_iff]
        intro b hb hk
        obtain ⟨a', ha', hb'⟩ := List.mem_flatMap.mp hb
        have hk' : key b = c := by simpa using hk
        rw [hkey a' b hb'] at hk'
        exact hc (hk' ▸ ha')
      have hfirst : (f c).filter (fun b => key b = c) = f c := by
        rw [List.filter_eq_self]
        intro b hb
        simp [hkey c b hb]
      rw [hrest, hfirst, List.append_nil]
    · have hfirst : (f c).filter (fun b => key b = a) = [] := by
        rw [List.filter_eq_nil_iff]
        intro b hb
        simp [hkey c b hb, he]
      have ha' : a ∈ cs := (List.mem_cons.mp ha).resolve_left fun h => he h.symm
      rw [hfirst, List.nil_append]
      exact filter_flatMap_of_mem hkey hcs ha'

/-! ## What is found -/

section Found

variable {α : Type} {p q : α → Bool} {k : α}

/-- One that is not passed over is not found where another was. -/
theorem find?_eq_of_not_mem_takeWhile (hfound : ∀ x, q x = true ↔ p x = true ∨ x = k) :
    ∀ {xs : List α}, k ∉ xs.takeWhile (fun x => !p x) → xs.find? q = xs.find? p
  | [], _ => rfl
  | x :: xs, hk => by
    by_cases hx : p x = true
    · rw [List.find?_cons_of_pos hx, List.find?_cons_of_pos ((hfound x).mpr (.inl hx))]
    · rw [List.takeWhile_cons_of_pos (by simpa using hx), List.mem_cons, not_or] at hk
      have hx' : ¬q x = true := fun h => ((hfound x).mp h).elim hx fun he => hk.1 he.symm
      rw [List.find?_cons_of_neg hx, List.find?_cons_of_neg hx']
      exact find?_eq_of_not_mem_takeWhile hfound hk.2

/-- One that is passed over is found. -/
theorem find?_eq_of_mem_takeWhile (hfound : ∀ x, q x = true ↔ p x = true ∨ x = k) :
    ∀ {xs : List α}, k ∈ xs.takeWhile (fun x => !p x) → xs.find? q = some k
  | [], hk => nomatch hk
  | x :: xs, hk => by
    by_cases hx : p x = true
    · rw [List.takeWhile_cons_of_neg (by simpa using hx)] at hk
      cases hk
    · rw [List.takeWhile_cons_of_pos (by simpa using hx)] at hk
      by_cases he : x = k
      · rw [List.find?_cons_of_pos ((hfound x).mpr (.inr he)), he]
      · have hx' : ¬q x = true := fun h => ((hfound x).mp h).elim hx he
        rw [List.find?_cons_of_neg hx']
        exact find?_eq_of_mem_takeWhile hfound ((List.mem_cons.mp hk).resolve_left fun h => he h.symm)

end Found

/-- What is found under a name in pairs whose second parts were changed is what was found there, changed. -/
theorem lookup_map_snd {α β : Type} (g : α → β) (name : String) :
    ∀ pairs : List (String × α),
    (pairs.map (Prod.map id g)).lookup name = (pairs.lookup name).map g
  | [] => rfl
  | (key, a) :: pairs => by
    rw [List.map_cons, Prod.map_apply, List.lookup_cons, List.lookup_cons, id]
    split
    · rfl
    · exact lookup_map_snd g name pairs

/-! ## Pairs of lists -/

/-- A pair of lists of one length has in it what one of the lists has. -/
theorem exists_mem_zip_iff {α β : Type} {P : α → Prop} {Q : β → Prop} : ∀ {as : List α} {bs : List β},
    bs.length = as.length → ((∃ e ∈ as.zip bs, P e.1 ∨ Q e.2) ↔ (∃ a ∈ as, P a) ∨ ∃ b ∈ bs, Q b)
  | [], [], _ => by simp
  | a :: as, b :: bs, h => by
    rw [List.zip_cons_cons, List.exists_mem_cons_iff, List.exists_mem_cons_iff, List.exists_mem_cons_iff,
      exists_mem_zip_iff (by simpa using h)]
    exact or_or_or_comm

/-- What belongs to the same things belongs together. -/
theorem forall₂_common {α β γ : Type} {R : α → β → Prop} {S : α → γ → Prop} : ∀ {xs : List α} {ys : List β}
    {zs : List γ}, List.Forall₂ R xs ys → List.Forall₂ S xs zs → List.Forall₂ (fun y z => ∃ x, R x y ∧ S x z) ys zs
  | _, _, _, .nil, .nil => .nil
  | _, _, _, .cons hr hrs, .cons hs hss => .cons ⟨_, hr, hs⟩ (forall₂_common hrs hss)

/-! ## Folds -/

/-- A fold over views of states is the view of the fold. -/
theorem foldlM_view_of {α β γ : Type} {f : α → γ → Option α} {g : β → γ → Option β} {v : β → α} {P : β → Prop} :
    ∀ (cs : List γ) (b : β), P b →
      (∀ b, P b → ∀ c ∈ cs, f (v b) c = (g b c).map v ∧ ∀ b', g b c = some b' → P b') →
        cs.foldlM f (v b) = (cs.foldlM g b).map v
  | [], _, _, _ => rfl
  | c :: cs, b, hb, h => by
    obtain ⟨hstep, hnext⟩ := h b hb c List.mem_cons_self
    rw [List.foldlM_cons, List.foldlM_cons, hstep]
    cases hg : g b c with
    | none => rfl
    | some b' => exact foldlM_view_of cs b' (hnext b' hg) fun b hb c hc => h b hb c (List.mem_cons_of_mem _ hc)

theorem foldlM_view {α β γ : Type} {f : α → γ → Option α} {g : β → γ → Option β} {v : β → α} (cs : List γ) (b : β)
    (h : ∀ b, ∀ c ∈ cs, f (v b) c = (g b c).map v) : cs.foldlM f (v b) = (cs.foldlM g b).map v :=
  foldlM_view_of cs b trivial fun b _ c hc => ⟨h b c hc, fun _ _ => trivial⟩

section Folds

variable {α β : Type} {f g : β → α → Option β} {k : α → Bool}

/-- A fold whose steps at some elements change nothing can do without them. -/
theorem foldlM_filter_of_some : ∀ {as : List α} {b c : β},
    (∀ a ∈ as, k a = false → ∀ b b', f b a = some b' → b' = b) → as.foldlM f b = some c →
      (as.filter k).foldlM f b = some c
  | [], _, _, _, h => h
  | a :: as, b, c, hskip, h => by
    rw [List.foldlM_cons] at h
    obtain ⟨b', hb, hc⟩ := Option.bind_eq_some_iff.mp h
    obtain ⟨ha, has⟩ := List.forall_mem_cons.mp hskip
    cases hk : k a with
    | true =>
      rw [List.filter_cons_of_pos hk, List.foldlM_cons, hb]
      exact foldlM_filter_of_some has hc
    | false =>
      rw [List.filter_cons_of_neg (by simp [hk])]
      obtain rfl := ha hk b b' hb
      exact foldlM_filter_of_some has hc

/-- A fold can take in elements at which its steps change nothing. -/
theorem foldlM_of_filter : ∀ {as : List α} {b c : β}, (∀ a ∈ as, k a = false → ∀ b, f b a = some b) →
    (as.filter k).foldlM f b = some c → as.foldlM f b = some c
  | [], _, _, _, h => h
  | a :: as, b, c, hskip, h => by
    obtain ⟨ha, has⟩ := List.forall_mem_cons.mp hskip
    rw [List.foldlM_cons]
    cases hk : k a with
    | true =>
      rw [List.filter_cons_of_pos hk, List.foldlM_cons] at h
      obtain ⟨b', hb, hc⟩ := Option.bind_eq_some_iff.mp h
      rw [hb]
      exact foldlM_of_filter has hc
    | false =>
      rw [List.filter_cons_of_neg (by simp [hk])] at h
      rw [ha hk b]
      exact foldlM_of_filter has h

/-- A fold whose steps come to an end can be made with other steps that come to the same. -/
theorem foldlM_imp : ∀ {as : List α} {b c : β}, (∀ a ∈ as, ∀ b b', f b a = some b' → g b a = some b') →
    as.foldlM f b = some c → as.foldlM g b = some c
  | [], _, _, _, h => h
  | a :: as, b, c, hstep, h => by
    rw [List.foldlM_cons] at h ⊢
    obtain ⟨b', hb, hc⟩ := Option.bind_eq_some_iff.mp h
    obtain ⟨ha, has⟩ := List.forall_mem_cons.mp hstep
    rw [ha b b' hb]
    exact foldlM_imp has hc

end Folds

end ContractStubs

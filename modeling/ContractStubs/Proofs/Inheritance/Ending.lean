import ContractStubs.Proofs.Inheritance.Failing
import ContractStubs.Proofs.Inheritance.Layers
import ContractStubs.Proofs.Samples
import Mathlib.Data.Finset.Card

/-!
# When the search for members ends

* The search ends where the interfaces that are inherited from have finitely many texts (`ends_of_finite_texts`): each
  visit uses up one of them.
* Where no two of them have one text, it ends only there (`finite_of_ends`).
* In layered programs it always ends (`Layered.finite`); `growing` is a program in which it does not, since the base of
  `I<T>` is `I<I<T>>`.
* A search that ends within a depth ends with the same outcome within a greater one (`membersWithin?_mono`). One that does
  not end is told from all others (`members_eq_unfinished_iff`).
-/

namespace ContractStubs

namespace Program

variable {p : Program}

/-- A search from roots ends, if the search from each root ends whatever else was seen before. -/
theorem foldlM_visit_isSome {depth : Nat} {seen : List TypeRef} :
    ∀ {roots acc : List TypeRef}, texts seen ⊆ texts acc →
      (∀ r ∈ roots, ∀ acc, texts seen ⊆ texts acc → (p.visit depth r acc).isSome) →
      (roots.foldlM (fun acc r => p.visit depth r acc) acc).isSome
  | [], _, _, _ => rfl
  | r :: roots, acc, hacc, h => by
    obtain ⟨acc₁, h₁⟩ := Option.isSome_iff_exists.mp (h r List.mem_cons_self acc hacc)
    rw [List.foldlM_cons, h₁]
    exact foldlM_visit_isSome (List.Subset.trans hacc (visit_explores h₁).texts_subset)
      fun q hq => h q (List.mem_cons_of_mem _ hq)

/-- A search ends within as many steps as there are texts that it may still visit. -/
theorem visit_isSome {stock : Finset String} : ∀ {depth : Nat} {r : TypeRef} {seen : List TypeRef},
    (∀ s, p.Inherits r s → s.qualifiedText ∈ stock) → (stock \ (texts seen).toFinset).card < depth →
      (p.visit depth r seen).isSome
  | 0, _, _, _, h => absurd h (Nat.not_lt_zero _)
  | depth + 1, r, seen, hstock, hcard => by
    rw [visit]
    split
    · rename_i hr
      obtain ⟨hi, hfresh⟩ := hr
      refine foldlM_visit_isSome (List.Subset.refl (texts (seen ++ [r]))) fun b hb acc hacc => ?_
      refine visit_isSome (fun s hs => hstock s (hs.head hi hb)) (Nat.lt_of_lt_of_le (Finset.card_lt_card ?_)
        (Nat.le_of_lt_succ hcard))
      -- the text of `r` was still to be visited, and no longer is
      refine Finset.ssubset_iff_subset_ne.mpr ⟨fun x hx => ?_, fun he => ?_⟩
      · simp only [Finset.mem_sdiff, List.mem_toFinset] at hx ⊢
        exact ⟨hx.1, fun hs => hx.2 (hacc (by simp [texts] at hs ⊢; exact .inl hs))⟩
      · have hmem : r.qualifiedText ∈ stock \ (texts seen).toFinset := by
          simpa [hfresh] using hstock r (.self hi)
        rw [← he] at hmem
        simp only [Finset.mem_sdiff, List.mem_toFinset] at hmem
        exact hmem.2 (hacc (by simp [texts]))
    · rfl

/-- Where finitely many texts can be visited the search ends. -/
theorem ends_of_finite_texts {r : TypeRef} (h : (TypeRef.qualifiedText '' {s | p.Inherits r s}).Finite) : p.Ends r := by
  by_cases hi : p.isInterface r
  · have hstock : ∀ s, p.Inherits r s → s.qualifiedText ∈ h.toFinset := fun s hs =>
      h.mem_toFinset.mpr ⟨s, hs, rfl⟩
    have hvisit : (p.visit _ r []).isSome := visit_isSome hstock (Nat.lt_succ_self _)
    obtain ⟨seen, hseen⟩ := Option.isSome_iff_exists.mp hvisit
    exact (ends_iff hi).mpr ⟨_, seen, hseen⟩
  · exact ends_of_not_isInterface hi

/-- Where texts differ, a search that ends has visited all of the finitely many interfaces. -/
theorem finite_of_ends {r : TypeRef} (hdiff : p.TextsDiffer r) (h : p.Ends r) : {s | p.Inherits r s}.Finite := by
  by_cases hi : p.isInterface r
  · obtain ⟨depth, seen, hseen⟩ := (ends_iff hi).mp h
    exact (List.finite_toSet seen).subset fun s hs => (visit_explores hseen).mem_of_textsDiffer hdiff hs
  · refine Set.finite_empty.subset fun s hs => ?_
    obtain rfl | ⟨b, hb, _⟩ := hs.cases_head
    · exact hi hs.isInterface
    · unfold bases at hb
      split at hb
      · rename_i hd
        exact hi (by rw [isInterface, hd]; rfl)
      · cases hb

/-- **The search ends where finitely many texts can be visited; where texts differ, it ends there only; in a layered
program it always ends.** -/
theorem search_ends_iff (p : Program) (r : TypeRef) :
    ((TypeRef.qualifiedText '' {s | p.Inherits r s}).Finite → p.Ends r) ∧
      (p.TextsDiffer r → (p.Ends r ↔ {s | p.Inherits r s}.Finite)) ∧
      ∀ rank, p.Layered rank → p.Ends r :=
  ⟨ends_of_finite_texts, fun hdiff => ⟨finite_of_ends hdiff, fun h => ends_of_finite_texts (h.image _)⟩,
    fun _ hp => ends_of_finite_texts ((hp.finite r).image _)⟩

/-- Interfaces that inherit from themselves, from one another, and from a wrapped pair of their parameters. -/
def exchange : Program := .ofModel (.ofList [
  { interfaceNamed none "IBag" with
    typeParameters := ["T"]
    baseTypes := [.named "IBag" [.named "T" [] ""] "", .named "IEmpty" [] ""] },
  { interfaceNamed none "IEmpty" with baseTypes := [.named "IBag" [.named "IEmpty" [] ""] ""] },
  { interfaceNamed none "IExchange" with
    typeParameters := ["A", "B"]
    baseTypes := [.named "IExchange" [.named "B" [] "", .named "A" [] ""] "",
      .named "IBag" [.named "Pair" [.named "A" [] "", .named "B" [] ""] ""] ""] }]) []

/-- The layer of exchanges is above that of bags. -/
def exchangeRank (key : DeclarationKey) : Nat := if key.nestedName = "IExchange" then 1 else 0

theorem exchange_ends : exchange.Layered exchangeRank ∧
    exchange.Ends (.named none "IExchange" [.bare .keyword "int", .bare .keyword "string"]) :=
  ⟨by decide, (search_ends_iff exchange _).2.2 exchangeRank (by decide)⟩

/-! ## Searches of different depths -/

/-- A search that ends visits the same within a greater depth. -/
theorem visit_mono : ∀ {depth depth' : Nat} {r : TypeRef} {seen seen' : List TypeRef}, depth ≤ depth' →
    p.visit depth r seen = some seen' → p.visit depth' r seen = some seen'
  | 0, _, _, _, _, _, h => by cases h
  | depth + 1, 0, _, _, _, hle, _ => absurd hle (Nat.not_succ_le_zero depth)
  | depth + 1, depth' + 1, r, seen, seen', hle, h => by
    rw [visit] at h ⊢
    split
    next hr =>
      rw [if_pos hr] at h
      have hstep : ∀ (bs : List TypeRef) (acc : List TypeRef),
          bs.foldlM (fun seen base => p.visit depth base seen) acc = some seen' →
            bs.foldlM (fun seen base => p.visit depth' base seen) acc = some seen' := by
        intro bs
        induction bs with
        | nil => exact fun _ h => h
        | cons b bs ih =>
          intro acc h
          rw [List.foldlM_cons] at h ⊢
          obtain ⟨acc₁, h₁, h₂⟩ := Option.bind_eq_some_iff.mp h
          exact Option.bind_eq_some_iff.mpr ⟨acc₁, visit_mono (Nat.le_of_succ_le_succ hle) h₁, ih acc₁ h₂⟩
      exact hstep _ _ h
    next hr => rwa [if_neg hr] at h

/-- **A search that ends has the same outcome within a greater depth.** -/
theorem membersWithin?_mono {depth depth' : Nat} {r : TypeRef} {outcome : Except StubError (List InterfaceMember)}
    (hle : depth ≤ depth') (h : p.membersWithin? depth r = some outcome) :
    p.membersWithin? depth' r = some outcome := by
  rw [membersWithin?_eq] at h ⊢
  cases hd : p.interfaceDeclarations r with
  | error cause =>
    rw [hd] at h
    have hdepth : depth ≠ 0 := fun hzero => by simp [hzero] at h
    have hdepth' : depth' ≠ 0 := by omega
    simpa [hdepth, hdepth'] using h
  | ok ds =>
    rw [hd] at h
    obtain ⟨seen, hseen, houtcome⟩ := Option.map_eq_some_iff.mp h
    exact Option.map_eq_some_iff.mpr ⟨seen, visit_mono hle hseen, houtcome⟩

/-- **A search that did not end is told from all others**: no other one has its outcome. -/
theorem members_eq_unfinished_iff {depth : Nat} {r : TypeRef} :
    (p.provider depth).members r = .error (.unfinished r.toText) ↔ p.membersWithin? depth r = none := by
  cases hsearch : p.membersWithin? depth r with
  | none => simp [provider, hsearch]
  | some outcome =>
    refine iff_of_false (fun h => ?_) (by simp)
    have houtcome : outcome = .error (.unfinished r.toText) := by simpa [provider, hsearch] using h
    rw [membersWithin?_eq] at hsearch
    cases hd : p.interfaceDeclarations r with
    | ok ds =>
      rw [hd] at hsearch
      obtain ⟨seen, -, hseen⟩ := Option.map_eq_some_iff.mp hsearch
      cases hseen.trans houtcome
    | error cause =>
      rw [hd] at hsearch
      have hcause : cause = .unfinished r.toText := by
        by_cases hdepth : depth = 0 <;> simp [hdepth] at hsearch
        exact Except.error.inj (hsearch.trans houtcome)
      cases hcause ▸ interfaceDeclarations_eq_error.mp hd

/-! ## A search that never ends -/

/-- An interface whose base is the interface for itself. -/
def growing : Program := .ofModel (.ofList [
  { interfaceNamed none "I" with
    typeParameters := ["T"]
    baseTypes := [.named "I" [.named "I" [.named "T" [] ""] ""] ""] }]) []

/-- The interface for itself, so many times over. -/
def tower : Nat → TypeRef
  | 0 => .named none "I" [.bare .keyword "int"]
  | n + 1 => .named none "I" [tower n]

/-- In a program the interface `I` has itself for itself as its only base. -/
structure Grows (p : Program) : Prop where
  isInterface : ∀ a, p.isInterface (.named none "I" [a])
  bases : ∀ a, p.bases (.named none "I" [a]) =
    [.named none "I" [.named none "I" [{ a with suffix := a.suffix ++ "" }]]]

theorem grows_growing : growing.Grows := ⟨fun _ => rfl, fun _ => rfl⟩

theorem Grows.isInterface_tower (h : p.Grows) : ∀ n, p.isInterface (tower n)
  | 0 => h.isInterface _
  | _ + 1 => h.isInterface _

theorem Grows.bases_tower (h : p.Grows) : ∀ n, p.bases (tower n) = [tower (n + 1)]
  | 0 => h.bases _
  | n + 1 => by
    rw [tower, h.bases, String.append_empty, TypeRef.eta]
    rfl

theorem length_toText_tower : ∀ n, (tower n).toText.length = 3 * n + 6
  | 0 => rfl
  | n + 1 => by
    have h : (tower (n + 1)).toText = "I" ++ "<" ++ ", ".intercalate [(tower n).toText] ++ ">" ++ "" := rfl
    have hone : ", ".intercalate [(tower n).toText] = (tower n).toText := by simp
    rw [h, hone]
    simp only [String.length_append, length_toText_tower n]
    show 1 + 1 + (3 * n + 6) + 1 + 0 = 3 * (n + 1) + 6
    omega

theorem qualifiedText_tower : ∀ n, (tower n).qualifiedText = (tower n).toText
  | 0 => rfl
  | _ + 1 => rfl

/-- However deep the search goes, it comes from each interface to a higher one. -/
theorem Grows.visit_tower (hgrows : p.Grows) : ∀ (depth n : Nat) (seen : List TypeRef),
    (∀ m, n ≤ m → (tower m).qualifiedText ∉ texts seen) → p.visit depth (tower n) seen = none
  | 0, _, _, _ => rfl
  | depth + 1, n, seen, h => by
    rw [visit, if_pos ⟨hgrows.isInterface_tower n, h n (Nat.le_refl n)⟩, hgrows.bases_tower, List.foldlM_cons]
    rw [hgrows.visit_tower depth (n + 1) (seen ++ [tower n])]
    · rfl
    · intro m hm hmem
      rcases List.mem_append.mp (by simpa only [texts, List.map_append] using hmem) with hold | hnew
      · exact h m (by omega) hold
      · have htext : (tower m).qualifiedText = (tower n).qualifiedText := by simpa using hnew
        rw [qualifiedText_tower, qualifiedText_tower] at htext
        have hlen := congrArg String.length htext
        rw [length_toText_tower, length_toText_tower] at hlen
        omega

theorem Grows.not_ends (hgrows : p.Grows) : ¬p.Ends (tower 0) := by
  intro h
  obtain ⟨depth, seen, hseen⟩ := (ends_iff (hgrows.isInterface_tower 0)).mp h
  have hnone := hgrows.visit_tower depth 0 [] fun _ _ => List.not_mem_nil
  rw [hnone] at hseen
  cases hseen

/-- **A base over the type parameter of its own interface: the search never ends.** -/
theorem growing_never_ends : ¬growing.Ends (.named none "I" [.bare .keyword "int"]) := grows_growing.not_ends

end Program

end ContractStubs

import ContractStubs.Text.Blank
import ContractStubs.Text.Cut
import Mathlib.Data.List.DropRight

/-!
# Ends of a text

A text that starts with an opening is the opening and what follows it (`afterOpening?_eq_some_iff`). At the end of a
text nothing is cut off in front of what stays (`rdropWhile_append`), and from characters that start and end with others
than blanks only the blanks around them are cut off (`IsSolid.trimBlanks`).
-/

namespace ContractStubs

/-! ## Openings -/

section Openings

variable {opening : String}

theorem afterOpening?_eq_some_iff : ∀ {opening cs rest : List Char},
    afterOpening? opening cs = some rest ↔ cs = opening ++ rest
  | [], _, _ => Option.some_inj
  | _ :: _, [], _ => by simp [afterOpening?]
  | o :: opening, c :: cs, rest => by
    rw [afterOpening?, List.cons_append, List.cons.injEq]
    split
    next heq => rw [afterOpening?_eq_some_iff, and_iff_right heq.symm]
    next hne => exact iff_of_false nofun fun h => hne h.1.symm

theorem stripOpening?_append (opening : String) (cs : List Char) :
    stripOpening? opening (String.ofList (opening.toList ++ cs)) = some (String.ofList cs) := by
  rw [stripOpening?, String.toList_ofList, afterOpening?_eq_some_iff.mpr rfl, Option.map_some]

theorem stripOpening?_eq_none {cs : List Char} (h : ∀ rest, cs ≠ opening.toList ++ rest) :
    stripOpening? opening (String.ofList cs) = none := by
  rw [stripOpening?, String.toList_ofList, Option.map_eq_none_iff]
  exact Option.eq_none_iff_forall_ne_some.mpr fun rest hrest => h rest (afterOpening?_eq_some_iff.mp hrest)

end Openings

/-! ## Endings -/

section Endings

variable {p : Char → Bool} {cs : List Char}

/-- Where the last character in front stays, all of them do. -/
theorem rdropWhile_append (h : cs.rdropWhile p = cs) (ds : List Char) :
    (cs ++ ds).rdropWhile p = cs ++ ds.rdropWhile p := by
  rw [List.rdropWhile, List.reverse_append, List.dropWhile_append]
  split
  next hempty =>
    have hds : ds.rdropWhile p = [] := by rw [List.rdropWhile, List.isEmpty_iff.mp hempty, List.reverse_nil]
    rw [hds, List.append_nil]
    exact h
  next => rw [List.reverse_append, List.reverse_reverse, List.rdropWhile]

theorem rdropWhile_of_none (h : ∀ c ∈ cs, p c = false) : cs.rdropWhile p = cs :=
  List.rdropWhile_eq_self_iff.mpr fun hne => by simp [h _ (List.getLast_mem hne)]

end Endings

/-! ## Blanks at the ends -/

section Blanks

variable {before cs ds after : List Char}

theorem trimBlank_ofList (cs : List Char) : trimBlank (String.ofList cs) = String.ofList (trimBlanks cs) := by
  rw [trimBlank, String.toList_ofList]

/-- The characters start and end with others than blanks. -/
structure IsSolid (cs : List Char) : Prop where
  first : ∃ c rest, cs = c :: rest ∧ isBlank c = false
  last : ∃ front c, cs = front ++ [c] ∧ isBlank c = false

theorem isSolid_of_none (hne : cs ≠ []) (h : ∀ c ∈ cs, isBlank c = false) : IsSolid cs where
  first := by
    obtain ⟨c, rest, rfl⟩ := List.exists_cons_of_ne_nil hne
    exact ⟨c, rest, rfl, h c List.mem_cons_self⟩
  last := ⟨cs.dropLast, cs.getLast hne, (List.dropLast_append_getLast hne).symm, h _ (List.getLast_mem hne)⟩

theorem isSolid_of_all (hne : cs ≠ []) (h : cs.all (fun c => !isBlank c) = true) : IsSolid cs :=
  isSolid_of_none hne fun c hc => by simpa using List.all_eq_true.mp h c hc

theorem IsSolid.append (hcs : IsSolid cs) (hds : IsSolid ds) (between : List Char) :
    IsSolid (cs ++ (between ++ ds)) where
  first := by
    obtain ⟨c, rest, rfl, hc⟩ := hcs.first
    exact ⟨c, rest ++ (between ++ ds), rfl, hc⟩
  last := by
    obtain ⟨front, c, rfl, hc⟩ := hds.last
    exact ⟨cs ++ (between ++ front), c, by simp only [List.append_assoc], hc⟩

/-- The blanks around such characters are all that is cut off. -/
theorem IsSolid.trimBlanks (h : IsSolid cs) (hbefore : ∀ c ∈ before, isBlank c = true)
    (hafter : ∀ c ∈ after, isBlank c = true) : trimBlanks (before ++ cs ++ after) = cs := by
  obtain ⟨c, rest, hfirst, hc⟩ := h.first
  obtain ⟨front, d, hlast, hd⟩ := h.last
  have hleft : (before ++ cs ++ after).dropWhile isBlank = cs ++ after := by
    rw [List.append_assoc, List.dropWhile_append_of_pos hbefore, hfirst, List.cons_append,
      List.dropWhile_cons_of_neg (by simp [hc])]
  have hkept : cs.rdropWhile isBlank = cs := by
    rw [hlast, List.rdropWhile_concat_neg _ _ _ (by simp [hd])]
  have hright : (cs ++ after).rdropWhile isBlank = cs := by
    rw [rdropWhile_append hkept, (List.rdropWhile_eq_nil_iff (p := isBlank)).mpr hafter, List.append_nil]
  rw [ContractStubs.trimBlanks, hleft]
  exact hright

end Blanks

end ContractStubs

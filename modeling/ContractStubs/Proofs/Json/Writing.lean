import ContractStubs.Json.Printer
import Mathlib.Data.List.Infix

/-!
# The compact form tells documents apart

Documents of texts, truth values, arrays and objects (`Json.IsPlain`) are told apart by their compact form
(`Json.toCompact_inj`). The form is a prefix code: whatever follows it, it can be read off the front of a text. So are
the escapes of the characters of a text, none of which starts with the quotation mark that ends it. Nothing below the
blank is left in it (`Json.blank_le_of_mem_compactChars`).
-/

namespace ContractStubs

namespace Json

/-! ## Texts -/

/-- The characters that do not stand for themselves. -/
def escapedChars : List Char := ['\"', '\\'] ++ (List.range 32).map Char.ofNat

theorem not_lt_of_not_mem_escapedChars {c : Char} (h : c ∉ escapedChars) : ¬c.toNat < 0x20 := fun hlt =>
  h (List.mem_append_right _ (List.mem_map.mpr ⟨c.toNat, List.mem_range.mpr hlt, Char.ofNat_toNat c⟩))

theorem escapedChar_of_not_mem {c : Char} (h : c ∉ escapedChars) : escapedChar c = [c] := by
  have hlow := not_lt_of_not_mem_escapedChars h
  unfold escapedChar
  split
  all_goals first | exact absurd (by decide) h | skip
  rw [if_neg hlow]

theorem head_of_mem_escapedChars (c : Char) (hc : c ∈ escapedChars) : (escapedChar c).head? = some '\\' := by
  have hall : escapedChars.all (fun c => (escapedChar c).head? == some '\\') = true := by decide +kernel
  exact eq_of_beq (List.all_eq_true.mp hall c hc)

theorem eq_of_isPrefix_of_mem_escapedChars (c : Char) (hc : c ∈ escapedChars) (d : Char) (hd : d ∈ escapedChars)
    (h : (escapedChar c).isPrefixOf (escapedChar d) = true) : c = d := by
  have hall : escapedChars.all (fun c => escapedChars.all fun d =>
      !(escapedChar c).isPrefixOf (escapedChar d) || c == d) = true := by decide +kernel
  have hpair := List.all_eq_true.mp (List.all_eq_true.mp hall c hc) d hd
  rw [h] at hpair
  exact eq_of_beq hpair

/-- Escapes can be read off the front of a text. -/
theorem escapedChar_append_inj {c d : Char} {r s : List Char} (h : escapedChar c ++ r = escapedChar d ++ s) :
    c = d ∧ r = s := by
  by_cases hc : c ∈ escapedChars <;> by_cases hd : d ∈ escapedChars
  · have hpre : escapedChar c <+: escapedChar d ++ s := h ▸ List.prefix_append _ _
    have heq : c = d := by
      rcases List.prefix_or_prefix_of_prefix hpre (List.prefix_append _ _) with hcd | hdc
      · exact eq_of_isPrefix_of_mem_escapedChars c hc d hd (List.isPrefixOf_iff_prefix.mpr hcd)
      · exact (eq_of_isPrefix_of_mem_escapedChars d hd c hc (List.isPrefixOf_iff_prefix.mpr hdc)).symm
    subst heq
    exact ⟨rfl, List.append_cancel_left h⟩
  · have hhead := congrArg List.head? h
    rw [escapedChar_of_not_mem hd, List.head?_append, head_of_mem_escapedChars c hc] at hhead
    exact absurd (by cases hhead; decide) hd
  · have hhead := congrArg List.head? h
    rw [escapedChar_of_not_mem hc, List.head?_append, List.head?_append, head_of_mem_escapedChars d hd] at hhead
    exact absurd (by cases hhead; decide) hc
  · rw [escapedChar_of_not_mem hc, escapedChar_of_not_mem hd] at h
    simpa using h

/-- No escape starts like the end of a text. -/
theorem head_escapedChar_append_ne (c : Char) (r : List Char) : (escapedChar c ++ r).head? ≠ some '\"' := by
  by_cases hc : c ∈ escapedChars
  · rw [List.head?_append, head_of_mem_escapedChars c hc]
    simp
  · rw [escapedChar_of_not_mem hc]
    intro h
    exact hc (by cases h; decide)

theorem escaped_append_inj : ∀ {cs ds r s : List Char},
    cs.flatMap escapedChar ++ '\"' :: r = ds.flatMap escapedChar ++ '\"' :: s → cs = ds ∧ r = s
  | [], [], r, s, h => by simpa using h
  | [], d :: ds, r, s, h => by
    rw [List.flatMap_cons, List.append_assoc] at h
    exact absurd (congrArg List.head? h).symm (head_escapedChar_append_ne d _)
  | c :: cs, [], r, s, h => by
    rw [List.flatMap_cons, List.append_assoc] at h
    exact absurd (congrArg List.head? h) (head_escapedChar_append_ne c _)
  | c :: cs, d :: ds, r, s, h => by
    rw [List.flatMap_cons, List.flatMap_cons, List.append_assoc, List.append_assoc] at h
    obtain ⟨rfl, htail⟩ := escapedChar_append_inj h
    obtain ⟨rfl, rfl⟩ := escaped_append_inj htail
    exact ⟨rfl, rfl⟩

theorem textLiteral_append_inj {a b : String} {r s : List Char}
    (h : (textLiteral a).toList ++ r = (textLiteral b).toList ++ s) : a = b ∧ r = s := by
  simp only [textLiteral, String.toList_ofList, List.cons_append, List.nil_append, List.append_assoc,
    List.cons.injEq, true_and] at h
  obtain ⟨hab, hrs⟩ := escaped_append_inj h
  exact ⟨String.toList_inj.mp hab, hrs⟩

theorem head?_textLiteral (text : String) : (textLiteral text).toList.head? = some '\"' := by
  simp [textLiteral]

/-! ## Documents -/

mutual

/-- The document is made of texts, truth values, arrays, and objects whose keys are legible. -/
def IsPlain : Json → Prop
  | .bool _ => True
  | .string _ => True
  | .array items => arePlain items
  | .object fields => areFieldsPlain fields
  | _ => False

/-- All items are plain. -/
def arePlain : List Json → Prop
  | [] => True
  | item :: items => item.IsPlain ∧ arePlain items

/-- All values are plain and all keys are legible. -/
def areFieldsPlain : List (Option String × Json) → Prop
  | [] => True
  | (key, value) :: fields => (key.isSome ∧ value.IsPlain) ∧ areFieldsPlain fields

end

/-- The characters of the compact form. -/
def compactChars (j : Json) : List Char := j.toCompact.toList

/-- The characters of the items of an array up to the closing bracket, and what follows. -/
def itemsChars : List Json → List Char → List Char
  | [], r => ']' :: r
  | [item], r => compactChars item ++ ']' :: r
  | item :: items, r => compactChars item ++ ',' :: itemsChars items r

/-- The characters of a field. -/
def fieldChars (field : Option String × Json) : List Char :=
  (textLiteral (field.1.getD "")).toList ++ ':' :: compactChars field.2

/-- The characters of the fields of an object up to the closing brace, and what follows. -/
def fieldsChars : List (Option String × Json) → List Char → List Char
  | [], r => '\x7d' :: r
  | [field], r => fieldChars field ++ '\x7d' :: r
  | field :: fields, r => fieldChars field ++ ',' :: fieldsChars fields r

attribute [local simp] toCompact itemsCompact fieldsCompact

theorem compactChars_array : ∀ (items : List Json) (r : List Char),
    compactChars (.array items) ++ r = '[' :: itemsChars items r := by
  intro items r
  have hitems : ∀ items : List Json,
      (",".intercalate (itemsCompact items)).toList ++ ']' :: r = itemsChars items r := by
    intro items
    induction items with
    | nil => simp [itemsChars]
    | cons item items ih =>
      cases items with
      | nil => simp [itemsChars, compactChars]
      | cons next items =>
        rw [itemsChars, ← ih]
        · simp [compactChars, String.intercalate_cons_cons]
        · simp
  rw [compactChars, toCompact, ← hitems]
  simp

theorem compactChars_object : ∀ (fields : List (Option String × Json)) (r : List Char),
    compactChars (.object fields) ++ r = '\x7b' :: fieldsChars fields r := by
  intro fields r
  have hfields : ∀ fields : List (Option String × Json),
      (",".intercalate (fieldsCompact fields)).toList ++ '\x7d' :: r = fieldsChars fields r := by
    intro fields
    induction fields with
    | nil => simp [fieldsChars]
    | cons field fields ih =>
      cases fields with
      | nil => simp [fieldsChars, fieldChars, compactChars]
      | cons next fields =>
        rw [fieldsChars, ← ih]
        · simp [fieldChars, compactChars, String.intercalate_cons_cons]
        · simp
  rw [compactChars, toCompact, ← hfields]
  simp

/-- The character that the compact form of a plain document starts with. -/
def firstChar : Json → Char
  | .bool b => if b then 't' else 'f'
  | .string _ => '\"'
  | .array _ => '['
  | _ => '\x7b'

theorem head?_compactChars {j : Json} (hj : j.IsPlain) (r : List Char) :
    (compactChars j ++ r).head? = some j.firstChar := by
  cases j with
  | bool b => cases b <;> rfl
  | string text => rw [List.head?_append, compactChars, toCompact, head?_textLiteral]; rfl
  | array items => rw [compactChars_array]; rfl
  | object fields => rw [compactChars_object]; rfl
  | null => exact hj.elim
  | number n => exact hj.elim
  | illegible => exact hj.elim
  | malformed => exact hj.elim

theorem firstChar_ne (j : Json) : j.firstChar ≠ ']' := by
  unfold firstChar
  split <;> (try split) <;> decide

/-- Behind the last item stands what ends the array, behind any other a comma. -/
theorem itemsChars_cons (item : Json) (items : List Json) (r : List Char) : itemsChars (item :: items) r =
    compactChars item ++ if items = [] then ']' :: r else ',' :: itemsChars items r := by
  cases items <;> simp [itemsChars]

theorem fieldsChars_cons (field : Option String × Json) (fields : List (Option String × Json)) (r : List Char) :
    fieldsChars (field :: fields) r =
      fieldChars field ++ if fields = [] then '\x7d' :: r else ',' :: fieldsChars fields r := by
  cases fields <;> simp [fieldsChars]

mutual

/-- **The compact form can be read off the front of a text.** -/
theorem compactChars_append_inj {j k : Json} {r s : List Char} (hj : j.IsPlain) (hk : k.IsPlain)
    (h : compactChars j ++ r = compactChars k ++ s) : j = k ∧ r = s := by
  have hhead := congrArg List.head? h
  rw [head?_compactChars hj, head?_compactChars hk, Option.some.injEq] at hhead
  cases j with
  | bool b =>
    cases k with
    | bool c =>
      have hbc : b = c := by cases b <;> cases c <;> simp [firstChar] at hhead ⊢
      subst hbc
      exact ⟨rfl, List.append_cancel_left h⟩
    | _ => cases b <;> simp [firstChar] at hhead
  | string text =>
    cases k with
    | string text' =>
      rw [compactChars, compactChars, toCompact, toCompact] at h
      obtain ⟨rfl, rfl⟩ := textLiteral_append_inj h
      exact ⟨rfl, rfl⟩
    | bool c => cases c <;> simp [firstChar] at hhead
    | _ => simp [firstChar] at hhead
  | array items =>
    cases k with
    | array items' =>
      rw [compactChars_array, compactChars_array] at h
      obtain ⟨rfl, rfl⟩ := itemsChars_inj hj hk (List.cons.inj h).2
      exact ⟨rfl, rfl⟩
    | bool c => cases c <;> simp [firstChar] at hhead
    | _ => simp [firstChar] at hhead
  | object fields =>
    cases k with
    | object fields' =>
      rw [compactChars_object, compactChars_object] at h
      obtain ⟨rfl, rfl⟩ := fieldsChars_inj hj hk (List.cons.inj h).2
      exact ⟨rfl, rfl⟩
    | bool c => cases c <;> simp [firstChar] at hhead
    | string text => simp [firstChar] at hhead
    | array items => simp [firstChar] at hhead
    | null => exact hk.elim
    | number n => exact hk.elim
    | illegible => exact hk.elim
    | malformed => exact hk.elim
  | null => exact hj.elim
  | number n => exact hj.elim
  | illegible => exact hj.elim
  | malformed => exact hj.elim

theorem itemsChars_inj : ∀ {items items' : List Json} {r s : List Char}, arePlain items → arePlain items' →
    itemsChars items r = itemsChars items' s → items = items' ∧ r = s
  | [], [], _, _, _, _, h => ⟨rfl, (List.cons.inj h).2⟩
  | [], item :: items, r, s, _, hj, h => by
    have hhead := congrArg List.head? h
    rw [itemsChars_cons, head?_compactChars hj.1] at hhead
    exact absurd (Option.some.inj hhead).symm (firstChar_ne item)
  | item :: items, [], r, s, hj, _, h => by
    have hhead := congrArg List.head? h
    rw [itemsChars_cons, head?_compactChars hj.1] at hhead
    exact absurd (Option.some.inj hhead) (firstChar_ne item)
  | item :: items, item' :: items', r, s, hj, hk, h => by
    rw [itemsChars_cons, itemsChars_cons] at h
    obtain ⟨rfl, htail⟩ := compactChars_append_inj hj.1 hk.1 h
    by_cases hnil : items = [] <;> by_cases hnil' : items' = []
    · rw [if_pos hnil, if_pos hnil'] at htail
      exact ⟨by rw [hnil, hnil'], (List.cons.inj htail).2⟩
    · rw [if_pos hnil, if_neg hnil'] at htail
      exact absurd (List.cons.inj htail).1 (by decide)
    · rw [if_neg hnil, if_pos hnil'] at htail
      exact absurd (List.cons.inj htail).1 (by decide)
    · rw [if_neg hnil, if_neg hnil'] at htail
      obtain ⟨rfl, rfl⟩ := itemsChars_inj hj.2 hk.2 (List.cons.inj htail).2
      exact ⟨rfl, rfl⟩

theorem fieldsChars_inj : ∀ {fields fields' : List (Option String × Json)} {r s : List Char}, areFieldsPlain fields →
    areFieldsPlain fields' → fieldsChars fields r = fieldsChars fields' s → fields = fields' ∧ r = s
  | [], [], _, _, _, _, h => ⟨rfl, (List.cons.inj h).2⟩
  | [], field :: fields, r, s, _, hj, h => by
    have hhead := congrArg List.head? h
    rw [fieldsChars_cons, fieldChars, List.append_assoc, List.head?_append, head?_textLiteral] at hhead
    exact absurd (Option.some.inj hhead) (by decide)
  | field :: fields, [], r, s, hj, _, h => by
    have hhead := congrArg List.head? h
    rw [fieldsChars_cons, fieldChars, List.append_assoc, List.head?_append, head?_textLiteral] at hhead
    exact absurd (Option.some.inj hhead) (by decide)
  | (key, value) :: fields, (key', value') :: fields', r, s, hj, hk, h => by
    rw [fieldsChars_cons, fieldsChars_cons, fieldChars, fieldChars, List.append_assoc, List.append_assoc] at h
    obtain ⟨hkey, hrest⟩ := textLiteral_append_inj h
    obtain ⟨key, rfl⟩ := Option.isSome_iff_exists.mp hj.1.1
    obtain ⟨key', rfl⟩ := Option.isSome_iff_exists.mp hk.1.1
    obtain rfl : key = key' := hkey
    obtain ⟨rfl, htail⟩ := compactChars_append_inj hj.1.2 hk.1.2 (List.cons.inj hrest).2
    by_cases hnil : fields = [] <;> by_cases hnil' : fields' = []
    · rw [if_pos hnil, if_pos hnil'] at htail
      exact ⟨by rw [hnil, hnil'], (List.cons.inj htail).2⟩
    · rw [if_pos hnil, if_neg hnil'] at htail
      exact absurd (List.cons.inj htail).1 (by decide)
    · rw [if_neg hnil, if_pos hnil'] at htail
      exact absurd (List.cons.inj htail).1 (by decide)
    · rw [if_neg hnil, if_neg hnil'] at htail
      obtain ⟨rfl, rfl⟩ := fieldsChars_inj hj.2 hk.2 (List.cons.inj htail).2
      exact ⟨rfl, rfl⟩

end

/-- **Plain documents with one compact form are equal.** -/
theorem toCompact_inj {j k : Json} (hj : j.IsPlain) (hk : k.IsPlain) (h : j.toCompact = k.toCompact) : j = k :=
  (compactChars_append_inj hj hk (congrArg (fun text : String => text.toList ++ []) h)).1

/-! ## No control characters -/

theorem blank_le_of_mem_escapedChar {c d : Char} (h : d ∈ escapedChar c) : ' ' ≤ d := by
  by_cases hc : c ∈ escapedChars
  · have hall : escapedChars.all (fun c => (escapedChar c).all (' ' ≤ ·)) = true := by decide +kernel
    exact of_decide_eq_true (List.all_eq_true.mp (List.all_eq_true.mp hall c hc) d h)
  · rw [escapedChar_of_not_mem hc, List.mem_singleton] at h
    subst h
    exact Nat.not_lt.mp (not_lt_of_not_mem_escapedChars hc)

theorem blank_le_of_mem_textLiteral {text : String} {c : Char} (h : c ∈ (textLiteral text).toList) : ' ' ≤ c := by
  simp only [textLiteral, String.toList_ofList, List.mem_append, List.mem_singleton] at h
  rcases h with (rfl | h) | rfl
  · decide
  · obtain ⟨d, -, hc⟩ := List.mem_flatMap.mp h
    exact blank_le_of_mem_escapedChar hc
  · decide

mutual

/-- **The compact form has no control characters.** -/
theorem blank_le_of_mem_compactChars {c : Char} : ∀ {j : Json}, j.IsPlain → c ∈ compactChars j → ' ' ≤ c
  | .bool b, _, h => by
    have hall : (compactChars (.bool b)).all (' ' ≤ ·) = true := by cases b <;> decide
    exact of_decide_eq_true (List.all_eq_true.mp hall c h)
  | .string _, _, h => blank_le_of_mem_textLiteral h
  | .array items, hj, h => by
    have hchars := compactChars_array items []
    rw [List.append_nil] at hchars
    rw [hchars] at h
    rcases List.mem_cons.mp h with rfl | h
    · decide
    · exact blank_le_of_mem_itemsChars hj h
  | .object fields, hj, h => by
    have hchars := compactChars_object fields []
    rw [List.append_nil] at hchars
    rw [hchars] at h
    rcases List.mem_cons.mp h with rfl | h
    · decide
    · exact blank_le_of_mem_fieldsChars hj h

theorem blank_le_of_mem_itemsChars {c : Char} : ∀ {items : List Json}, arePlain items → c ∈ itemsChars items [] →
    ' ' ≤ c
  | [], _, h => by
    obtain rfl := List.mem_singleton.mp h
    decide
  | item :: items, hj, h => by
    rw [itemsChars_cons] at h
    rcases List.mem_append.mp h with h | h
    · exact blank_le_of_mem_compactChars hj.1 h
    · split at h
      · obtain rfl := List.mem_singleton.mp h
        decide
      · rcases List.mem_cons.mp h with rfl | h
        · decide
        · exact blank_le_of_mem_itemsChars hj.2 h

theorem blank_le_of_mem_fieldsChars {c : Char} : ∀ {fields : List (Option String × Json)}, areFieldsPlain fields →
    c ∈ fieldsChars fields [] → ' ' ≤ c
  | [], _, h => by
    obtain rfl := List.mem_singleton.mp h
    decide
  | (key, value) :: fields, hj, h => by
    rw [fieldsChars_cons, fieldChars] at h
    rcases List.mem_append.mp h with h | h
    · rcases List.mem_append.mp h with h | h
      · exact blank_le_of_mem_textLiteral h
      · rcases List.mem_cons.mp h with rfl | h
        · decide
        · exact blank_le_of_mem_compactChars hj.1.2 h
    · split at h
      · obtain rfl := List.mem_singleton.mp h
        decide
      · rcases List.mem_cons.mp h with rfl | h
        · decide
        · exact blank_le_of_mem_fieldsChars hj.2 h

end

end Json

end ContractStubs

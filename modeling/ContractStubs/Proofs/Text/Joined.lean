import ContractStubs.Signature.Basic
import ContractStubs.Text.Identifier
import ContractStubs.TypeExpr.Token

/-!
# Joined texts

Texts that were joined can be told apart again if the separator is in none of them (`intercalate_inj`). So a list of
type parameters is known from its text if no comma is in a parameter (`commaSeparated_inj`), and a name with type
parameters is known from its text if no angle bracket is in the name (`withTypeParameters_inj`). There is none in an
identifier (`not_mem_of_isIdentifier`).
-/

namespace ContractStubs

/-! ## Lists -/

theorem append_cons_inj {α : Type} {c : α} : ∀ {as bs r s : List α}, c ∉ as → c ∉ bs → as ++ c :: r = bs ++ c :: s →
    as = bs ∧ r = s
  | [], [], _, _, _, _, h => ⟨rfl, (List.cons.inj h).2⟩
  | [], b :: bs, _, _, _, hbs, h => absurd (List.cons.inj h).1 (List.ne_of_not_mem_cons hbs)
  | a :: as, [], _, _, has, _, h => absurd (List.cons.inj h).1.symm (List.ne_of_not_mem_cons has)
  | a :: as, b :: bs, r, s, has, hbs, h => by
    obtain ⟨rfl, htail⟩ := List.cons.inj h
    obtain ⟨rfl, rfl⟩ := append_cons_inj (List.not_mem_of_not_mem_cons has) (List.not_mem_of_not_mem_cons hbs) htail
    exact ⟨rfl, rfl⟩

theorem map_inj_of_mem {α β : Type} {f : α → β} : ∀ {as bs : List α},
    (∀ a ∈ as, ∀ b ∈ bs, f a = f b → a = b) → as.map f = bs.map f → as = bs
  | [], [], _, _ => rfl
  | [], _ :: _, _, h => by simp at h
  | _ :: _, [], _, h => by simp at h
  | a :: as, b :: bs, hf, h => by
    obtain ⟨hhead, htail⟩ := List.cons.inj h
    rw [hf a List.mem_cons_self b List.mem_cons_self hhead,
      map_inj_of_mem (fun a ha b hb => hf a (List.mem_cons_of_mem _ ha) b (List.mem_cons_of_mem _ hb)) htail]

section Join

variable {c : Char} {separator : String} {ts us : List String}

/-- The texts between separators are those that were joined, if the separator is in none of them. -/
theorem splitOn_toList_intercalate (hs : separator.toList = [c]) (hne : ts ≠ []) (hts : ∀ t ∈ ts, c ∉ t.toList) :
    (separator.intercalate ts).toList.splitOn c = ts.map String.toList := by
  rw [String.toList_intercalate, hs]
  refine List.splitOn_intercalate c (fun l hl => ?_) (by simpa using hne)
  obtain ⟨t, ht, rfl⟩ := List.mem_map.mp hl
  exact hts t ht

theorem intercalate_inj (hs : separator.toList = [c]) (hne : ts ≠ []) (hne' : us ≠ [])
    (hts : ∀ t ∈ ts, c ∉ t.toList) (hus : ∀ u ∈ us, c ∉ u.toList)
    (h : separator.intercalate ts = separator.intercalate us) : ts = us := by
  have hsplit := splitOn_toList_intercalate hs hne hts
  rw [h, splitOn_toList_intercalate hs hne' hus] at hsplit
  exact (List.map_inj_right fun _ _ => String.toList_inj.mp).mp hsplit.symm

/-- A character of joined texts is in the separator or in one of them. -/
theorem of_mem_intercalate : ∀ {ts : List String}, c ∈ (separator.intercalate ts).toList →
    c ∈ separator.toList ∨ ∃ t ∈ ts, c ∈ t.toList
  | [], h => by simp at h
  | [t], h => .inr ⟨t, List.mem_singleton_self t, by simpa using h⟩
  | t :: u :: ts, h => by
    rw [String.intercalate_cons_cons, String.toList_append, String.toList_append, List.mem_append, List.mem_append] at h
    rcases h with (h | h) | h
    · exact .inr ⟨t, List.mem_cons_self, h⟩
    · exact .inl h
    · refine (of_mem_intercalate h).imp_right fun ⟨v, hv, hc⟩ => ?_
      exact ⟨v, List.mem_cons_of_mem _ hv, hc⟩

/-- A character of one of the texts is in the joined text. -/
theorem mem_intercalate {t : String} (ht : t ∈ ts) (hc : c ∈ t.toList) : c ∈ (separator.intercalate ts).toList := by
  induction ts with
  | nil => cases ht
  | cons u ts ih =>
    cases ts with
    | nil =>
      obtain rfl := List.mem_singleton.mp ht
      simpa using hc
    | cons v ts =>
      rw [String.intercalate_cons_cons, String.toList_append, String.toList_append]
      rcases List.mem_cons.mp ht with rfl | ht
      · exact List.mem_append_left _ (List.mem_append_left _ hc)
      · exact List.mem_append_right _ (ih ht)

end Join

/-! ## Type parameters -/

section TypeParameters

variable {ps qs : List String} {name name' : String}

/-- The blank behind a comma is as good as one in front of the next text. -/
theorem commaSeparated_cons (p : String) : ∀ ps : List String,
    commaSeparated (p :: ps) = ",".intercalate (p :: ps.map (" " ++ ·))
  | [] => by simp [commaSeparated]
  | q :: ps => by
    have hih := commaSeparated_cons q ps
    have hblank : ",".intercalate ((" " ++ q) :: ps.map (" " ++ ·)) = " " ++ ",".intercalate (q :: ps.map (" " ++ ·)) :=
      String.intercalate_cons_append
    rw [commaSeparated] at hih ⊢
    rw [String.intercalate_cons_cons, hih, List.map_cons, String.intercalate_cons_cons, hblank]
    simp only [String.append_assoc]
    rfl

theorem commaSeparated_inj (hps : ∀ p ∈ ps, ',' ∉ p.toList) (hqs : ∀ q ∈ qs, ',' ∉ q.toList) (hne : ps ≠ [])
    (hne' : qs ≠ []) (h : commaSeparated ps = commaSeparated qs) : ps = qs := by
  have hblank : ∀ {ps : List String}, (∀ p ∈ ps, ',' ∉ p.toList) → ∀ p ∈ ps.map (" " ++ ·), ',' ∉ p.toList := by
    intro ps hps t ht
    obtain ⟨p, hp, rfl⟩ := List.mem_map.mp ht
    simpa using hps p hp
  obtain ⟨p, ps, rfl⟩ := List.exists_cons_of_ne_nil hne
  obtain ⟨q, qs, rfl⟩ := List.exists_cons_of_ne_nil hne'
  obtain ⟨hp, hps⟩ := List.forall_mem_cons.mp hps
  obtain ⟨hq, hqs⟩ := List.forall_mem_cons.mp hqs
  rw [commaSeparated_cons, commaSeparated_cons] at h
  have htexts := intercalate_inj rfl (List.cons_ne_nil _ _) (List.cons_ne_nil _ _)
    (List.forall_mem_cons.mpr ⟨hp, hblank hps⟩) (List.forall_mem_cons.mpr ⟨hq, hblank hqs⟩) h
  obtain ⟨rfl, htail⟩ := List.cons.inj htexts
  rw [(List.map_inj_right fun _ _ he => by simpa using he).mp htail]

/-- A name and its type parameters are known from the text of both. -/
theorem withTypeParameters_inj (hname : '<' ∉ name.toList) (hname' : '<' ∉ name'.toList)
    (hps : ∀ p ∈ ps, ',' ∉ p.toList) (hqs : ∀ q ∈ qs, ',' ∉ q.toList)
    (h : withTypeParameters name ps = withTypeParameters name' qs) : name = name' ∧ ps = qs := by
  cases ps with
  | nil =>
    cases qs with
    | nil => exact ⟨h, rfl⟩
    | cons q qs => exact absurd (by rw [withTypeParameters] at h; rw [h]; simp [withTypeParameters]) hname
  | cons p ps =>
    cases qs with
    | nil => exact absurd (by rw [withTypeParameters] at h; rw [← h]; simp [withTypeParameters]) hname'
    | cons q qs =>
      have hchars := congrArg String.toList h
      simp only [withTypeParameters, String.toList_append, List.append_assoc] at hchars
      obtain ⟨hn, hrest⟩ := append_cons_inj hname hname' hchars
      have htexts : (commaSeparated (p :: ps)).toList = (commaSeparated (q :: qs)).toList :=
        List.append_cancel_right hrest
      exact ⟨String.toList_inj.mp hn, commaSeparated_inj hps hqs (by simp) (by simp) (String.toList_inj.mp htexts)⟩

/-- A character of a name with type parameters is in the name or in a parameter, or it separates them. -/
theorem of_mem_withTypeParameters {c : Char} (h : c ∈ (withTypeParameters name ps).toList) :
    c ∈ name.toList ∨ (∃ p ∈ ps, c ∈ p.toList) ∨ c ∈ ['<', ',', ' ', '>'] := by
  cases ps with
  | nil => exact .inl h
  | cons p ps =>
    simp only [withTypeParameters, String.toList_append, List.mem_append] at h
    rcases h with ((h | h) | h) | h
    · exact .inl h
    · exact .inr (.inr (by simp_all))
    · rcases of_mem_intercalate h with h | h
      · have hsign : c = ',' ∨ c = ' ' := by simpa using h
        exact .inr (.inr (by rcases hsign with rfl | rfl <;> decide))
      · exact .inr (.inl h)
    · exact .inr (.inr (by simp_all))

end TypeParameters

/-! ## Identifiers -/

theorem isWordPart_of_isNamePart {c : Char} (h : isNamePart c = true) : TypeExpr.isWordPart c = true := by
  rw [isNamePart, Bool.or_eq_true, Bool.or_eq_true] at h
  rw [TypeExpr.isWordPart, Bool.or_eq_true]
  rcases h with (hletter | hdigit) | hline
  · exact .inr (by rw [isAlphanumeric, isAlphabetic_of_isLetter hletter, Bool.true_or])
  · exact .inr (isAlphanumeric_of_isDecimalDigit hdigit)
  · exact .inl hline

theorem isNamePart_of_isPlainName : ∀ {cs : List Char}, isPlainName cs = true → ∀ c ∈ cs, isNamePart c = true
  | [], h, _, _ => by cases h
  | c :: cs, h, d, hd => by
    rw [isPlainName, Bool.and_eq_true, List.all_eq_true] at h
    obtain ⟨hstart, hparts⟩ := h
    rcases List.mem_cons.mp hd with rfl | hd
    · rw [isNameStart, Bool.or_eq_true] at hstart
      rw [isNamePart, Bool.or_eq_true, Bool.or_eq_true]
      exact hstart.imp_left .inl
    · exact hparts d hd

/-- What is no part of a name, and not the sign before it, is not in an identifier. -/
theorem not_mem_of_isIdentifier {c : Char} {name : String} (hc : isNamePart c = false) (hat : c ≠ '@')
    (h : isIdentifier name = true) : c ∉ name.toList := by
  have hplain : ∀ {cs : List Char}, isPlainName cs = true → c ∉ cs := fun hcs hmem =>
    Bool.noConfusion (hc.symm.trans (isNamePart_of_isPlainName hcs c hmem))
  rw [isIdentifier, isName.eq_def] at h
  split at h
  next cs he =>
    rw [he]
    exact List.not_mem_cons_of_ne_of_not_mem hat (hplain h)
  next => exact hplain h

end ContractStubs

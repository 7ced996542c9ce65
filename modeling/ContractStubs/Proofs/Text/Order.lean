import ContractStubs.Digest.Md5

/-!
# The order of texts

Texts stand in the order of their characters, which is the order of their bytes (`textBytes_lt_iff`): a character of
UTF-8 has the smaller bytes if it comes first. Texts that were sorted are known by which they are and how often
(`mergeSort_texts_eq_of_perm`), and texts that ascend by which they are (`eq_of_pairwise_lt`).
-/

namespace ContractStubs

open String

theorem ofNat_lt_ofNat_iff {a b : Nat} (ha : a < 256) (hb : b < 256) : UInt8.ofNat a < UInt8.ofNat b ↔ a < b := by
  rw [UInt8.lt_iff_toNat_lt, UInt8.toNat_ofNat', UInt8.toNat_ofNat', Nat.mod_eq_of_lt ha, Nat.mod_eq_of_lt hb]

theorem ofNat_eq_ofNat_iff {a b : Nat} (ha : a < 256) (hb : b < 256) : UInt8.ofNat a = UInt8.ofNat b ↔ a = b := by
  rw [← UInt8.toNat_inj, UInt8.toNat_ofNat', UInt8.toNat_ofNat', Nat.mod_eq_of_lt ha, Nat.mod_eq_of_lt hb]

/-- The bytes of a character come before those of a later one, whatever follows them. -/
theorem utf8EncodeChar_append_lt {c d : Char} (h : c < d) (r s : List UInt8) :
    utf8EncodeChar c ++ r < utf8EncodeChar d ++ s := by
  have hval : c.val.toNat < d.val.toNat := h
  have hmax : d.val.toNat < 0x110000 := by
    have hvalid : d.val.toNat < 0xd800 ∨ 0xdfff < d.val.toNat ∧ d.val.toNat < 0x110000 := d.valid
    omega
  unfold utf8EncodeChar
  dsimp only
  generalize c.val.toNat = m at *
  generalize d.val.toNat = n at *
  have h4096 : ∀ k : Nat, k / 4096 = k / 64 / 64 := fun k => (Nat.div_div_eq_div_mul k 64 64).symm
  have h262144 : ∀ k : Nat, k / 262144 = k / 64 / 64 / 64 := fun k => by
    rw [Nat.div_div_eq_div_mul, Nat.div_div_eq_div_mul]
  -- Where the lengths differ so do the first bytes; otherwise the bytes are the digits to one base.
  repeat' split
  all_goals
    simp (disch := omega) only [List.cons_append, List.nil_append, List.cons_lt_cons_iff, ofNat_lt_ofNat_iff,
      ofNat_eq_ofNat_iff, h4096, h262144]
    omega

theorem flatMap_utf8EncodeChar_lt : ∀ {cs ds : List Char}, cs < ds →
    cs.flatMap utf8EncodeChar < ds.flatMap utf8EncodeChar
  | _, [], h => absurd h (List.not_lt_nil _)
  | [], d :: ds, _ => by
    obtain ⟨b, bs, hb⟩ := List.exists_cons_of_ne_nil (utf8EncodeChar_ne_nil (c := d))
    rw [List.flatMap_nil, List.flatMap_cons, hb, List.cons_append]
    exact List.nil_lt_cons b _
  | c :: cs, d :: ds, h => by
    rw [List.flatMap_cons, List.flatMap_cons]
    rcases List.cons_lt_cons_iff.mp h with hcd | ⟨rfl, hrest⟩
    · exact utf8EncodeChar_append_lt hcd _ _
    · exact List.append_left_lt (flatMap_utf8EncodeChar_lt hrest)

/-- **The order of texts is that of their bytes.** -/
theorem textBytes_lt_iff {a b : String} : textBytes a < textBytes b ↔ a < b := by
  refine ⟨fun h => ?_, flatMap_utf8EncodeChar_lt⟩
  by_cases hab : a < b
  · exact hab
  · by_cases hba : b < a
    · exact absurd (flatMap_utf8EncodeChar_lt hba) (List.lt_asymm h)
    · obtain rfl := String.le_antisymm hba hab
      exact absurd h (List.lt_irrefl _)

/-! ## Sorted texts -/

theorem lt_of_le_of_ne_text {a b : String} (h : a ≤ b) (hne : a ≠ b) : a < b :=
  String.not_le.mp fun hle => hne (String.le_antisymm h hle)

theorem pairwise_mergeSort_texts (texts : List String) : (texts.mergeSort fun a b => a ≤ b).Pairwise (· ≤ ·) := by
  refine (@List.pairwise_mergeSort _ (fun a b : String => decide (a ≤ b)) ?_ ?_ texts).imp of_decide_eq_true
  · intro a b c hab hbc
    exact decide_eq_true (String.le_trans (of_decide_eq_true hab) (of_decide_eq_true hbc))
  · intro a b
    rcases String.le_total a b with h | h <;> simp [h]

/-- Texts that stand in order are what their sorting comes to. -/
theorem mergeSort_texts_eq_of_perm {texts sorted : List String} (hperm : texts.Perm sorted)
    (hsorted : sorted.Pairwise (· ≤ ·)) : (texts.mergeSort fun a b => a ≤ b) = sorted :=
  ((texts.mergeSort_perm fun a b => a ≤ b).trans hperm).eq_of_pairwise
    (fun _ _ _ _ hab hba => String.le_antisymm hab hba) (pairwise_mergeSort_texts texts) hsorted

/-- Texts that ascend are known by which they are. -/
theorem eq_of_pairwise_lt {as bs : List String} (ha : as.Pairwise (· < ·)) (hb : bs.Pairwise (· < ·))
    (h : ∀ c, c ∈ as ↔ c ∈ bs) : as = bs := by
  have hne : ∀ {a b : String}, a < b → a ≠ b := fun hlt he => String.lt_irrefl _ (he ▸ hlt)
  have hperm : as.Perm bs := (List.perm_ext_iff_of_nodup (ha.imp hne) (hb.imp hne)).mpr h
  exact hperm.eq_of_pairwise (fun a b _ _ hab hba => absurd (String.lt_trans hab hba) (String.lt_irrefl a)) ha hb

end ContractStubs

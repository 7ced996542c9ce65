import ContractStubs.Json.Reader
import ContractStubs.Proofs.Json.Record

/-!
# Arrays are no longer than their text

Each item of an array costs the reader a step, and there are no more steps than twice the characters of the text. So a
list that is read from a text has a length that a machine word holds, if the text has (`isShort_of_mem_parts_read`).
-/

namespace ContractStubs

namespace Json

theorem parts_ofParts (negative : Bool) (significand : Nat) (power : Int) :
    (ofParts negative significand power).parts = [] := by
  rw [ofParts]
  split <;> rfl

theorem parts_ofWhole (negative : Bool) (n : Nat) : (ofWhole negative n).parts = [] := by
  rw [ofWhole]
  split
  · split
    · exact parts_ofParts true n 0
    · rfl
  · rfl

/-- A number has no parts. -/
theorem parts_readNumber (negative : Bool) (cs : List Char) : (readNumber negative cs).1.parts = [] := by
  rw [readNumber]
  dsimp only
  repeat' split
  all_goals first | exact parts_ofParts _ _ _ | exact parts_ofWhole _ _ | rfl

theorem length_readItems : ∀ (fuel : Nat) (cs : List Char), (readItems fuel cs).1.length ≤ fuel + 1
  | 0, _ => by simp [readItems]
  | fuel + 1, cs => by
    rw [readItems]
    split
    · simp
    · split
      · simp
      next rest _ => exact Nat.succ_le_succ (length_readItems fuel rest)
      · simp

/-- If the document is an array, then one of at most `n` items. -/
def IsShort (n : Nat) (j : Json) : Prop := ∀ items, j = .array items → items.length ≤ n

theorem IsShort.mono {m n : Nat} {j : Json} (h : j.IsShort m) (hmn : m ≤ n) : j.IsShort n := fun items hj =>
  Nat.le_trans (h items hj) hmn

theorem isShort_malformed (n : Nat) : malformed.IsShort n := fun _ h => by cases h

/-- **An array has no more items than the reader had steps.** -/
theorem isShort_readValue (fuel : Nat) (cs : List Char) : (readValue fuel cs).1.IsShort fuel := by
  intro items h
  have hnumber (negative : Bool) (cs : List Char) (h : (readNumber negative cs).1 = .array items) :
      items.length ≤ fuel := by
    have hparts := parts_readNumber negative cs
    rw [h, parts] at hparts
    rw [hparts]
    exact Nat.zero_le _
  cases fuel with
  | zero => simp [readValue] at h
  | succ fuel =>
    rw [readValue] at h
    split at h
    case h_4 => split at h <;> simp at h
    case h_5 rest _ =>
      split at h
      · cases h
        exact Nat.zero_le _
      · cases h
        exact length_readItems fuel (rest.dropWhile isSpace)
    case h_6 => split at h <;> simp at h
    case h_7 rest _ => exact hnumber true rest h
    case h_8 c rest _ _ _ _ _ _ _ _ =>
      split at h
      · exact hnumber false (c :: rest) h
      · cases h
    all_goals cases h

theorem isShort_of_mem_readItems : ∀ (fuel : Nat) (cs : List Char), ∀ item ∈ (readItems fuel cs).1, item.IsShort fuel
  | 0, _ => by
    rw [readItems]
    exact List.forall_mem_singleton.mpr (isShort_malformed 0)
  | fuel + 1, cs => by
    have hvalue : (readValue fuel cs).1.IsShort (fuel + 1) := (isShort_readValue fuel cs).mono (Nat.le_succ fuel)
    have hothers (rest : List Char) : ∀ item ∈ (readItems fuel rest).1, item.IsShort (fuel + 1) := fun item hitem =>
      (isShort_of_mem_readItems fuel rest item hitem).mono (Nat.le_succ fuel)
    rw [readItems]
    split
    next item hread =>
      rw [hread] at hvalue
      exact List.forall_mem_singleton.mpr hvalue
    next item rest hread =>
      rw [hread] at hvalue
      split
      · exact List.forall_mem_singleton.mpr hvalue
      · exact List.forall_mem_cons.mpr ⟨hvalue, hothers _⟩
      · exact List.forall_mem_cons.mpr ⟨hvalue, List.forall_mem_singleton.mpr (isShort_malformed _)⟩

theorem isShort_of_mem_readFields : ∀ (fuel : Nat) (cs : List Char),
    ∀ field ∈ (readFields fuel cs).1, field.2.IsShort fuel
  | 0, _ => by
    rw [readFields]
    exact List.forall_mem_singleton.mpr (isShort_malformed 0)
  | fuel + 1, cs => by
    have hothers (rest : List Char) : ∀ field ∈ (readFields fuel rest).1, field.2.IsShort (fuel + 1) :=
      fun field hfield => (isShort_of_mem_readFields fuel rest field hfield).mono (Nat.le_succ fuel)
    rw [readFields]
    split
    · split
      · exact List.forall_mem_singleton.mpr (isShort_malformed _)
      · split
        next rest _ =>
          have hvalue : (readValue fuel rest).1.IsShort (fuel + 1) :=
            (isShort_readValue fuel rest).mono (Nat.le_succ fuel)
          split
          next value hread =>
            rw [hread] at hvalue
            exact List.forall_mem_singleton.mpr hvalue
          next value rest hread =>
            rw [hread] at hvalue
            split
            · exact List.forall_mem_singleton.mpr hvalue
            · exact List.forall_mem_cons.mpr ⟨hvalue, hothers _⟩
            · exact List.forall_mem_cons.mpr ⟨hvalue, List.forall_mem_singleton.mpr (isShort_malformed _)⟩
        · exact List.forall_mem_singleton.mpr (isShort_malformed _)
    · exact List.forall_mem_singleton.mpr (isShort_malformed _)

theorem isShort_of_mem_parts_readValue (fuel : Nat) (cs : List Char) :
    ∀ part ∈ (readValue (fuel + 1) cs).1.parts, part.IsShort fuel := by
  rw [readValue]
  split
  case h_4 => split <;> simp [parts]
  case h_5 rest _ =>
    split
    · simp [parts]
    · exact isShort_of_mem_readItems fuel (rest.dropWhile isSpace)
  case h_6 rest _ =>
    split
    · simp [parts]
    · intro part hpart
      obtain ⟨field, hfield, rfl⟩ := List.mem_map.mp hpart
      exact isShort_of_mem_readFields fuel (rest.dropWhile isSpace) field hfield
  case h_7 => simp [parts_readNumber]
  case h_8 =>
    split
    · simp [parts_readNumber]
    · simp [parts]
  all_goals simp [parts]

/-- **A list in a document that is read has at most twice as many items as the text has characters.** -/
theorem isShort_of_mem_parts_read {text : String} (part : Json) (h : part ∈ (read text).root.parts) :
    part.IsShort (2 * text.length + 1) := by
  have hroot : (read text).root = (readValue (2 * text.toList.length + 1 + 1) text.toList).1 := by
    rw [read]
    split
    next hread => rw [hread]
    next hread => rw [hread]
  rw [hroot] at h
  exact isShort_of_mem_parts_readValue _ _ part h

end Json

end ContractStubs

import ContractStubs.Json.Document
import ContractStubs.Proofs.Json.Cells

/-!
# Plain documents

A record whose cells are plain documents is a plain document (`Json.isPlain_ofCells`), and plain documents are writable
(`Json.IsPlain.isWritable`): the value of one is read off its text again (`Json.decodeText_toPretty`).
-/

namespace ContractStubs

/-! ## Records -/

section Records

variable {α : Type} {toJson : α → Json}

theorem Json.arePlain_iff : ∀ {items : List Json}, arePlain items ↔ ∀ item ∈ items, item.IsPlain
  | [] => by simp [arePlain]
  | item :: items => by rw [arePlain, List.forall_mem_cons, Json.arePlain_iff]

theorem Json.isPlain_ofFields : ∀ {fields : List (String × Json)}, (∀ f ∈ fields, f.2.IsPlain) →
    (ofFields fields).IsPlain
  | [], _ => trivial
  | f :: fields, h => by
    obtain ⟨hf, hfields⟩ := List.forall_mem_cons.mp h
    exact ⟨⟨rfl, hf⟩, isPlain_ofFields hfields⟩

theorem Json.isPlain_ofCells {cells : List (String × Option Json)}
    (h : ∀ c ∈ cells, ∀ value, c.2 = some value → value.IsPlain) : (ofCells cells).IsPlain :=
  isPlain_ofFields fun f hf => h (f.1, some f.2) (mem_cellFields.mp hf) f.2 rfl

theorem isPlain_of_listCell {as : List α} (h : ∀ a ∈ as, (toJson a).IsPlain) (value : Json)
    (hvalue : listCell (as.map toJson) = some value) : value.IsPlain := by
  cases as with
  | nil => cases hvalue
  | cons a as =>
    cases hvalue
    exact Json.arePlain_iff.mpr (List.forall_mem_map.mpr h)

theorem isPlain_of_map {a? : Option α} (h : ∀ a, (toJson a).IsPlain) (value : Json)
    (hvalue : a?.map toJson = some value) : value.IsPlain := by
  obtain ⟨a, -, rfl⟩ := Option.map_eq_some_iff.mp hvalue
  exact h a

theorem isPlain_of_textCell (text : String) (value : Json) (hvalue : textCell text = some value) : value.IsPlain := by
  rw [textCell] at hvalue
  split at hvalue
  · cases hvalue
  · cases hvalue
    trivial

theorem isPlain_of_some {value : Json} (h : value.IsPlain) (other : Json) (hother : some value = some other) :
    other.IsPlain := Option.some.inj hother ▸ h

end Records

theorem Json.isPlain_string (text : String) : (Json.string text).IsPlain := trivial

/-- What is read back from its document is told by it. -/
theorem Json.eq_of_toJson_eq {α : Type} {toJson : α → Json} {decode : Json → Except JsonFault α} {a b : α}
    (ha : decode (toJson a) = .ok a) (hb : decode (toJson b) = .ok b) (h : toJson a = toJson b) : a = b := by
  rw [h, hb] at ha
  exact (Except.ok.inj ha).symm

/-! ## Writable documents -/

namespace Json

mutual

theorem IsPlain.isWritable : ∀ {j : Json}, j.IsPlain → j.IsWritable
  | .bool _, _ | .string _, _ => trivial
  | .array _, h => areWritable_of_arePlain h
  | .object _, h => areFieldsWritable_of_areFieldsPlain h

theorem areWritable_of_arePlain : ∀ {items : List Json}, arePlain items → areWritable items
  | [], _ => trivial
  | _ :: _, h => ⟨h.1.isWritable, areWritable_of_arePlain h.2⟩

theorem areFieldsWritable_of_areFieldsPlain : ∀ {fields : List (Option String × Json)}, areFieldsPlain fields →
    areFieldsWritable fields
  | [], _ => trivial
  | (_, _) :: _, h => ⟨⟨h.1.1, h.1.2.isWritable⟩, areFieldsWritable_of_areFieldsPlain h.2⟩

end

theorem areWritable_of_forall : ∀ {items : List Json}, (∀ item ∈ items, item.IsWritable) → areWritable items
  | [], _ => trivial
  | item :: items, h => by
    obtain ⟨hitem, hitems⟩ := List.forall_mem_cons.mp h
    exact ⟨hitem, areWritable_of_forall hitems⟩

theorem isWritable_ofFields : ∀ {fields : List (String × Json)}, (∀ f ∈ fields, f.2.IsWritable) →
    (ofFields fields).IsWritable
  | [], _ => trivial
  | f :: fields, h => by
    obtain ⟨hf, hfields⟩ := List.forall_mem_cons.mp h
    exact ⟨⟨rfl, hf⟩, isWritable_ofFields hfields⟩

theorem isWritable_ofCells {cells : List (String × Option Json)}
    (h : ∀ c ∈ cells, ∀ value, c.2 = some value → value.IsWritable) : (ofCells cells).IsWritable :=
  isWritable_ofFields fun f hf => h (f.1, some f.2) (mem_cellFields.mp hf) f.2 rfl

theorem isWritable_of_some {value : Json} (h : value.IsWritable) (other : Json) (hother : some value = some other) :
    other.IsWritable := Option.some.inj hother ▸ h

theorem isWritable_ofNat {n : Nat} (h : n ≤ maxWord) : (ofNat n).IsWritable := by
  have hlower : -(twoTo 63 : Int) ≤ n := by omega
  exact ⟨hlower, Int.ofNat_le.mpr h⟩

end Json

/-- What is read from a document is read from its text. -/
theorem Json.decodeText_toPretty {α : Type} {decode : Json → Except JsonFault α} {j : Json} {a : α} (hj : j.IsWritable)
    (h : decode j = .ok a) : decodeText decode j.toPretty = .ok a := by
  rw [decodeText, read_toPretty hj]
  dsimp only
  rw [h]
  rfl

end ContractStubs

import ContractStubs.Declaration.File
import ContractStubs.Proofs.Declaration.Writing
import ContractStubs.Proofs.Json.Length
import ContractStubs.Proofs.Json.Reading

/-!
# Model files are read back

The text of a model that was read from a text is read as this model (`Model.ofText_toText`): the document of the model
is read off its text (`Json.read_toPretty`), since its numbers are the places of the declarations, and a text that a
machine can hold has no more declarations than a machine word counts; and the model is read back from its document
(`Model.ofJson_toJson`).
-/

namespace ContractStubs

/-! ## Documents -/

/-- All of a declaration's document but the id is plain. -/
theorem Declaration.isWritable_toJson {d : Declaration} (h : d.id ≤ Json.maxWord) : d.toJson.IsWritable := by
  have hcells : ∀ c ∈ d.cells.tail, ∀ value, c.2 = some value → value.IsPlain := by
    simp only [cells, List.tail_cons, List.forall_mem_cons]
    exact ⟨isPlain_of_some trivial, isPlain_of_some trivial, isPlain_of_map Json.isPlain_string,
      isPlain_of_listCell fun c _ => c.isPlain_toJson, isPlain_of_listCell fun text _ => Json.isPlain_string text,
      isPlain_of_listCell fun a _ => a.isPlain_toJson, isPlain_of_listCell fun t _ => t.isPlain_toJson,
      isPlain_of_listCell fun m _ => m.isPlain_toJson, isPlain_of_listCell fun text _ => Json.isPlain_string text,
      isPlain_of_textCell d.text, isPlain_of_map Json.isPlain_string, isPlain_of_some trivial, by simp⟩
  rw [toJson_eq]
  refine Json.isWritable_ofFields fun f hf => ?_
  obtain ⟨name, value⟩ := f
  rcases List.mem_cons.mp (mem_cellFields.mp hf) with hid | hrest
  · cases hid
    exact Json.isWritable_ofNat h
  · exact (hcells _ hrest value rfl).isWritable

theorem Model.isWritable_toJson {m : Model} (h : ∀ d ∈ m.declarations, d.id ≤ Json.maxWord) : m.toJson.IsWritable := by
  refine Json.isWritable_ofFields (List.forall_mem_singleton.mpr ?_)
  exact Json.areWritable_of_forall (List.forall_mem_map.mpr fun d hd => d.isWritable_toJson (h d hd))

/-! ## Texts -/

namespace Model

theorem length_number : ∀ (ds : List Declaration) (next : Nat), (number next ds).length = ds.length
  | [], _ => rfl
  | _ :: ds, next => congrArg Nat.succ (length_number ds (next + 1))

/-- There are no more declarations than a list in the document has items. -/
theorem size_le_of_ofJson {j : Json} {m : Model} {n : Nat} (h : ofJson j = .ok m)
    (hparts : ∀ part ∈ j.parts, part.IsShort n) : m.size ≤ n := by
  obtain ⟨ds, hds, rfl⟩ := Json.map_eq_ok.mp h
  have hsize : (ofList ds).size = ds.length := length_number ds 0
  rw [hsize]
  obtain ⟨r, hr, hcells⟩ := Json.exists_reader_of_asRecord hds
  rcases RecordReader.eq_or_exists_cell_of_withDefault hr with rfl | ⟨place, part, hpart, hlist⟩
  · exact Nat.zero_le n
  · have hshort := hparts part (hcells _ place part hpart)
    cases part with
    | array items => exact Json.length_decodeAll hlist ▸ hshort items rfl
    | _ => cases hlist

/-- What a text was read as is what its document is read as. -/
theorem ofJson_of_ofText {text : String} {m : Model} (h : ofText text = .ok m) :
    ofJson (Json.read text).root = .ok m := by
  rw [ofText, Json.decodeText] at h
  split at h
  · split at h <;> cases h
  next m' hm =>
    split at h
    · cases h
      exact hm
    · cases h

theorem eq_ok_of_toOption {α β : Type} {x : Except α β} {b : β} (h : x.toOption = some b) : x = .ok b := by
  cases x with
  | error a => cases h
  | ok b' => exact congrArg _ (Option.some.inj h)

/-- **A model that was read from a text is read from its own text again.** The ids of its declarations are their places,
and the model that is read is the same in every part. A text has less than `twoTo 63` characters, or it would not fit into
memory. -/
theorem ofText_toText {text : String} {m : Model} (htext : text.length < twoTo 63) (h : ofText text = .ok m) :
    m.IsNumbered ∧ ofText m.toText = .ok m := by
  have hdocument := ofJson_of_ofText h
  have hnumbered := isNumbered_ofJson hdocument
  have hsize : m.size ≤ 2 * text.length + 1 := size_le_of_ofJson hdocument Json.isShort_of_mem_parts_read
  have hids : ∀ d ∈ m.declarations, d.id ≤ Json.maxWord := fun d hd => by
    obtain ⟨i, hi⟩ := List.mem_iff_getElem?.mp hd
    obtain ⟨hlt, -⟩ := List.getElem?_eq_some_iff.mp hi
    have hword : Json.maxWord = 2 * twoTo 63 - 1 := rfl
    rw [hnumbered i d hi, hword]
    rw [size] at hsize
    omega
  refine ⟨hnumbered, ?_⟩
  rw [ofText, toText, Json.decodeText, Json.read_toPretty (isWritable_toJson hids)]
  dsimp only
  rw [ofJson_toJson (isRead_of_ofJson hdocument) hnumbered]
  rfl

/-- An id that is no place, a kind in other letters, `null`, a type with blanks, an empty list, an escape, and a field
that is not known. -/
theorem ofText_toText_interface : ∃ m : Model,
    m = ⟨[⟨0, .interfaceType, "IShop", none, [], [], [], [.named "IBase" [.named "Item" [] "?"] ""], [], [], "A\n",
      none, false⟩]⟩ ∧
    ofText ("\x7b\"declarations\": [\x7b\"id\": 7, \"kind\": \"InterFace\", \"name\": \"IShop\", " ++
      "\"namespace\": null, \"base_types\": [\" IBase < Item ? > \"], \"usings\": [], " ++
      "\"text\": \"\\u0041\\n\", \"note\": 1.5\x7d]\x7d") =
        .ok m ∧
    m.IsNumbered ∧ ofText m.toText = .ok m := by
  refine ⟨_, rfl, (fun h => ⟨h, ofText_toText (by decide +kernel) h⟩) ?_⟩
  exact eq_ok_of_toOption (by decide +kernel)

end Model

end ContractStubs

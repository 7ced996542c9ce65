import ContractStubs.Proofs.Contract.Rereading
import ContractStubs.Proofs.Text.Order
import Mathlib.Data.List.GetD

/-!
# Sets of namespaces

A set of namespaces has just the given ones that are not spelled like the global one (`NamespaceSet.mem_ofList`), each
once and in ascending order (`NamespaceSet.pairwise_ofList`).

A set is looked through by halving. Whatever the order of the names, halving ends at one of them, so what is found is
there (`NamespaceSet.mem_of_contains`). Among names that ascend it ends at the place of the one that is sought
(`NamespaceSet.seek_eq`); and where no name stands twice, nothing else than ascending names are all found
(`NamespaceSet.found_iff_ascends`).

A document is read as it is written, so the names of a set may stand in any order there
(`NamespaceSet.ofJson_eq_ok_iff`). Such a set is a sorted one exactly if it could have been collected
(`NamespaceSet.isSortedSet_iff`).
-/

namespace ContractStubs

theorem mem_dropRepeats {α : Type} [DecidableEq α] {a : α} : ∀ {as : List α}, a ∈ dropRepeats as ↔ a ∈ as
  | [] => by rw [dropRepeats]
  | [b] => by rw [dropRepeats]
  | b :: c :: as => by
    have ih : a ∈ dropRepeats (c :: as) ↔ a ∈ c :: as := mem_dropRepeats
    rw [dropRepeats]
    split
    next he => rw [ih, he, List.mem_cons (a := a) (b := c) (l := c :: as)]; simp
    next => rw [List.mem_cons, ih, ← List.mem_cons]

theorem NamespaceSet.mem_ofList {names : List String} {name : String} :
    name ∈ (NamespaceSet.ofList names).names ↔ name ∈ names ∧ isGlobalNamespace name = false := by
  rw [ofList, mem_dropRepeats, List.mem_mergeSort, List.mem_filter, Bool.not_eq_true']

/-! ## Order -/

/-- Without repeated neighbours, names in order ascend. -/
theorem pairwise_dropRepeats : ∀ {as : List String}, as.Pairwise (· ≤ ·) → (dropRepeats as).Pairwise (· < ·)
  | [], _ => List.Pairwise.nil
  | [a], _ => List.pairwise_singleton _ a
  | a :: b :: as, h => by
    obtain ⟨ha, hrest⟩ := List.pairwise_cons.mp h
    have ih : (dropRepeats (b :: as)).Pairwise (· < ·) := pairwise_dropRepeats hrest
    rw [dropRepeats]
    split
    next => exact ih
    next hne =>
      have hb : ∀ c ∈ b :: as, b ≤ c :=
        List.forall_mem_cons.mpr ⟨String.le_refl b, (List.pairwise_cons.mp hrest).1⟩
      refine List.pairwise_cons.mpr ⟨fun c hc => ?_, ih⟩
      have hc' : c ∈ b :: as := mem_dropRepeats.mp hc
      refine lt_of_le_of_ne_text (ha c hc') fun hac => hne ?_
      exact String.le_antisymm (ha b List.mem_cons_self) (hac ▸ hb c hc')

/-- **A set of namespaces ascends.** -/
theorem NamespaceSet.pairwise_ofList (names : List String) : (NamespaceSet.ofList names).names.Pairwise (· < ·) :=
  pairwise_dropRepeats (pairwise_mergeSort_texts _)

namespace NamespaceSet

variable {names : List String} {name : String} {fuel base size : Nat}

/-! ## Halving -/

theorem seek_of_le_one (h : size ≤ 1) : ∀ fuel, seek names name fuel base size = base
  | 0 => rfl
  | fuel + 1 => by rw [seek, if_pos h]

theorem seek_of_lt (hsize : 1 < size) (h : name < names.getD (base + size / 2) "") :
    seek names name (fuel + 1) base size = seek names name fuel base (size - size / 2) := by
  rw [seek, if_neg (by omega)]
  dsimp only
  rw [if_pos h]

theorem seek_of_not_lt (hsize : 1 < size) (h : ¬name < names.getD (base + size / 2) "") :
    seek names name (fuel + 1) base size = seek names name fuel (base + size / 2) (size - size / 2) := by
  rw [seek, if_neg (by omega)]
  dsimp only
  rw [if_neg h]

/-- Halving ends at one of the places that it starts with. -/
theorem seek_mem_range (hsize : 0 < size) :
    base ≤ seek names name fuel base size ∧ seek names name fuel base size < base + size := by
  induction fuel generalizing base size with
  | zero => exact ⟨Nat.le_refl _, by rw [seek]; omega⟩
  | succ fuel ih =>
    by_cases hone : size ≤ 1
    · rw [seek_of_le_one hone]
      omega
    · by_cases hlt : name < names.getD (base + size / 2) ""
      · rw [seek_of_lt (by omega) hlt]
        have hrange := @ih base (size - size / 2) (by omega)
        omega
      · rw [seek_of_not_lt (by omega) hlt]
        have hrange := @ih (base + size / 2) (size - size / 2) (by omega)
        omega

/-- In ascending names the places are in the order of what stands there. -/
theorem getD_lt_getD_iff (h : names.Pairwise (· < ·)) {i j : Nat} (hi : i < names.length) (hj : j < names.length) :
    names.getD i "" < names.getD j "" ↔ i < j := by
  have hlt : ∀ {i j : Nat}, j < names.length → i < j → names.getD i "" < names.getD j "" := fun {i j} hj hij => by
    rw [List.getD_eq_getElem _ _ (hij.trans hj), List.getD_eq_getElem _ _ hj]
    exact List.pairwise_iff_getElem.mp h i j (hij.trans hj) hj hij
  refine ⟨fun hnames => ?_, hlt hj⟩
  rcases Nat.lt_trichotomy i j with hij | rfl | hji
  · exact hij
  · exact absurd hnames (String.lt_irrefl _)
  · exact absurd (String.lt_trans hnames (hlt hi hji)) (String.lt_irrefl _)

/-- **Among ascending names halving ends at the one that is sought.** -/
theorem seek_eq (h : names.Pairwise (· < ·)) {i : Nat} (hbase : base ≤ i) (hi : i < base + size)
    (hsize : base + size ≤ names.length) (hfuel : size ≤ fuel) : seek names (names.getD i "") fuel base size = i := by
  induction fuel generalizing base size with
  | zero => omega
  | succ fuel ih =>
    by_cases hone : size ≤ 1
    · rw [seek_of_le_one hone]
      omega
    · have horder : names.getD i "" < names.getD (base + size / 2) "" ↔ i < base + size / 2 :=
        getD_lt_getD_iff h (by omega) (by omega)
      by_cases hlt : i < base + size / 2
      · rw [seek_of_lt (by omega) (horder.mpr hlt)]
        exact ih hbase (by omega) (by omega) (by omega)
      · rw [seek_of_not_lt (by omega) (mt horder.mp hlt)]
        exact ih (by omega) (by omega) (by omega) (by omega)

/-- Where halving ends at each of the first `count` names when it is sought, these ascend. -/
theorem getD_lt_getD_of_seek {count : Nat} (hcount : count ≤ size) (hfuel : size ≤ fuel)
    (h : ∀ i, base ≤ i → i < base + count → seek names (names.getD i "") fuel base size = i) :
    ∀ i j, base ≤ i → i < j → j < base + count → names.getD i "" < names.getD j "" := by
  induction fuel generalizing base size count with
  | zero => omega
  | succ fuel ih =>
    intro i j hi hij hj
    have hhalf : 1 < size := by omega
    -- Which way halving goes for a name tells on which side of the middle it ends.
    have hleft : ∀ i, base ≤ i → i < base + count → i < base + size / 2 →
        names.getD i "" < names.getD (base + size / 2) "" := fun i hi hend hmiddle => by
      by_contra hlt
      have hseek := h i hi hend
      rw [seek_of_not_lt hhalf hlt] at hseek
      have hrange : base + size / 2 ≤ seek names (names.getD i "") fuel (base + size / 2) (size - size / 2) ∧ _ :=
        seek_mem_range (by omega)
      omega
    have hright : ∀ i, i < base + count → base + size / 2 ≤ i →
        ¬names.getD i "" < names.getD (base + size / 2) "" := fun i hend hmiddle hlt => by
      have hseek := h i (by omega) hend
      rw [seek_of_lt hhalf hlt] at hseek
      have hrange : _ ∧ seek names (names.getD i "") fuel base (size - size / 2) < base + (size - size / 2) :=
        seek_mem_range (by omega)
      obtain rfl : i = base + size / 2 := by omega
      exact String.lt_irrefl _ hlt
    by_cases hjleft : j < base + size / 2
    · refine @ih base (size - size / 2) (min count (size / 2)) (by omega) (by omega) ?_ i j hi hij (by omega)
      intro k hk hend
      rw [← seek_of_lt hhalf (hleft k hk (by omega) (by omega))]
      exact h k hk (by omega)
    · by_cases hileft : i < base + size / 2
      · exact Std.lt_of_lt_of_le (hleft i hi (by omega) hileft) (String.not_lt.mp (hright j hj (by omega)))
      · refine @ih (base + size / 2) (size - size / 2) (count - size / 2) (by omega) (by omega) ?_ i j (by omega) hij
          (by omega)
        intro k hk hend
        rw [← seek_of_not_lt hhalf (hright k (by omega) hk)]
        exact h k (by omega) (by omega)

/-! ## What is found -/

variable {s : NamespaceSet}

theorem contains_iff : s.contains name = true ↔
    s.names[seek s.names name s.names.length 0 s.names.length]? = some name := by
  rw [contains, beq_iff_eq]

/-- What is found is there, whatever the order of the names. -/
theorem mem_of_contains (h : s.contains name = true) : name ∈ s.names := List.mem_of_getElem? (contains_iff.mp h)

/-- Among ascending names just those are found that are there. -/
theorem contains_iff_mem (h : s.names.Pairwise (· < ·)) : s.contains name = true ↔ name ∈ s.names := by
  refine ⟨mem_of_contains, fun hmem => ?_⟩
  obtain ⟨i, hi, rfl⟩ := List.mem_iff_getElem.mp hmem
  have hseek : seek s.names (s.names.getD i "") s.names.length 0 s.names.length = i :=
    seek_eq h (Nat.zero_le i) (by omega) (by omega) (Nat.le_refl _)
  rw [List.getD_eq_getElem _ _ hi] at hseek
  rw [contains_iff, hseek, List.getElem?_eq_getElem hi]

/-- **Where no name stands twice, all names are found exactly if they ascend.** -/
theorem found_iff_ascends (h : s.names.Nodup) :
    (∀ name ∈ s.names, s.contains name = true) ↔ s.names.Pairwise (· < ·) := by
  refine ⟨fun hfound => ?_, fun hascends name hmem => (contains_iff_mem hascends).mpr hmem⟩
  have hseek : ∀ i, 0 ≤ i → i < 0 + s.names.length →
      seek s.names (s.names.getD i "") s.names.length 0 s.names.length = i := fun i _ hi => by
    rw [Nat.zero_add] at hi
    have hplace := contains_iff.mp (hfound _ (List.getElem_mem hi))
    rw [List.getD_eq_getElem _ _ hi]
    obtain ⟨hend, hname⟩ := List.getElem?_eq_some_iff.mp hplace
    exact (h.getElem_inj_iff).mp hname
  have hlt := getD_lt_getD_of_seek (Nat.le_refl _) (Nat.le_refl _) hseek
  rw [List.pairwise_iff_getElem]
  intro i j hi hj hij
  have hnames := hlt i j (Nat.zero_le i) hij (by omega)
  rwa [List.getD_eq_getElem _ _ hi, List.getD_eq_getElem _ _ hj] at hnames

/-! ## Sorted sets -/

/-- The names ascend by their bytes, none denotes the global namespace, and just those are found that are there. -/
structure IsSortedSet (s : NamespaceSet) : Prop where
  ascends : s.names.Pairwise fun a b => textBytes a < textBytes b
  notGlobal : ∀ name ∈ s.names, isGlobalNamespace name = false
  found : ∀ name, s.contains name = true ↔ name ∈ s.names

theorem ascends_iff : s.names.Pairwise (fun a b => textBytes a < textBytes b) ↔ s.names.Pairwise (· < ·) :=
  ⟨List.Pairwise.imp textBytes_lt_iff.mp, List.Pairwise.imp textBytes_lt_iff.mpr⟩

theorem isSortedSet_ofList (names : List String) : (ofList names).IsSortedSet where
  ascends := ascends_iff.mpr (pairwise_ofList names)
  notGlobal _ h := (mem_ofList.mp h).2
  found _ := contains_iff_mem (pairwise_ofList names)

theorem isSortedSet_empty : empty.IsSortedSet where
  ascends := .nil
  notGlobal := List.forall_mem_nil _
  found _ := contains_iff_mem .nil

/-- Sorted sets are those that stay as they are when their names are collected again. -/
theorem isSortedSet_iff : s.IsSortedSet ↔ ofList s.names = s := by
  constructor
  · intro h
    have hmem : ∀ name, name ∈ (ofList s.names).names ↔ name ∈ s.names := fun name =>
      mem_ofList.trans (and_iff_left_of_imp (h.notGlobal name))
    have hnames := eq_of_pairwise_lt (pairwise_ofList s.names) (ascends_iff.mp h.ascends) hmem
    exact congrArg mk hnames
  · intro h
    rw [← h]
    exact isSortedSet_ofList s.names

end NamespaceSet

/-! ## Documents -/

namespace Json

theorem asText_eq_ok_iff {j : Json} {text : String} : asText j = .ok text ↔ j = .string text := by
  cases j <;> simp [asText, asTextCalled]

theorem decodeAll_asText_eq_ok_iff : ∀ {items : List Json} {texts : List String},
    decodeAll asText items = .ok texts ↔ items = texts.map .string
  | [], texts => by simp [decodeAll]
  | item :: items, texts => by
    constructor
    · intro h
      rw [decodeAll] at h
      cases hitem : asText item with
      | error cause => rw [hitem] at h; cases h
      | ok text =>
        cases hitems : decodeAll asText items with
        | error cause => rw [hitem, hitems] at h; cases h
        | ok others =>
          rw [hitem, hitems] at h
          cases h
          rw [asText_eq_ok_iff.mp hitem, decodeAll_asText_eq_ok_iff.mp hitems, List.map_cons]
    · intro h
      cases texts with
      | nil => cases h
      | cons text texts =>
        obtain ⟨rfl, rfl⟩ := List.cons.inj h
        rw [decodeAll, asText_eq_ok_iff.mpr rfl, decodeAll_asText_eq_ok_iff.mpr rfl]
        rfl

/-- A list of texts is read from the document that lists them. -/
theorem asList_asText_eq_ok_iff {j : Json} {texts : List String} :
    asList asText j = .ok texts ↔ j = ofStrings texts := by
  cases j with
  | array items => rw [asList, decodeAll_asText_eq_ok_iff, ofStrings, array.injEq]
  | _ => exact iff_of_false nofun nofun

end Json

namespace NamespaceSet

variable {s : NamespaceSet}

/-- **A document is read as a set exactly if it lists the names**, in whatever order. -/
theorem ofJson_eq_ok_iff {j : Json} : ofJson j = .ok s ↔ j = s.toJson := by
  rw [ofJson, Json.map_eq_ok]
  simp only [Json.asList_asText_eq_ok_iff]
  exact ⟨fun ⟨names, hj, hs⟩ => hs ▸ hj, fun hj => ⟨s.names, hj, rfl⟩⟩

/-- **A set is a sorted one exactly if it could have been collected**, that is, if collecting its names again leaves it as
it is. What is collected has just the names that were given and do not denote the global namespace, and the namespaces
of a contract are collected; but a set that is read keeps the names of its document in their order, in a contract too.
In any set, what is found is there, and where no name stands twice all names are found exactly if they ascend. -/
theorem sorted_iff_collected (names : List String) (c : Contract) (s : NamespaceSet) :
    (s.IsSortedSet ↔ ofList s.names = s) ∧
      ((ofList names).IsSortedSet ∧
        ∀ name, (ofList names).contains name = true ↔ name ∈ names ∧ isGlobalNamespace name = false) ∧
      empty.IsSortedSet ∧ c.namespaces.IsSortedSet ∧
      (∀ j, ofJson j = .ok s ↔ j = s.toJson) ∧ Contract.ofJson c.toJson = .ok c ∧
      (∀ name, s.contains name = true → name ∈ s.names) ∧
      (s.names.Nodup → ((∀ name ∈ s.names, s.contains name = true) ↔
        s.names.Pairwise fun a b => textBytes a < textBytes b)) := by
  refine ⟨isSortedSet_iff, ⟨isSortedSet_ofList names, fun name => ?_⟩, isSortedSet_empty, isSortedSet_ofList _,
    fun _ => ofJson_eq_ok_iff, Contract.ofJson_toJson c, fun _ => mem_of_contains, fun hnodup => ?_⟩
  · rw [(isSortedSet_ofList names).found, mem_ofList]
  · rw [found_iff_ascends hnodup, ascends_iff]

/-- Names that were written in another order, the global one among them, are read as they stand, alone and in the
signature of a contract: one of them is not found. -/
theorem unordered_names_read :
    let s : NamespaceSet := ⟨["System", "Demo", ""]⟩
    let job : TypeRef := .named (some "Demo") "IJob" []
    let run : Signature :=
      ⟨"Run", [], [], .named (some "System.Threading.Tasks") "Task" [], .awaitable none, job, s⟩
    let contract : Contract := ⟨job, [.ok run]⟩
    ofJson (.array [.string "System", .string "Demo", .string ""]) = .ok s ∧
      Contract.ofJson contract.toJson = .ok contract ∧ run ∈ contract.signatures ∧
      ¬s.names.Pairwise (fun a b => textBytes a < textBytes b) ∧ (∃ name ∈ s.names, isGlobalNamespace name = true) ∧
      "System" ∈ s.names ∧ s.contains "System" = false := by
  intro s job run contract
  exact ⟨rfl, Contract.ofJson_toJson contract, List.mem_singleton_self run, by decide +kernel, by decide +kernel,
    List.mem_cons_self, by decide +kernel⟩

end NamespaceSet

end ContractStubs

import ContractStubs.Proofs.Fingerprint.Part
import ContractStubs.Proofs.Samples
import ContractStubs.Proofs.Text.Pieces

/-!
# What the bytes of parts tell

A zero byte ends each part, and the character zero is that byte. So the bytes tell the parts after each of them was cut
at its zeros, and no more than that (`partBytes_eq_iff`): they tell the parts themselves where no part has a zero in it.
A declaration brings one with its namespaces or with its text, never with the document of what it declares
(`Declaration.zero_mem_fingerprintPart`).
-/

namespace ContractStubs

/-! ## Cut parts -/

/-- The parts that are left when each of them is cut at its zeros. -/
def cutAtZeros (parts : List String) : List String := parts.flatMap (textPieces (· = '\x00'))

/-- No part has a zero in it. -/
def HaveNoZero (parts : List String) : Prop := ∀ part ∈ parts, '\x00' ∉ part.toList

instance (parts : List String) : Decidable (HaveNoZero parts) :=
  inferInstanceAs (Decidable (∀ part ∈ parts, '\x00' ∉ part.toList))

variable {parts parts' : List String}

theorem haveNoZero_cutAtZeros (parts : List String) : HaveNoZero (cutAtZeros parts) := by
  intro piece hpiece hzero
  obtain ⟨part, -, hpiece⟩ := List.mem_flatMap.mp hpiece
  exact of_decide_eq_false (eq_false_of_mem_textPieces hpiece _ hzero) rfl

theorem cutAtZeros_eq_self_iff : cutAtZeros parts = parts ↔ HaveNoZero parts := by
  refine ⟨fun h => h ▸ haveNoZero_cutAtZeros parts, fun h => ?_⟩
  have hpart : ∀ part ∈ parts, textPieces (· = '\x00') part = [part] := fun part hpart =>
    textPieces_of_none fun c hc => decide_eq_false fun heq => h part hpart (heq ▸ hc)
  rw [cutAtZeros, List.flatMap_congr hpart]
  simp

/-- A zero between two pieces is the byte that ends the first of them. -/
theorem flatMap_piecesAt_zero : ∀ cs : List Char,
    (piecesAt (· = '\x00') cs).flatMap (fun piece => piece.flatMap String.utf8EncodeChar ++ [0]) =
      cs.flatMap String.utf8EncodeChar ++ [0]
  | [] => rfl
  | c :: cs => by
    have ih := flatMap_piecesAt_zero cs
    by_cases hc : c = '\x00'
    · subst hc
      have hzero : String.utf8EncodeChar '\x00' = [0] := by decide
      simp only [piecesAt, decide_true, if_true, List.flatMap_cons, ih, hzero, List.flatMap_nil]
      rfl
    · obtain ⟨piece, pieces, hpieces⟩ := List.exists_cons_of_ne_nil (piecesAt_ne_nil (f := (· = '\x00')) cs)
      rw [hpieces, List.flatMap_cons] at ih
      rw [piecesAt, if_neg (by simpa using hc), hpieces]
      simp only [List.flatMap_cons, List.append_assoc] at ih ⊢
      rw [ih]

theorem partBytes_textPieces (part : String) :
    partBytes (textPieces (· = '\x00') part) = textBytes part ++ [0] := by
  rw [partBytes, textPieces, List.flatMap_map]
  simpa [textBytes] using flatMap_piecesAt_zero part.toList

theorem partBytes_cutAtZeros (parts : List String) : partBytes (cutAtZeros parts) = partBytes parts := by
  rw [partBytes, cutAtZeros, List.flatMap_assoc]
  exact List.flatMap_congr fun part _ => partBytes_textPieces part

/-- **The bytes tell the parts as they are cut at their zeros.** -/
theorem partBytes_eq_iff : partBytes parts = partBytes parts' ↔ cutAtZeros parts = cutAtZeros parts' := by
  constructor
  · intro h
    rw [← partBytes_cutAtZeros parts, ← partBytes_cutAtZeros parts'] at h
    exact partBytes_inj (haveNoZero_cutAtZeros parts) (haveNoZero_cutAtZeros parts') h
  · intro h
    rw [← partBytes_cutAtZeros parts, h, partBytes_cutAtZeros parts']

/-! ## The parts of a request -/

/-- **A zero comes from a namespace or from the text.** -/
theorem Declaration.zero_mem_fingerprintPart (d : Declaration) : '\x00' ∈ d.fingerprintPart.toList ↔
    (∃ ns ∈ d.namespaceName?, '\x00' ∈ ns.toList) ∨ (∃ ns ∈ d.usings, '\x00' ∈ ns.toList) ∨ '\x00' ∈ d.text.toList := by
  have hnamespace : '\x00' ∈ (d.namespaceName?.getD "").toList ↔ ∃ ns ∈ d.namespaceName?, '\x00' ∈ ns.toList := by
    cases d.namespaceName? <;> simp
  have husings : '\x00' ∈ (",".intercalate d.usings).toList ↔ ∃ ns ∈ d.usings, '\x00' ∈ ns.toList :=
    ⟨fun h => (of_mem_intercalate h).resolve_left (by decide), fun ⟨_, hns, hc⟩ => mem_intercalate hns hc⟩
  have hbody : '\x00' ∈ d.body.toList ↔ '\x00' ∈ d.text.toList := by
    by_cases ht : d.text = ""
    · rw [body, if_pos ht, ht]
      exact ⟨fun h => absurd (Json.blank_le_of_mem_compactChars d.isPlain_document h) (by decide),
        fun h => absurd h (by decide)⟩
    · rw [body, if_neg ht]
  have hbar : '\x00' ∉ "|".toList := by decide
  simp only [fingerprintPart, String.toList_append, List.mem_append, hnamespace, husings, hbody, hbar, or_false,
    or_assoc]

/-- **A zero comes from the marker, the extension or a type that no source declares.** -/
theorem Config.zero_mem_fingerprintParts (c : Config) : (∃ part ∈ c.fingerprintParts, '\x00' ∈ part.toList) ↔
    '\x00' ∈ c.markerSought.shortName.toList ∨ '\x00' ∈ c.outputExtension.toList ∨
      ∃ k ∈ c.knownTypes, '\x00' ∈ k.1.toList ∨ '\x00' ∈ k.2.toList := by
  have hlabel : ∀ label text : String, '\x00' ∉ label.toList →
      ('\x00' ∈ (label ++ text).toList ↔ '\x00' ∈ text.toList) := by
    intro label text hlabel
    rw [String.toList_append, List.mem_append]
    exact or_iff_right hlabel
  have hsync : '\x00' ∉ ("sync=" ++ if c.allowSynchronousMembers then "true" else "false").toList := by
    cases c.allowSynchronousMembers <;> decide
  have hknown : ∀ name ns : String, '\x00' ∈ ("known=" ++ name ++ "=" ++ ns).toList ↔
      '\x00' ∈ name.toList ∨ '\x00' ∈ ns.toList := by
    intro name ns
    have hword : '\x00' ∉ "known=".toList := by decide
    have hsign : '\x00' ∉ "=".toList := by decide
    simp only [String.toList_append, List.mem_append, hword, hsign, false_or, or_false]
  simp only [fingerprintParts, List.cons_append, List.nil_append, List.exists_mem_cons_iff, List.mem_map,
    exists_exists_and_eq_and, hlabel "marker=" _ (by decide), hlabel "extension=" _ (by decide), hsync, false_or,
    hknown]

/-- **The bytes tell all but whether a zero is in a part or ends it.** The parts as they are cut at their zeros are
told, so the parts are told where there is no zero in them; a declaration brings one with a namespace or its text, the
settings with a name, the extension or a namespace. -/
theorem bytes_tell_cut_parts (parts parts' : List String) (d : Declaration) (c : Config) :
    (partBytes parts = partBytes parts' ↔ cutAtZeros parts = cutAtZeros parts') ∧
    (cutAtZeros parts = parts ↔ HaveNoZero parts) ∧
    (HaveNoZero [d.fingerprintPart] ↔ (∀ ns ∈ d.namespaceName?, '\x00' ∉ ns.toList) ∧
      (∀ ns ∈ d.usings, '\x00' ∉ ns.toList) ∧ '\x00' ∉ d.text.toList) ∧
    (HaveNoZero c.fingerprintParts ↔ '\x00' ∉ c.markerSought.shortName.toList ∧
      '\x00' ∉ c.outputExtension.toList ∧ ∀ k ∈ c.knownTypes, '\x00' ∉ k.1.toList ∧ '\x00' ∉ k.2.toList) := by
  refine ⟨partBytes_eq_iff, cutAtZeros_eq_self_iff, ?_, ?_⟩
  · have hzero := not_congr d.zero_mem_fingerprintPart
    simpa [HaveNoZero] using hzero
  · have hzero := not_congr c.zero_mem_fingerprintParts
    simpa [HaveNoZero] using hzero

/-! ## A zero in a text -/

namespace Program

/-- An interface and a worker for it, each with a text. -/
def employing : Program := .ofModel (.ofList [{ speaking none "IJob" "Run" [] with text := "interface" },
  { workerFor ["IJob"] with text := "class" }]) []

/-- A worker whose text goes on, behind a zero, as the part of an interface would. -/
def unemployed : Program := .ofModel (.ofList [{ workerFor ["IJob"] with text := "class\x00||interface" }]) []

/-- One part with a zero in it has the bytes of two. So a worker whose interface is gone has the fingerprint that it had
with it, and gets another file. -/
theorem zero_hides_part :
    (["a\x00b"] ≠ ["a", "b"] ∧ partBytes ["a\x00b"] = partBytes ["a", "b"]) ∧
    let options := Config.standard.fingerprintParts
    let r := workerAsking 1 [.named none "IJob" []]
    let s := workerAsking 0 [.unresolved "IJob" []]
    r ∈ employing.standardRequests ∧ s ∈ unemployed.standardRequests ∧
      r.target.qualifiedName = s.target.qualifiedName ∧
      (employing.provider 3).fingerprintParts options r ≠ (unemployed.provider 3).fingerprintParts options s ∧
      partBytes ((employing.provider 3).fingerprintParts options r) =
        partBytes ((unemployed.provider 3).fingerprintParts options s) ∧
      ((employing.provider 3).stubFile false ".g.cs" r).isDegenerate = false ∧
      ((unemployed.provider 3).stubFile false ".g.cs" s).isDegenerate = true := by
  refine ⟨by decide +kernel, ?_⟩
  intro options r s
  have hrequest : r ∈ employing.standardRequests := by decide +kernel
  have hother : s ∈ unemployed.standardRequests := by decide +kernel
  have hbytes : partBytes ((employing.provider 3).fingerprintParts options r) =
      partBytes ((unemployed.provider 3).fingerprintParts options s) := by decide +kernel
  exact ⟨hrequest, hother, rfl, by decide +kernel, hbytes, by decide +kernel, by decide +kernel⟩

end Program

end ContractStubs

import ContractStubs.Proofs.Declaration.Writing
import ContractStubs.Proofs.Fingerprint.Content

/-!
# What a part of a fingerprint tells

The part of a declaration is its namespace, its using lines and its body. Where namespaces have no comma and no bar in
them, the part tells all three apart, and a body that is a document tells the members, the base types and the attributes
(`Declaration.of_fingerprintPart_eq`). It does not tell what stands around the body: the kind, the name, the type
parameters, the enclosing types.
-/

namespace ContractStubs

/-! ## Separators -/

/-- A namespace without the signs that separate. -/
structure IsSeparable (name : String) : Prop where
  comma : ',' ∉ name.toList
  bar : '|' ∉ name.toList

instance (name : String) : Decidable (IsSeparable name) :=
  decidable_of_iff (',' ∉ name.toList ∧ '|' ∉ name.toList) ⟨fun ⟨hc, hb⟩ => ⟨hc, hb⟩, fun ⟨hc, hb⟩ => ⟨hc, hb⟩⟩

/-- Only no name and one empty name leave nothing to see between the bars. -/
theorem eq_of_intercalate_comma_empty : ∀ {names : List String}, ",".intercalate names = "" →
    names = [] ∨ names = [""]
  | [], _ => .inl rfl
  | [name], h => .inr (by simpa using h)
  | name :: next :: names, h => by
    rw [String.intercalate_cons_cons] at h
    simp at h

theorem intercalate_comma_inj {names names' : List String} (hn : ∀ n ∈ names, IsSeparable n)
    (hn' : ∀ n ∈ names', IsSeparable n) (hone : names ≠ [""]) (hone' : names' ≠ [""])
    (h : ",".intercalate names = ",".intercalate names') : names = names' := by
  by_cases hnil : names = []
  · subst hnil
    exact ((eq_of_intercalate_comma_empty h.symm).resolve_right hone').symm
  · by_cases hnil' : names' = []
    · subst hnil'
      exact (eq_of_intercalate_comma_empty h).resolve_right hone
    · exact intercalate_inj rfl hnil hnil' (fun n hmem => (hn n hmem).comma) (fun n hmem => (hn' n hmem).comma) h

theorem bar_not_mem_intercalate {names : List String} (h : ∀ n ∈ names, '|' ∉ n.toList) :
    '|' ∉ (",".intercalate names).toList := by
  intro hmem
  rcases of_mem_intercalate hmem with hmem | ⟨n, hn, hmem⟩
  · exact absurd hmem (by decide)
  · exact h n hn hmem

namespace Declaration

variable {d e : Declaration}

/-- The namespaces of a declaration can be told apart in a fingerprint. -/
structure HasSeparableNamespaces (d : Declaration) : Prop where
  namespaceName : ∀ ns, d.namespaceName? = some ns → '|' ∉ ns.toList
  usings : ∀ ns ∈ d.usings, IsSeparable ns
  ne_empty : d.usings ≠ [""]

instance (d : Declaration) : Decidable d.HasSeparableNamespaces :=
  decidable_of_iff
    ((∀ ns ∈ d.namespaceName?, '|' ∉ ns.toList) ∧ (∀ ns ∈ d.usings, IsSeparable ns) ∧ d.usings ≠ [""])
    ⟨fun ⟨hn, hu, he⟩ => ⟨hn, hu, he⟩, fun ⟨hn, hu, he⟩ => ⟨hn, hu, he⟩⟩

/-- Members, base types and attributes are the same. -/
structure SaysTheSame (d e : Declaration) : Prop where
  members : d.members = e.members
  baseTypes : d.baseTypes = e.baseTypes
  attributes : d.attributes = e.attributes

/-- The kind, the name and the type parameters are the same, and so is whether there is a name at all. -/
structure IsHeadedTheSame (d e : Declaration) : Prop where
  kind : d.kind = e.kind
  name : d.name = e.name
  typeParameters : d.typeParameters = e.typeParameters
  malformed : d.malformed = e.malformed

/-- The document of what a declaration declares is plain. -/
theorem isPlain_document (d : Declaration) : (Json.array [.array (d.members.map MemberDeclaration.toJson),
    .array (d.baseTypes.map TypeExpr.toJson), .array (d.attributes.map Attribute.toJson)]).IsPlain := by
  refine Json.arePlain_iff.mpr fun j hj => ?_
  simp only [List.mem_cons, List.not_mem_nil, or_false] at hj
  rcases hj with rfl | rfl | rfl
  · exact Json.arePlain_iff.mpr (List.forall_mem_map.mpr fun m _ => m.isPlain_toJson)
  · exact Json.arePlain_iff.mpr (List.forall_mem_map.mpr fun t _ => t.isPlain_toJson)
  · exact Json.arePlain_iff.mpr (List.forall_mem_map.mpr fun a _ => a.isPlain_toJson)

/-- **A body that is a document tells what it is the document of.** -/
theorem saysTheSame_of_body_eq (hd : d.IsRead) (he : e.IsRead) (hdt : d.text = "") (het : e.text = "")
    (h : d.body = e.body) : d.SaysTheSame e := by
  rw [body, body, if_pos hdt, if_pos het] at h
  have hdocument := Json.toCompact_inj d.isPlain_document e.isPlain_document h
  simp only [Json.array.injEq, List.cons.injEq, and_true] at hdocument
  obtain ⟨hmembers, hbases, hattributes⟩ := hdocument
  refine ⟨?_, ?_, ?_⟩
  · exact map_inj_of_mem (fun m hm m' hm' => MemberDeclaration.toJson_inj (hd.members m hm) (he.members m' hm')) hmembers
  · exact map_inj_of_mem (fun t ht u hu => TypeExpr.toJson_inj (hd.baseTypes t ht) (he.baseTypes u hu)) hbases
  · exact map_inj_of_mem (fun a ha b hb => Attribute.toJson_inj (hd.attributes a ha) (he.attributes b hb)) hattributes

/-- An empty name stands for a missing one. -/
theorem filter_ne_empty_eq_of_getD_eq {ns? ns'? : Option String} (h : ns?.getD "" = ns'?.getD "") :
    ns?.filter (· ≠ "") = ns'?.filter (· ≠ "") := by
  have hgetD : ∀ name? : Option String, name?.filter (· ≠ "") = (some (name?.getD "")).filter (· ≠ "")
    | none => rfl
    | some _ => rfl
  rw [hgetD ns?, hgetD ns'?, h]

/-- **A part tells the namespace, the using lines and the body.** -/
theorem of_fingerprintPart_eq (hd : d.HasSeparableNamespaces) (he : e.HasSeparableNamespaces)
    (h : d.fingerprintPart = e.fingerprintPart) :
    d.namespaceName?.filter (· ≠ "") = e.namespaceName?.filter (· ≠ "") ∧ d.usings = e.usings ∧ d.body = e.body := by
  have hchars := congrArg String.toList h
  have hbar : "|".toList = ['|'] := rfl
  simp only [fingerprintPart, String.toList_append, hbar, List.append_assoc, List.cons_append,
    List.nil_append] at hchars
  have hns : ∀ {c : Declaration}, c.HasSeparableNamespaces → '|' ∉ (c.namespaceName?.getD "").toList := by
    intro c hc
    cases hname : c.namespaceName? with
    | none => simp
    | some ns => exact hc.namespaceName ns hname
  obtain ⟨hnames, hrest⟩ := append_cons_inj (hns hd) (hns he) hchars
  obtain ⟨husings, hbody⟩ := append_cons_inj (bar_not_mem_intercalate fun n hn => (hd.usings n hn).bar)
    (bar_not_mem_intercalate fun n hn => (he.usings n hn).bar) hrest
  exact ⟨filter_ne_empty_eq_of_getD_eq (String.toList_inj.mp hnames),
    intercalate_comma_inj hd.usings he.usings hd.ne_empty he.ne_empty (String.toList_inj.mp husings),
    String.toList_inj.mp hbody⟩

end Declaration

/-! ## The bytes of parts -/

/-- Only the character zero has a zero byte. -/
theorem zero_mem_utf8EncodeChar {c : Char} (h : (0 : UInt8) ∈ String.utf8EncodeChar c) : c = '\x00' := by
  have hbyte : ∀ n : Nat, (0 : UInt8) = UInt8.ofNat n → n % 256 = 0 := fun n hn => by
    have := congrArg UInt8.toNat hn
    simpa using this.symm
  unfold String.utf8EncodeChar at h
  dsimp only at h
  split at h
  · have hzero := hbyte _ (List.mem_singleton.mp h)
    have hval : c.toNat = 0 := by
      have : c.toNat = c.val.toNat := rfl
      omega
    rw [← Char.ofNat_toNat c, hval]
  · split at h
    · simp only [List.mem_cons, List.not_mem_nil, or_false] at h
      rcases h with h | h <;> · have := hbyte _ h; omega
    · split at h
      · simp only [List.mem_cons, List.not_mem_nil, or_false] at h
        rcases h with h | h | h <;> · have := hbyte _ h; omega
      · simp only [List.mem_cons, List.not_mem_nil, or_false] at h
        rcases h with h | h | h | h <;> · have := hbyte _ h; omega

theorem zero_not_mem_textBytes {text : String} (h : '\x00' ∉ text.toList) : (0 : UInt8) ∉ textBytes text := by
  intro hmem
  obtain ⟨c, hc, hzero⟩ := List.mem_flatMap.mp hmem
  exact h (zero_mem_utf8EncodeChar hzero ▸ hc)

theorem textBytes_inj {a b : String} (h : textBytes a = textBytes b) : a = b := by
  have hbytes : a.toList.utf8Encode = b.toList.utf8Encode := congrArg List.toByteArray h
  rw [← String.toByteArray_ofList, ← String.toByteArray_ofList, String.toByteArray_inj] at hbytes
  simpa using hbytes

/-- **Parts without a character zero are told by their bytes.** -/
theorem partBytes_inj : ∀ {parts parts' : List String}, (∀ part ∈ parts, '\x00' ∉ part.toList) →
    (∀ part ∈ parts', '\x00' ∉ part.toList) → partBytes parts = partBytes parts' → parts = parts'
  | [], [], _, _, _ => rfl
  | [], _ :: _, _, _, h => by simp [partBytes] at h
  | _ :: _, [], _, _, h => by simp [partBytes] at h
  | part :: parts, part' :: parts', hp, hp', h => by
    obtain ⟨hhead, htail⟩ := List.forall_mem_cons.mp hp
    obtain ⟨hhead', htail'⟩ := List.forall_mem_cons.mp hp'
    rw [partBytes, partBytes, List.flatMap_cons, List.flatMap_cons, List.append_assoc, List.append_assoc] at h
    obtain ⟨hpart, hrest⟩ := append_cons_inj (zero_not_mem_textBytes hhead) (zero_not_mem_textBytes hhead') h
    rw [textBytes_inj hpart, partBytes_inj htail htail' hrest]

end ContractStubs

import ContractStubs.Proofs.Binding.Names
import ContractStubs.Proofs.Text.Joined
import ContractStubs.Target.Basic
import Mathlib.Data.List.Forall2

/-!
# What a qualified name tells

A qualified name has one part for each piece of the namespace, for each enclosing type and for the type itself. It tells
its parts (`TargetType.qualifiedName_eq_iff`), but not where the namespace ends: of types in one namespace it tells
whether they are the same (`TargetType.isSameType_iff`), of others it does not. In the name of a file square brackets
stand for angle brackets, so two names of files are equal exactly where the qualified names differ in the shape of
brackets only (`fileNameOf_eq_iff`).
-/

namespace ContractStubs

/-- No piece of a text has a dot in it. -/
theorem dot_not_mem_of_mem_textPieces {text piece : String} (h : piece ∈ textPieces (· = '.') text) :
    '.' ∉ piece.toList := by
  intro hdot
  simpa using eq_false_of_mem_textPieces h '.' hdot

/-! ## Parts of a name -/

/-- A part of a qualified name: a piece of a namespace, or a type with its type parameters. -/
structure NamePart where
  name : String
  typeParameters : List String
  deriving DecidableEq, Repr, Inhabited

/-- The part of the name that an enclosing type is. -/
def Container.part (c : Container) : NamePart := ⟨c.name, c.typeParameters⟩

namespace NamePart

/-- The part as it is written. -/
def toText (n : NamePart) : String := withTypeParameters n.name n.typeParameters

/-- The type parameters can be told apart in a qualified name. -/
def HasPlainParameters (n : NamePart) : Prop := ∀ p ∈ n.typeParameters, '.' ∉ p.toList ∧ ',' ∉ p.toList

instance (n : NamePart) : Decidable n.HasPlainParameters :=
  inferInstanceAs (Decidable (∀ p ∈ n.typeParameters, '.' ∉ p.toList ∧ ',' ∉ p.toList))

/-- The part can be told from its text, and its end from a qualified name. -/
structure IsPlain (n : NamePart) : Prop where
  dot : '.' ∉ n.name.toList
  bracket : '<' ∉ n.name.toList
  parameters : n.HasPlainParameters

variable {n m : NamePart}

/-- The name of a declared type is an identifier, so its part is plain where the type parameters are. -/
theorem isPlain_of_isIdentifier (hn : isIdentifier n.name = true) (hp : n.HasPlainParameters) : n.IsPlain where
  dot := not_mem_of_isIdentifier (by decide +kernel) (by decide) hn
  bracket := not_mem_of_isIdentifier (by decide +kernel) (by decide) hn
  parameters := hp

theorem IsPlain.dot_not_mem_toText (h : n.IsPlain) : '.' ∉ n.toText.toList := by
  intro hdot
  rcases of_mem_withTypeParameters hdot with hname | ⟨p, hp, hdot⟩ | hsign
  · exact h.dot hname
  · exact (h.parameters p hp).1 hdot
  · exact absurd hsign (by decide)

theorem IsPlain.toText_inj (hn : n.IsPlain) (hm : m.IsPlain) (h : n.toText = m.toText) : n = m := by
  obtain ⟨hname, hparameters⟩ := withTypeParameters_inj hn.bracket hm.bracket (fun p hp => (hn.parameters p hp).2)
    (fun p hp => (hm.parameters p hp).2) h
  cases n
  cases m
  rw [mk.injEq]
  exact ⟨hname, hparameters⟩

/-- Parts that can be told from their texts can be told from these together. -/
theorem intercalate_toText_inj {ns ms : List NamePart} (hns : ∀ n ∈ ns, n.IsPlain) (hms : ∀ m ∈ ms, m.IsPlain)
    (hne : ns ≠ []) (hne' : ms ≠ [])
    (h : ".".intercalate (ns.map toText) = ".".intercalate (ms.map toText)) : ns = ms := by
  have hdots : ∀ {ns : List NamePart}, (∀ n ∈ ns, n.IsPlain) → ∀ t ∈ ns.map toText, '.' ∉ t.toList := by
    intro ns hns t ht
    obtain ⟨n, hn, rfl⟩ := List.mem_map.mp ht
    exact (hns n hn).dot_not_mem_toText
  have htexts := intercalate_inj rfl (by simpa using hne) (by simpa using hne') (hdots hns) (hdots hms) h
  exact map_inj_of_mem (fun n hn m hm => (hns n hn).toText_inj (hms m hm)) htexts

end NamePart

namespace TargetType

variable {t u : TargetType}

/-! ## Qualified names -/

/-- The enclosing types and the type itself, outermost first. -/
def typeParts (t : TargetType) : List NamePart := t.containers.map Container.part ++ [⟨t.name, t.typeParameters⟩]

/-- The pieces of the namespace, outermost first. -/
def namespaceParts (t : TargetType) : List NamePart :=
  (t.namespaceName?.elim [] (textPieces (· = '.'))).map fun piece => ⟨piece, []⟩

/-- The parts of the qualified name. -/
def nameParts (t : TargetType) : List NamePart := t.namespaceParts ++ t.typeParts

/-- The targets are one type: they have the same namespace, enclosing types of the same names and type parameters, and
the same name and type parameters themselves. -/
structure IsSameType (t u : TargetType) : Prop where
  namespaceName? : t.namespaceName? = u.namespaceName?
  containers : t.containers.map Container.part = u.containers.map Container.part
  name : t.name = u.name
  typeParameters : t.typeParameters = u.typeParameters

/-- The declared names are identifiers. -/
def HasIdentifiers (t : TargetType) : Prop := ∀ n ∈ t.typeParts, isIdentifier n.name = true

/-- The type parameters can be told apart in the qualified name. -/
def HasPlainParameters (t : TargetType) : Prop := ∀ n ∈ t.typeParts, n.HasPlainParameters

instance (t : TargetType) : Decidable t.HasPlainParameters :=
  inferInstanceAs (Decidable (∀ n ∈ t.typeParts, n.HasPlainParameters))

/-- There are no type parameters in the namespace. -/
def HasPlainNamespace (t : TargetType) : Prop := ∀ ns ∈ t.namespaceName?, '<' ∉ ns.toList

instance (t : TargetType) : Decidable t.HasPlainNamespace :=
  inferInstanceAs (Decidable (∀ ns ∈ t.namespaceName?, '<' ∉ ns.toList))

theorem isSameType_iff_typeParts : t.IsSameType u ↔ t.namespaceName? = u.namespaceName? ∧ t.typeParts = u.typeParts := by
  constructor
  · intro h
    refine ⟨h.namespaceName?, ?_⟩
    rw [typeParts, typeParts, h.containers, h.name, h.typeParameters]
  · rintro ⟨hns, hparts⟩
    obtain ⟨hcontainers, hself⟩ := List.append_inj' hparts rfl
    simp only [List.cons.injEq, NamePart.mk.injEq, and_true] at hself
    exact ⟨hns, hcontainers, hself.1, hself.2⟩

theorem map_toText_typeParts (t : TargetType) :
    t.typeParts.map NamePart.toText = t.containers.map Container.displayName ++ [t.displayName] := by
  rw [typeParts, List.map_append, List.map_map]
  rfl

theorem typeParts_ne_nil (t : TargetType) : t.typeParts ≠ [] := by simp [typeParts]

/-- The qualified name is the namespace, if there is one, and the types behind it. -/
theorem qualifiedName_eq_prepend (t : TargetType) : t.qualifiedName =
    t.namespaceName?.elim "" (· ++ ".") ++ ".".intercalate (t.typeParts.map NamePart.toText) := by
  rw [qualifiedName, List.append_assoc, ← map_toText_typeParts]
  cases t.namespaceName? with
  | none => simp
  | some ns => exact String.intercalate_cons_of_ne_nil (by simpa using t.typeParts_ne_nil)

theorem qualifiedName_eq (t : TargetType) : t.qualifiedName = ".".intercalate (t.nameParts.map NamePart.toText) := by
  rw [qualifiedName_eq_prepend, nameParts, namespaceParts]
  cases t.namespaceName? with
  | none => simp
  | some ns =>
    have hpieces : ((textPieces (· = '.') ns).map fun piece => (⟨piece, []⟩ : NamePart)).map NamePart.toText =
        textPieces (· = '.') ns := by
      rw [List.map_map]
      exact List.map_id _
    have hne : textPieces (· = '.') ns ≠ [] := by simpa [textPieces] using piecesAt_ne_nil ns.toList
    rw [Option.elim, Option.elim, List.map_append, hpieces,
      String.intercalate_append_of_ne_nil hne (by simpa using t.typeParts_ne_nil), intercalate_textPieces_dot]

theorem isPlain_of_mem_typeParts (hi : t.HasIdentifiers) (hp : t.HasPlainParameters) :
    ∀ n ∈ t.typeParts, n.IsPlain := fun n hn => NamePart.isPlain_of_isIdentifier (hi n hn) (hp n hn)

theorem isPlain_of_mem_nameParts (hi : t.HasIdentifiers) (hp : t.HasPlainParameters) (hns : t.HasPlainNamespace) :
    ∀ n ∈ t.nameParts, n.IsPlain := by
  intro n hn
  rcases List.mem_append.mp hn with hn | hn
  · obtain ⟨piece, hpiece, rfl⟩ := List.mem_map.mp hn
    cases hsome : t.namespaceName? with
    | none => simp [hsome] at hpiece
    | some ns =>
      rw [hsome] at hpiece
      have hparameters : NamePart.HasPlainParameters ⟨piece, []⟩ := by simp [NamePart.HasPlainParameters]
      refine ⟨dot_not_mem_of_mem_textPieces hpiece, fun hbracket => hns ns hsome ?_, hparameters⟩
      rw [← intercalate_textPieces_dot ns]
      exact mem_intercalate hpiece hbracket
  · exact isPlain_of_mem_typeParts hi hp n hn

/-- **A qualified name tells its parts.** -/
theorem qualifiedName_eq_iff (ht : ∀ n ∈ t.nameParts, n.IsPlain) (hu : ∀ n ∈ u.nameParts, n.IsPlain) :
    t.qualifiedName = u.qualifiedName ↔ t.nameParts = u.nameParts := by
  have hne : ∀ t : TargetType, t.nameParts ≠ [] := fun t => List.append_ne_nil_of_right_ne_nil _ t.typeParts_ne_nil
  rw [qualifiedName_eq, qualifiedName_eq]
  constructor
  · exact NamePart.intercalate_toText_inj ht hu (hne t) (hne u)
  · intro h
    rw [h]

theorem IsSameType.qualifiedName_eq (h : t.IsSameType u) : t.qualifiedName = u.qualifiedName := by
  obtain ⟨hns, hparts⟩ := isSameType_iff_typeParts.mp h
  rw [qualifiedName_eq_prepend, qualifiedName_eq_prepend, hns, hparts]

/-- **Of types in one namespace the qualified name tells whether they are the same.** -/
theorem isSameType_iff (ht : ∀ n ∈ t.typeParts, n.IsPlain) (hu : ∀ n ∈ u.typeParts, n.IsPlain) :
    t.IsSameType u ↔ t.qualifiedName = u.qualifiedName ∧ t.namespaceName? = u.namespaceName? := by
  constructor
  · intro h
    exact ⟨h.qualifiedName_eq, h.namespaceName?⟩
  · rintro ⟨hname, hns⟩
    rw [qualifiedName_eq_prepend, qualifiedName_eq_prepend, hns] at hname
    refine isSameType_iff_typeParts.mpr ⟨hns, ?_⟩
    have htypes := (String.append_right_inj _).mp hname
    exact NamePart.intercalate_toText_inj ht hu t.typeParts_ne_nil u.typeParts_ne_nil htypes

end TargetType

/-! ## Names of files -/

/-- The characters are the same in the name of a file: they are equal, or both open or both close brackets. -/
def IsAlikeInFiles (c d : Char) : Prop := c = d ∨ (c ∈ ['<', '['] ∧ d ∈ ['<', '[']) ∨ (c ∈ ['>', ']'] ∧ d ∈ ['>', ']'])

/-- No square bracket is in the text. -/
def IsAngular (text : String) : Prop := '[' ∉ text.toList ∧ ']' ∉ text.toList

instance (text : String) : Decidable (IsAngular text) :=
  inferInstanceAs (Decidable ('[' ∉ text.toList ∧ ']' ∉ text.toList))

/-- The name of the file for a type, by the qualified name of the type. -/
def fileNameOf (name outputExtension : String) : String :=
  String.ofList (name.toList.map TargetType.fileNameChar) ++ outputExtension

theorem fileNameChar_eq_iff {c d : Char} :
    TargetType.fileNameChar c = TargetType.fileNameChar d ↔ IsAlikeInFiles c d := by
  rw [IsAlikeInFiles, TargetType.fileNameChar, TargetType.fileNameChar]
  grind

/-- **Two types have one file name exactly where their names differ in the shape of brackets only.** -/
theorem fileNameOf_eq_iff {name other outputExtension : String} :
    fileNameOf name outputExtension = fileNameOf other outputExtension ↔
      List.Forall₂ IsAlikeInFiles name.toList other.toList := by
  rw [fileNameOf, fileNameOf, String.append_left_inj, String.ofList_inj, ← List.forall₂_eq_eq_eq,
    List.forall₂_map_left_iff, List.forall₂_map_right_iff]
  simp only [fileNameChar_eq_iff]

theorem IsAlikeInFiles.eq {c d : Char} (h : IsAlikeInFiles c d) (hc : c ≠ '[' ∧ c ≠ ']') (hd : d ≠ '[' ∧ d ≠ ']') :
    c = d := by
  rcases h with h | ⟨hopen, hopen'⟩ | ⟨hclose, hclose'⟩
  · exact h
  · simp_all
  · simp_all

/-- Names without square brackets are told by the names of their files. -/
theorem fileNameOf_inj {name other outputExtension : String} (hname : IsAngular name) (hother : IsAngular other)
    (h : fileNameOf name outputExtension = fileNameOf other outputExtension) : name = other := by
  have hne : ∀ {text : String}, IsAngular text → ∀ c ∈ text.toList, c ≠ '[' ∧ c ≠ ']' := by
    intro text htext c hc
    constructor
    · rintro rfl
      exact htext.1 hc
    · rintro rfl
      exact htext.2 hc
  rw [fileNameOf, fileNameOf, String.append_left_inj, String.ofList_inj] at h
  apply String.toList_inj.mp
  exact map_inj_of_mem (fun c hc d hd he => (fileNameChar_eq_iff.mp he).eq (hne hname c hc) (hne hother d hd)) h

namespace TargetType

variable {t : TargetType} {c : Char}

/-- No square bracket is in the namespace or in a type parameter. -/
structure HasAngularNames (t : TargetType) : Prop where
  namespaceName? : ∀ ns ∈ t.namespaceName?, IsAngular ns
  typeParameters : ∀ n ∈ t.typeParts, ∀ p ∈ n.typeParameters, IsAngular p

/-- A character of a qualified name is in the namespace or in a part for a type, or it is a dot between them. -/
theorem of_mem_qualifiedName (h : c ∈ t.qualifiedName.toList) :
    (∃ ns ∈ t.namespaceName?, c ∈ ns.toList) ∨ (∃ n ∈ t.typeParts, c ∈ n.toText.toList) ∨ c = '.' := by
  rw [qualifiedName_eq_prepend, String.toList_append, List.mem_append] at h
  rcases h with h | h
  · cases hns : t.namespaceName? with
    | none => simp [hns] at h
    | some ns =>
      rw [hns, Option.elim, String.toList_append, List.mem_append] at h
      rcases h with h | h
      · exact .inl ⟨ns, rfl, h⟩
      · exact .inr (.inr (List.mem_singleton.mp h))
  · rcases of_mem_intercalate h with h | ⟨text, htext, h⟩
    · exact .inr (.inr (List.mem_singleton.mp h))
    · obtain ⟨n, hn, rfl⟩ := List.mem_map.mp htext
      exact .inr (.inl ⟨n, hn, h⟩)

/-- A sign that no qualified name is written with comes from the namespace or from a type parameter. -/
theorem not_mem_qualifiedName (hi : t.HasIdentifiers) (hpart : isNamePart c = false)
    (hsign : c ∉ ['@', '.', '<', ',', ' ', '>']) (hns : ∀ ns ∈ t.namespaceName?, c ∉ ns.toList)
    (hp : ∀ n ∈ t.typeParts, ∀ p ∈ n.typeParameters, c ∉ p.toList) : c ∉ t.qualifiedName.toList := by
  intro h
  rcases of_mem_qualifiedName h with ⟨ns, hsome, h⟩ | ⟨n, hn, h⟩ | rfl
  · exact hns ns hsome h
  · rcases of_mem_withTypeParameters h with h | ⟨p, hmem, h⟩ | h
    · exact not_mem_of_isIdentifier hpart (by rintro rfl; exact hsign (by decide)) (hi n hn) h
    · exact hp n hn p hmem h
    · simp_all
  · exact hsign (by decide)

theorem isAngular_qualifiedName (hi : t.HasIdentifiers) (ht : t.HasAngularNames) : IsAngular t.qualifiedName := by
  constructor
  · exact not_mem_qualifiedName hi (by decide +kernel) (by decide) (fun ns hns => (ht.namespaceName? ns hns).1)
      fun n hn p hp => (ht.typeParameters n hn p hp).1
  · exact not_mem_qualifiedName hi (by decide +kernel) (by decide) (fun ns hns => (ht.namespaceName? ns hns).2)
      fun n hn p hp => (ht.typeParameters n hn p hp).2

end TargetType

end ContractStubs

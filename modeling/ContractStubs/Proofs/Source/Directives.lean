import ContractStubs.Proofs.Text.Ends
import ContractStubs.Proofs.Text.Joined
import ContractStubs.Proofs.Text.Pieces
import ContractStubs.Proofs.TypeExpr.Scan
import ContractStubs.Source.File

/-!
# Directives as they may be written

Any blanks may stand between the words of a directive and around its signs (`WrittenDirective`). Read back, a directive
that names a namespace gives the name without any of them, and an alias gives none. What gives none either is a
directive that brings the members of a type into scope, unless something else than a space follows its keyword: then the
keyword and the name are one (`directive_brings`).
-/

namespace ContractStubs

/-! ## What may be written -/

/-- Blanks of any kind, or nothing. -/
structure Blanks where
  chars : List Char
  areBlank : ∀ c ∈ chars, isBlank c = true

/-- Blanks of any kind that keep two words apart. -/
structure Gap extends Blanks where
  nonempty : chars ≠ []

/-- A name without dots. -/
structure NameSegment where
  chars : List Char
  valid : isName chars = true

/-- A dot and the name behind it. -/
structure DottedSegment where
  beforeDot : Blanks
  afterDot : Blanks
  segment : NameSegment

/-- The name of a namespace or type. -/
structure WrittenName where
  /-- The blanks around the colons that stand with the word `global` in front of the name, if they do. -/
  rooted? : Option (Blanks × Blanks)
  first : NameSegment
  others : List DottedSegment
  /-- No name is a keyword. -/
  first_ne : first.chars ≠ "static".toList

/-- What a directive is about. -/
inductive DirectiveTarget where
  /-- A namespace. -/
  | namespaceName (name : WrittenName)
  /-- The members of a type, behind the keyword `static`. -/
  | membersOf (gap : Gap) (name : WrittenName)
  /-- Something that gets another name. -/
  | otherName (name : NameSegment) (beforeSign afterSign : Blanks) (aliased : List Char)

/-- A directive. -/
structure WrittenDirective where
  /-- The blanks behind the word for the whole program, if the directive starts with it. -/
  globalGap? : Option Gap
  gap : Gap
  target : DirectiveTarget
  beforeSemicolon : Blanks

def DottedSegment.written (s : DottedSegment) : List Char :=
  s.beforeDot.chars ++ '.' :: (s.afterDot.chars ++ s.segment.chars)

namespace WrittenName

/-- The word and the colons in front of a name. -/
def root (n : WrittenName) : List Char :=
  match n.rooted? with
  | some (before, after) => "global".toList ++ before.chars ++ "::".toList ++ after.chars
  | none => []

def written (n : WrittenName) : List Char := n.root ++ (n.first.chars ++ n.others.flatMap DottedSegment.written)

/-- The name with nothing but dots in it and with nothing in front of it. -/
def dotted (n : WrittenName) : String :=
  ".".intercalate (String.ofList n.first.chars :: n.others.map fun s => String.ofList s.segment.chars)

end WrittenName

def DirectiveTarget.written : DirectiveTarget → List Char
  | .namespaceName name => name.written
  | .membersOf gap name => "static".toList ++ gap.chars ++ name.written
  | .otherName name before after aliased => name.chars ++ before.chars ++ '=' :: (after.chars ++ aliased)

namespace WrittenDirective

/-- The word for the whole program. -/
def opening (d : WrittenDirective) : List Char :=
  match d.globalGap? with
  | some gap => "global".toList ++ gap.chars
  | none => []

/-- What stands between the word `using` and the semicolon. -/
def body (d : WrittenDirective) : List Char := d.gap.chars ++ d.target.written ++ d.beforeSemicolon.chars

def text (d : WrittenDirective) : String :=
  String.ofList (d.opening ++ ("using".toList ++ (d.body ++ [';'])))

end WrittenDirective

/-- The namespace that is read from what a directive is about. For the members of a type there should be none; but there
is one where the keyword has no space behind it, so that it is taken for the start of the name, unless this has a sign
in front of it. -/
def DirectiveTarget.read? : DirectiveTarget → Option String
  | .namespaceName name => some name.dotted
  | .membersOf gap name =>
    if gap.chars.head? = some ' ' ∨ name.rooted?.isSome ∨ name.first.chars.head? = some '@' then none
    else some ("static" ++ name.dotted)
  | .otherName .. => none

/-! ## Characters of names -/

/-- No name has a blank in it. -/
theorem isNamePart_of_isBlank {c : Char} (h : isBlank c = true) : isNamePart c = false :=
  Bool.eq_false_iff.mpr fun hpart =>
    Bool.false_ne_true ((TypeExpr.isWordPart_of_isBlank h).symm.trans (isWordPart_of_isNamePart hpart))

/-- The signs of a directive are no parts of names. -/
theorem isNamePart_of_mem_signs {c : Char} (h : c ∈ ['.', ':', '=', ';', '@']) : isNamePart c = false := by
  have hall : ['.', ':', '=', ';', '@'].all (fun c => !isNamePart c) = true := by decide +kernel
  simpa using List.all_eq_true.mp hall c h

/-- What is no part of a name, and not the sign before it, is not in one. -/
theorem NameSegment.not_mem (s : NameSegment) {c : Char} (hpart : isNamePart c = false) (hat : c ≠ '@') :
    c ∉ s.chars := by
  have hname : isIdentifier (String.ofList s.chars) = true := by rw [isIdentifier, String.toList_ofList, s.valid]
  have hnot := not_mem_of_isIdentifier hpart hat hname
  rwa [String.toList_ofList] at hnot

theorem NameSegment.sign_not_mem (s : NameSegment) {c : Char} (h : c ∈ ['.', ':', '=', ';']) : c ∉ s.chars := by
  refine s.not_mem (isNamePart_of_mem_signs (List.mem_append_left ['@'] h)) ?_
  rintro rfl
  exact absurd h (by decide)

theorem NameSegment.mem {s : NameSegment} {c : Char} (h : c ∈ s.chars) : isNamePart c = true ∨ c = '@' :=
  or_iff_not_imp_left.mpr fun hpart => by_contra fun hat => s.not_mem (Bool.eq_false_iff.mpr hpart) hat h

theorem NameSegment.isBlank_eq_false {s : NameSegment} {c : Char} (h : c ∈ s.chars) : isBlank c = false := by
  refine Bool.eq_false_iff.mpr fun hblank => ?_
  rcases NameSegment.mem h with hpart | rfl
  · exact Bool.false_ne_true ((isNamePart_of_isBlank hblank).symm.trans hpart)
  · exact absurd hblank (by decide)

theorem NameSegment.ne_nil (s : NameSegment) : s.chars ≠ [] := fun h => by
  have hvalid := s.valid
  rw [h] at hvalid
  cases hvalid

/-! ## What is written starts and ends with names -/

section Written

theorem NameSegment.isSolid (s : NameSegment) : IsSolid s.chars :=
  isSolid_of_none s.ne_nil fun _ => NameSegment.isBlank_eq_false

theorem IsSolid.append_others {cs : List Char} : ∀ {others : List DottedSegment}, IsSolid cs →
    IsSolid (cs ++ others.flatMap DottedSegment.written)
  | [], h => by rwa [List.flatMap_nil, List.append_nil]
  | s :: others, h => by
    have hs := h.append s.segment.isSolid (s.beforeDot.chars ++ '.' :: s.afterDot.chars)
    have hmore : IsSolid (_ ++ others.flatMap DottedSegment.written) := hs.append_others
    simpa only [List.flatMap_cons, DottedSegment.written, List.append_assoc, List.cons_append] using hmore

theorem isSolid_append_root (n : WrittenName) {cs : List Char} (h : IsSolid cs) : IsSolid (n.root ++ cs) := by
  rw [WrittenName.root]
  split
  next before after _ =>
    have hword : IsSolid "global".toList := isSolid_of_all (by simp) (by decide)
    have hall := hword.append h (before.chars ++ ("::".toList ++ after.chars))
    simpa only [List.append_assoc] using hall
  next => exact h

theorem WrittenName.isSolid (n : WrittenName) : IsSolid n.written :=
  isSolid_append_root n n.first.isSolid.append_others

/-- Each character of a name is a blank, a part of a plain name or a sign. -/
theorem WrittenName.mem {n : WrittenName} {c : Char} (h : c ∈ n.written) :
    isBlank c = true ∨ (isNamePart c = true ∨ c = '@') ∨ c = '.' ∨ c = ':' := by
  rcases List.mem_append.mp h with h | h
  · rw [root] at h
    split at h
    next before after _ =>
      rcases List.mem_append.mp h with h | h
      · rcases List.mem_append.mp h with h | h
        · rcases List.mem_append.mp h with h | h
          · exact .inr (.inl (.inl (List.all_eq_true.mp (by decide +kernel) c h)))
          · exact .inl (before.areBlank c h)
        · exact .inr (.inr (.inr (by simpa using h)))
      · exact .inl (after.areBlank c h)
    next => cases h
  rcases List.mem_append.mp h with h | h
  · exact .inr (.inl (NameSegment.mem h))
  · obtain ⟨s, -, hs⟩ := List.mem_flatMap.mp h
    rcases List.mem_append.mp hs with hs | hs
    · exact .inl (s.beforeDot.areBlank c hs)
    rcases List.mem_cons.mp hs with rfl | hs
    · exact .inr (.inr (.inl rfl))
    rcases List.mem_append.mp hs with hs | hs
    · exact .inl (s.afterDot.areBlank c hs)
    · exact .inr (.inl (NameSegment.mem hs))

/-- A name has no other sign in it. -/
theorem WrittenName.sign_not_mem (n : WrittenName) {c : Char} (h : c ∈ ['=', ';']) : c ∉ n.written := fun hc => by
  have hpart : isNamePart c = false := isNamePart_of_mem_signs (List.mem_cons_of_mem _ (List.mem_cons_of_mem _
    (List.mem_append_left ['@'] h)))
  have hother : isBlank c = false ∧ c ≠ '@' ∧ c ≠ '.' ∧ c ≠ ':' := by
    rcases List.mem_cons.mp h with rfl | h
    · decide
    · rw [List.mem_singleton.mp h]
      decide
  rcases WrittenName.mem hc with hblank | (hname | hat) | hdot | hcolon
  · exact Bool.false_ne_true (hother.1.symm.trans hblank)
  · exact Bool.false_ne_true (hpart.symm.trans hname)
  · exact hother.2.1 hat
  · exact hother.2.2.1 hdot
  · exact hother.2.2.2 hcolon

end Written

/-! ## Names without blanks -/

section Dotted

variable {n : WrittenName}

theorem Blanks.filter (b : Blanks) : b.chars.filter (fun c => !isBlank c) = [] :=
  List.filter_eq_nil_iff.mpr fun c hc => by simp [b.areBlank c hc]

theorem NameSegment.filter (s : NameSegment) : s.chars.filter (fun c => !isBlank c) = s.chars :=
  List.filter_eq_self.mpr fun c hc => by simp [s.isBlank_eq_false hc]

namespace WrittenName

/-- The names behind the first one, each with a dot in front of it. -/
def behindFirst (n : WrittenName) : List Char := n.others.flatMap fun s => '.' :: s.segment.chars

theorem toList_dotted (n : WrittenName) : n.dotted.toList = n.first.chars ++ n.behindFirst := by
  rw [dotted, behindFirst]
  generalize n.first.chars = cs
  induction n.others generalizing cs with
  | nil => simp
  | cons s others ih =>
    rw [List.map_cons, String.intercalate_cons_cons, String.toList_append, String.toList_append, ih,
      List.flatMap_cons, String.toList_ofList, List.append_assoc]
    rfl

theorem filter_written (n : WrittenName) : n.written.filter (fun c => !isBlank c) =
    (if n.rooted?.isSome then "global::".toList else []) ++ n.dotted.toList := by
  have hroot : n.root.filter (fun c => !isBlank c) = if n.rooted?.isSome then "global::".toList else [] := by
    rw [root]
    cases n.rooted? with
    | none => rfl
    | some blanks =>
      simp only [List.filter_append, Blanks.filter, List.append_nil, Option.isSome_some, if_true]
      decide
  have hothers : (n.others.flatMap DottedSegment.written).filter (fun c => !isBlank c) = n.behindFirst := by
    rw [List.filter_flatMap, behindFirst]
    refine List.flatMap_congr fun s _ => ?_
    rw [DottedSegment.written, List.filter_append, s.beforeDot.filter, List.nil_append,
      List.filter_cons_of_pos (by decide), List.filter_append, s.afterDot.filter, List.nil_append, s.segment.filter]
  rw [written, List.filter_append, List.filter_append, hroot, hothers, n.first.filter, toList_dotted]

/-- Between the dots are the names. -/
theorem piecesAt_append_behindFirst (n : WrittenName) {front : List Char} (h : '.' ∉ front) :
    piecesAt (· = '.') (front ++ n.behindFirst) = front :: n.others.map (·.segment.chars) := by
  have hnone : ∀ {cs : List Char}, '.' ∉ cs → piecesAt (· = '.') cs = [cs] := fun hcs =>
    piecesAt_of_none fun c hc => decide_eq_false fun heq => hcs (heq ▸ hc)
  rw [behindFirst]
  induction n.others generalizing front with
  | nil => rw [List.flatMap_nil, List.append_nil, hnone h, List.map_nil]
  | cons s others ih =>
    rw [List.flatMap_cons, List.cons_append, piecesAt_append (by simp), hnone h, ih (s.segment.sign_not_mem (by simp)),
      List.map_cons, List.singleton_append]

/-- It depends on what is in front of the first dot whether names with dots between them are a qualified name. -/
theorem isQualifiedIdentifier_append_behindFirst (n : WrittenName) {front : List Char} (h : '.' ∉ front) :
    isQualifiedIdentifier (String.ofList (front ++ n.behindFirst)) = isName front := by
  rw [isQualifiedIdentifier, String.toList_ofList, n.piecesAt_append_behindFirst h, List.all_cons, List.all_map]
  have hothers : n.others.all (isName ∘ fun s => s.segment.chars) = true :=
    List.all_eq_true.mpr fun s _ => s.segment.valid
  rw [hothers, Bool.and_true]

end WrittenName

end Dotted

/-! ## Reading a name -/

section Reading

variable (n : WrittenName)

/-- A character that a single name may have in it. -/
def isSegmentPart (c : Char) : Bool := isNamePart c || c = '@'

theorem isSegmentPart_of_isBlank {c : Char} (h : isBlank c = true) : isSegmentPart c = false := by
  have hat : c ≠ '@' := by rintro rfl; exact absurd h (by decide)
  simp [isSegmentPart, isNamePart_of_isBlank h, hat]

theorem takeWhile_segment (s : NameSegment) {rest : List Char} (h : rest.takeWhile isSegmentPart = []) :
    (s.chars ++ rest).takeWhile isSegmentPart = s.chars := by
  rw [List.takeWhile_append_of_pos, h, List.append_nil]
  exact fun c hc => by simpa [isSegmentPart] using NameSegment.mem hc

theorem takeWhile_others : ∀ others : List DottedSegment,
    (others.flatMap DottedSegment.written).takeWhile isSegmentPart = []
  | [] => rfl
  | s :: others => by
    have hsign : isSegmentPart '.' = false := by
      simp [isSegmentPart, isNamePart_of_mem_signs (c := '.')]
    have hblanks : ∀ c ∈ s.beforeDot.chars, isSegmentPart c = false := fun c hc =>
      isSegmentPart_of_isBlank (s.beforeDot.areBlank c hc)
    rw [List.flatMap_cons, DottedSegment.written]
    cases hchars : s.beforeDot.chars with
    | nil => exact List.takeWhile_cons_of_neg (by simp [hsign])
    | cons c cs => exact List.takeWhile_cons_of_neg (by simp [hblanks c (hchars ▸ List.mem_cons_self)])

/-- A name does not start with the keyword `static` and a space. -/
theorem WrittenName.written_ne (rest : List Char) : n.written ≠ "static ".toList ++ rest := by
  intro h
  rw [written, root] at h
  split at h
  next => exact absurd (congrArg List.head? h) (by simp)
  next =>
    have hfirst := takeWhile_segment n.first (takeWhile_others n.others)
    rw [List.nil_append] at h
    rw [h] at hfirst
    refine n.first_ne (hfirst.symm.trans ?_)
    have hword : ∀ c ∈ "static".toList, isSegmentPart c = true := List.all_eq_true.mp (by decide +kernel)
    have hblank : isSegmentPart ' ' = false := isSegmentPart_of_isBlank (by decide)
    have hsplit : "static ".toList ++ rest = "static".toList ++ ' ' :: rest := rfl
    rw [hsplit, List.takeWhile_append_of_pos hword, List.takeWhile_cons_of_neg (by simp [hblank]), List.append_nil]

theorem namespaceIn?_of_mem {cs : List Char} (h : '=' ∈ cs) :
    UsingDirective.namespaceIn? (String.ofList cs) = none := by
  have hcontains : (String.ofList cs).toList.contains '=' = true := by
    rwa [String.toList_ofList, List.contains_iff_mem]
  rw [UsingDirective.namespaceIn?, hcontains, Bool.true_or, if_pos rfl]

/-- What has no equals sign and does not start with the keyword `static` and a space is a name once its blanks and the
word with the colons in front of it are gone. -/
theorem namespaceIn?_ofList {cs : List Char} {name : String} (hsign : '=' ∉ cs)
    (hkeyword : ∀ rest, cs ≠ "static ".toList ++ rest)
    (hname : (stripOpening? "global::" (String.ofList (cs.filter fun c => !isBlank c))).getD
      (String.ofList (cs.filter fun c => !isBlank c)) = name) :
    UsingDirective.namespaceIn? (String.ofList cs) = if isQualifiedIdentifier name then some name else none := by
  have hcontains : cs.contains '=' = false := by simpa using hsign
  rw [UsingDirective.namespaceIn?, startsWith, stripOpening?_eq_none hkeyword, String.toList_ofList, hcontains,
    Bool.false_or, Option.isSome_none, if_neg Bool.false_ne_true, withoutBlanks, String.toList_ofList]
  dsimp only
  rw [hname]

/-- A name with nothing but dots in it has no word with colons in front of it. -/
theorem WrittenName.stripOpening?_dotted : stripOpening? "global::" n.dotted = none := by
  have hdotted : String.ofList n.dotted.toList = n.dotted := String.ofList_toList
  rw [← hdotted]
  refine stripOpening?_eq_none fun rest h => ?_
  have hcolon : ':' ∈ n.dotted.toList := by
    rw [h]
    exact List.mem_append_left _ (by decide)
  have hwritten : ∀ s : NameSegment, ':' ∉ s.chars := fun s => s.sign_not_mem (by simp)
  rw [toList_dotted, List.mem_append] at hcolon
  rcases hcolon with hfirst | hothers
  · exact hwritten n.first hfirst
  · obtain ⟨s, -, hs⟩ := List.mem_flatMap.mp hothers
    exact hwritten s.segment ((List.mem_cons.mp hs).resolve_left (by decide))

theorem WrittenName.isQualifiedIdentifier_dotted : isQualifiedIdentifier n.dotted = true := by
  have hdotted : String.ofList (n.first.chars ++ n.behindFirst) = n.dotted := by
    rw [← toList_dotted, String.ofList_toList]
  rw [← hdotted, n.isQualifiedIdentifier_append_behindFirst (n.first.sign_not_mem (by simp)),
    n.first.valid]

/-- A namespace is read as its name with nothing but dots in it. -/
theorem namespaceIn?_written : UsingDirective.namespaceIn? (String.ofList n.written) = some n.dotted := by
  have hname : (stripOpening? "global::" (String.ofList (n.written.filter fun c => !isBlank c))).getD
      (String.ofList (n.written.filter fun c => !isBlank c)) = n.dotted := by
    rw [n.filter_written]
    split
    next => rw [stripOpening?_append, Option.getD_some, String.ofList_toList]
    next => rw [List.nil_append, String.ofList_toList, n.stripOpening?_dotted, Option.getD_none]
  rw [namespaceIn?_ofList (n.sign_not_mem (by simp)) n.written_ne hname, if_pos n.isQualifiedIdentifier_dotted]

theorem NameSegment.all_isNamePart_iff (s : NameSegment) :
    s.chars.all isNamePart = true ↔ s.chars.head? ≠ some '@' := by
  constructor
  · intro hall hhead
    have hat := List.all_eq_true.mp hall '@' (List.mem_of_head? hhead)
    exact absurd hat (by simp [isNamePart_of_mem_signs (c := '@')])
  · intro hhead
    have hvalid := s.valid
    rw [isName.eq_def] at hvalid
    split at hvalid
    next heq => exact absurd (heq ▸ rfl) hhead
    next => exact List.all_eq_true.mpr (isNamePart_of_isPlainName hvalid)

/-- The keyword and what follows it are one name if all of it may stand in a name. -/
theorem isName_static_append (cs : List Char) : isName ("static".toList ++ cs) = cs.all isNamePart := by
  have hstart : isNameStart 's' = true := by decide +kernel
  have hparts : "tatic".toList.all isNamePart = true := by decide +kernel
  have hcons : "static".toList ++ cs = 's' :: ("tatic".toList ++ cs) := rfl
  rw [hcons, isName.eq_def]
  split
  next heq => cases heq
  next => rw [isPlainName, hstart, List.all_append, hparts, Bool.true_and, Bool.true_and]

/-- The keyword and the name behind it without blanks: what is up to the first dot, and the rest. -/
theorem filter_static (gap : Gap) : ("static".toList ++ gap.chars ++ n.written).filter (fun c => !isBlank c) =
    "static".toList ++ ((if n.rooted?.isSome then "global::".toList else []) ++ n.first.chars) ++ n.behindFirst := by
  have hword : "static".toList.filter (fun c => !isBlank c) = "static".toList := by decide
  rw [List.filter_append, List.filter_append, gap.filter, n.filter_written, n.toList_dotted, List.append_nil, hword]
  simp only [List.append_assoc]

/-- Keyword and name are a qualified name if there is no sign between them. -/
theorem WrittenName.isQualifiedIdentifier_static : isQualifiedIdentifier (String.ofList ("static".toList ++
    ((if n.rooted?.isSome then "global::".toList else []) ++ n.first.chars) ++ n.behindFirst)) = true ↔
      ¬(n.rooted?.isSome ∨ n.first.chars.head? = some '@') := by
  have hdot : '.' ∉ "static".toList ++ ((if n.rooted?.isSome then "global::".toList else []) ++ n.first.chars) := by
    rw [List.mem_append, List.mem_append, not_or, not_or]
    refine ⟨by decide, ?_, n.first.sign_not_mem (by simp)⟩
    split <;> decide
  rw [n.isQualifiedIdentifier_append_behindFirst hdot, isName_static_append, List.all_append, Bool.and_eq_true,
    n.first.all_isNamePart_iff, not_or]
  refine and_congr_left fun _ => ?_
  cases n.rooted?.isSome <;> decide +kernel

theorem namespaceIn?_static_space (rest : List Char) :
    UsingDirective.namespaceIn? (String.ofList ("static ".toList ++ rest)) = none := by
  rw [UsingDirective.namespaceIn?, startsWith, stripOpening?_append, Option.isSome_some, Bool.or_true, if_pos rfl]

/-- The members of a type bring no namespace if there is a space behind the keyword. Otherwise keyword and name are one,
and what comes of it is a name unless there is a sign between them. -/
theorem namespaceIn?_static (gap : Gap) :
    UsingDirective.namespaceIn? (String.ofList ("static".toList ++ gap.chars ++ n.written)) =
      (DirectiveTarget.membersOf gap n).read? := by
  obtain ⟨g, gs, hgap⟩ := List.exists_cons_of_ne_nil gap.nonempty
  rw [DirectiveTarget.read?]
  by_cases hspace : gap.chars.head? = some ' '
  · rw [if_pos (.inl hspace)]
    rw [hgap] at hspace ⊢
    obtain rfl : g = ' ' := Option.some.inj hspace
    have hopens : "static".toList ++ ' ' :: gs ++ n.written = "static ".toList ++ (gs ++ n.written) := rfl
    rw [hopens, namespaceIn?_static_space]
  have hsign : '=' ∉ "static".toList ++ gap.chars ++ n.written := by
    rw [List.mem_append, List.mem_append, not_or, not_or]
    exact ⟨⟨by decide, fun h => absurd (gap.areBlank _ h) (by decide)⟩, n.sign_not_mem (by simp)⟩
  have hkeyword : ∀ rest, "static".toList ++ gap.chars ++ n.written ≠ "static ".toList ++ rest := fun rest h => by
    rw [hgap] at h hspace
    exact hspace (by simpa using congrArg (fun cs => (cs.drop 6).head?) h)
  have hcolons : ∀ rest, "static".toList ++ ((if n.rooted?.isSome then "global::".toList else []) ++ n.first.chars) ++
      n.behindFirst ≠ "global::".toList ++ rest := fun rest h => by
    have hhead : some 's' = some 'g' := congrArg List.head? h
    exact absurd hhead (by decide)
  rw [namespaceIn?_ofList hsign hkeyword rfl, filter_static, stripOpening?_eq_none hcolons, Option.getD_none]
  by_cases hsigns : n.rooted?.isSome ∨ n.first.chars.head? = some '@'
  · rw [if_neg (mt n.isQualifiedIdentifier_static.mp (not_not_intro hsigns)), if_pos (.inr hsigns)]
  · rw [if_pos (n.isQualifiedIdentifier_static.mpr hsigns), if_neg (not_or_intro hspace hsigns)]
    have htext : String.ofList ("static".toList ++ n.first.chars ++ n.behindFirst) = "static" ++ n.dotted :=
      String.toList_inj.mp (by simp [n.toList_dotted])
    rw [if_neg (not_or.mp hsigns).1, List.nil_append, htext]

end Reading

/-! ## Reading a directive -/

/-- The steps of reading a directive: the semicolons, the word for the whole program, the keyword. -/
theorem UsingDirective.ofText?_eq {text cut rest target : String} {isGlobal : Bool}
    (hcut : withoutSemicolons (trimBlank text) = cut)
    (hglobal : afterGlobal? cut = if isGlobal then some rest else none) (hrest : isGlobal = false → cut = rest)
    (husing : stripOpening? "using" rest = some target) :
    ofText? text = (namespaceIn? (trimBlank target)).map (⟨isGlobal, ·⟩) := by
  delta ofText?
  rw [hcut]
  dsimp only
  rw [hglobal]
  cases isGlobal with
  | true =>
    rw [if_pos rfl]
    dsimp only
    rw [husing]
  | false =>
    rw [if_neg Bool.false_ne_true]
    dsimp only
    rw [hrest rfl, husing]

namespace WrittenDirective

variable (d : WrittenDirective)

theorem isSolid : IsSolid (d.opening ++ ("using".toList ++ (d.body ++ [';']))) := by
  have husing : IsSolid ("using".toList ++ (d.body ++ [';'])) :=
    (isSolid_of_all (by simp) (by decide)).append (isSolid_of_all (by simp) (by decide)) d.body
  rw [opening]
  split
  next gap _ =>
    rw [List.append_assoc]
    exact (isSolid_of_all (by simp) (by decide)).append husing gap.chars
  next => exact husing

/-- The directive has no blanks around it, and no semicolon is cut off but the last one and those right before it. -/
theorem withoutSemicolons_trimBlank : UsingDirective.withoutSemicolons (trimBlank d.text) =
    String.ofList (d.opening ++ ("using".toList ++ d.body.rdropWhile (· = ';'))) := by
  have htrim : trimBlank d.text = d.text := by
    have hsolid := d.isSolid.trimBlanks (List.forall_mem_nil _) (List.forall_mem_nil _)
    rw [List.nil_append, List.append_nil] at hsolid
    rw [text, trimBlank_ofList, hsolid]
  have hword : (d.opening ++ "using".toList).rdropWhile (· = ';') = d.opening ++ "using".toList := by
    have hlast : d.opening ++ "using".toList = (d.opening ++ "usin".toList) ++ ['g'] := by simp
    rw [hlast, List.rdropWhile_concat_neg _ _ _ (by decide)]
  have hcut : (d.opening ++ ("using".toList ++ (d.body ++ [';']))).rdropWhile (· = ';') =
      d.opening ++ ("using".toList ++ d.body.rdropWhile (· = ';')) := by
    rw [← List.append_assoc, ← List.append_assoc, List.rdropWhile_concat_pos _ _ _ (by decide),
      rdropWhile_append hword, List.append_assoc]
  rw [htrim, UsingDirective.withoutSemicolons, text, String.toList_ofList, ← hcut]
  rfl

theorem afterGlobal?_opening (cs : List Char) :
    UsingDirective.afterGlobal? (String.ofList (d.opening ++ ("using".toList ++ cs))) =
      if d.globalGap?.isSome then some (String.ofList ("using".toList ++ cs)) else none := by
  rw [opening, UsingDirective.afterGlobal?]
  cases d.globalGap? with
  | some gap =>
    obtain ⟨g, gs, hgap⟩ := List.exists_cons_of_ne_nil gap.nonempty
    have hblank : isBlank g = true := gap.areBlank g (hgap ▸ List.mem_cons_self)
    have hhead : (gap.chars ++ ("using".toList ++ cs)).head?.any isBlank = true := by
      rw [hgap]
      exact hblank
    have hdrop : (gap.chars ++ ("using".toList ++ cs)).dropWhile isBlank = "using".toList ++ cs := by
      rw [List.dropWhile_append_of_pos gap.areBlank]
      exact List.dropWhile_cons_of_neg (by decide)
    dsimp only
    rw [List.append_assoc, stripOpening?_append]
    dsimp only
    rw [String.toList_ofList, if_pos hhead, trimBlankStart, String.toList_ofList, hdrop, Option.isSome_some, if_pos rfl]
  | none =>
    have hother : ∀ rest, "using".toList ++ cs ≠ "global".toList ++ rest := fun rest h => by
      have hhead : some 'u' = some 'g' := congrArg List.head? h
      exact absurd hhead (by decide)
    dsimp only
    rw [List.nil_append, stripOpening?_eq_none hother]
    rfl

/-- Where a directive is about something with no semicolon in it and no blanks around it, only that is left. -/
theorem trimBlank_body (hsign : ';' ∉ d.target.written) (hsolid : IsSolid d.target.written) :
    trimBlank (String.ofList (d.body.rdropWhile (· = ';'))) = String.ofList d.target.written := by
  have hbody : ∀ c ∈ d.body, decide (c = ';') = false := fun c hc => decide_eq_false fun heq => by
    subst heq
    rcases List.mem_append.mp hc with hc | hc
    · rcases List.mem_append.mp hc with hc | hc
      · exact absurd (d.gap.areBlank _ hc) (by decide)
      · exact hsign hc
    · exact absurd (d.beforeSemicolon.areBlank _ hc) (by decide)
  rw [rdropWhile_of_none hbody, trimBlank_ofList, body,
    hsolid.trimBlanks d.gap.areBlank d.beforeSemicolon.areBlank]

/-- The equals sign behind another name is neither a semicolon nor a blank, so it is left. -/
theorem equalsSign_mem_trimBlanks_body {name : NameSegment} {before after : Blanks} {aliased : List Char}
    (htarget : d.target = .otherName name before after aliased) :
    '=' ∈ trimBlanks (d.body.rdropWhile (· = ';')) := by
  have hwritten : (DirectiveTarget.otherName name before after aliased).written =
      name.chars ++ before.chars ++ '=' :: (after.chars ++ aliased) := rfl
  have hsplit : d.body = (d.gap.chars ++ name.chars ++ before.chars ++ ['=']) ++
      (after.chars ++ aliased ++ d.beforeSemicolon.chars) := by
    rw [body, htarget, hwritten]
    simp only [List.append_assoc, List.cons_append, List.nil_append]
  refine TypeExpr.mem_trimBlanks (by decide) ?_
  rw [hsplit, rdropWhile_append (List.rdropWhile_concat_neg _ _ _ (by decide))]
  exact List.mem_append_left _ (List.mem_append_right _ (List.mem_singleton_self _))

/-- Blanks and semicolons at the ends of what a directive is about do not matter. -/
theorem namespaceIn?_body :
    UsingDirective.namespaceIn? (trimBlank (String.ofList (d.body.rdropWhile (· = ';')))) = d.target.read? := by
  have hname : ∀ name : WrittenName, ';' ∉ name.written := fun name => name.sign_not_mem (by simp)
  cases htarget : d.target with
  | namespaceName name =>
    have htrim := d.trimBlank_body
    rw [htarget] at htrim
    rw [htrim (hname name) name.isSolid]
    exact namespaceIn?_written name
  | membersOf gap name =>
    have hsign : ';' ∉ "static".toList ++ gap.chars ++ name.written := by
      rw [List.mem_append, List.mem_append, not_or, not_or]
      exact ⟨⟨by decide, fun h => absurd (gap.areBlank _ h) (by decide)⟩, hname name⟩
    have hsolid : IsSolid ("static".toList ++ gap.chars ++ name.written) := by
      rw [List.append_assoc]
      exact (isSolid_of_all (by simp) (by decide)).append name.isSolid gap.chars
    have htrim := d.trimBlank_body
    rw [htarget] at htrim
    rw [htrim hsign hsolid]
    exact namespaceIn?_static name gap
  | otherName name before after aliased =>
    rw [trimBlank_ofList, namespaceIn?_of_mem (d.equalsSign_mem_trimBlanks_body htarget)]
    rfl

theorem ofText?_text : UsingDirective.ofText? d.text = d.target.read?.map (⟨d.globalGap?.isSome, ·⟩) := by
  have hglobal := d.afterGlobal?_opening (d.body.rdropWhile (· = ';'))
  have husing := stripOpening?_append "using" (d.body.rdropWhile (· = ';'))
  rw [← d.namespaceIn?_body]
  refine UsingDirective.ofText?_eq d.withoutSemicolons_trimBlank hglobal (fun hnone => ?_) husing
  rw [opening]
  cases hgap : d.globalGap? with
  | some gap => rw [hgap] at hnone; cases hnone
  | none => rfl

end WrittenDirective

namespace UsingDirective

theorem isQualifiedIdentifier_of_namespaceIn? {target name : String} (h : namespaceIn? target = some name) :
    isQualifiedIdentifier name = true := by
  rw [namespaceIn?] at h
  split at h
  next => cases h
  next =>
    dsimp only at h
    split at h
    next hqualified => exact Option.some.inj h ▸ hqualified
    next => cases h

/-- What is read from the text of a directive for a namespace or with another name, and what is read at most. -/
structure ReadsNames : Prop where
  plain : ∀ (d : WrittenDirective) (name : WrittenName), d.target = .namespaceName name →
    ofText? d.text = some ⟨d.globalGap?.isSome, name.dotted⟩
  otherName : ∀ (d : WrittenDirective) (name : NameSegment) (before after : Blanks) (aliased : List Char),
    d.target = .otherName name before after aliased → ofText? d.text = none
  qualified : ∀ (text : String) (u : UsingDirective), ofText? text = some u →
    isQualifiedIdentifier u.namespaceName = true

theorem readsNames : ReadsNames where
  plain d name h := by
    rw [d.ofText?_text, h]
    rfl
  otherName d name before after aliased h := by
    rw [d.ofText?_text, h]
    rfl
  qualified text u h := by
    delta ofText? at h
    dsimp only at h
    split at h
    next target _ =>
      obtain ⟨name, hname, rfl⟩ := Option.map_eq_some_iff.mp h
      exact isQualifiedIdentifier_of_namespaceIn? hname
    next => cases h

end UsingDirective

/-- The text between two texts is at the place between them. -/
theorem extent?_append (before text after : String) :
    extent? (before ++ text ++ after) before.length (before.length + text.length) = some text := by
  have hlength : before.length ≤ before.length + text.length ∧
      before.length + text.length ≤ (before ++ text ++ after).length := by
    simp only [String.length_append]
    omega
  rw [extent?, if_pos hlength, Nat.add_sub_cancel_left, String.toList_append, String.toList_append, List.append_assoc,
    List.drop_left' String.length_toList, List.take_left' String.length_toList, String.ofList_toList]

/-- The node of a directive that stands behind some text. -/
def WrittenDirective.node (before : String) (d : WrittenDirective) (children : List SyntaxNode) : SyntaxNode :=
  .mk ⟨"using_directive", none, true, false, before.length, before.length + d.text.length⟩ children

/-- **Blanks do not matter for what a directive brings into scope**, apart from those behind `static`. One that names a
namespace brings that one, for the whole program or for what is behind it, and one that gives another name brings
nothing. -/
theorem directive_brings (before after : String) (file? : Option String) (s : Surroundings) (d : WrittenDirective)
    (children : List SyntaxNode) :
    (d.node before children).collect (before ++ d.text ++ after) file? s = match d.target.read? with
      | some name =>
        if d.globalGap?.isSome then (⟨[], [name]⟩, s) else (.empty, { s with usings := addMissing s.usings name })
      | none => (.empty, s) := by
  have hcollect : (d.node before children).collect (before ++ d.text ++ after) file? s =
      collectDirective s ((d.node before children).text (before ++ d.text ++ after)) := by
    rw [WrittenDirective.node, SyntaxNode.collect]
    rfl
  have htext : (d.node before children).text (before ++ d.text ++ after) = d.text := by
    rw [SyntaxNode.text, WrittenDirective.node]
    exact congrArg (·.getD "") (extent?_append before d.text after)
  rw [hcollect, htext]
  unfold collectDirective
  rw [d.ofText?_text]
  cases d.target.read? <;> rfl

/-- A directive for the members of a type that is named on a line of its own. -/
def membersOnNextLine : WrittenDirective where
  globalGap? := none
  gap := ⟨⟨[' '], List.all_eq_true.mp (by decide)⟩, by simp⟩
  target := .membersOf ⟨⟨['\n'], List.all_eq_true.mp (by decide)⟩, by simp⟩
    ⟨none, ⟨['A'], by decide +kernel⟩, [⟨⟨[], by simp⟩, ⟨[], by simp⟩, ⟨['B'], by decide +kernel⟩⟩], by decide⟩
  beforeSemicolon := ⟨[], by simp⟩

/-- It is read as one for a namespace whose name starts with the keyword. -/
theorem keyword_taken_for_name : membersOnNextLine.text = "using static\nA.B;" ∧
    (∃ gap name, membersOnNextLine.target = .membersOf gap name) ∧
    UsingDirective.ofText? membersOnNextLine.text = some ⟨false, "staticA.B"⟩ ∧
    (Model.ofFiles [⟨none, membersOnNextLine.text ++ "\nclass C \x7b \x7d\n"⟩]).declarations.map
      (fun d => (d.name, d.usings)) = [("C", ["staticA.B"])] :=
  ⟨by decide +kernel, ⟨_, _, rfl⟩, by decide +kernel, by decide +kernel⟩

end ContractStubs

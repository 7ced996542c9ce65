import ContractStubs.Proofs.TypeRef.Marks

/-!
# The types that references denote

The text of a reference tells which type is meant: what its name refers to, and the marks at the end of the text around
it (`TypeRef.denoted`). A substitution puts the marks of a type parameter behind those of its argument, and the marks at
the end of the text are then read together. So the substituted reference denotes the type with the denoted arguments in
it exactly where the arrays that meet at each replaced type parameter can change places
(`TypeRef.denoted_substitute_iff`).
-/

namespace ContractStubs

open DenotedType TypeExpr

namespace TypeRef

/-- The marks at the end of the text. -/
def marks (r : TypeRef) : List TypeMark := (cutMarks r.toText.toList).2

mutual

/-- The type that the text of a reference denotes. -/
def denoted : TypeRef → DenotedType
  | ⟨name, ns, args, suffix, names, kind⟩ =>
    marked (.element kind ns (String.ofList (cutMarks name.toList).1) (denotedAll args) names)
      (marks ⟨name, ns, args, suffix, names, kind⟩)

/-- The types that references denote. -/
def denotedAll : List TypeRef → List DenotedType
  | [] => []
  | r :: rs => denoted r :: denotedAll rs

end

/-- The name ends in no mark, and behind the name are marks. -/
def IsMarkedName (r : TypeRef) : Prop := cutMarks r.name.toList = (r.name.toList, []) ∧ IsSuffix r.suffix

instance (r : TypeRef) : Decidable r.IsMarkedName :=
  inferInstanceAs (Decidable (_ ∧ isMarks false r.suffix.toList = true))

/-- The type parameters in the reference are names with marks behind them. -/
def NamesParameters (r : TypeRef) : Prop := r.Everywhere fun u => u.kind = .typeParameter → u.IsMarkedName

/-- For a type parameter in the reference an argument is put. -/
inductive Puts (f : String → Option TypeRef) : (r parameter argument : TypeRef) → Prop where
  /-- The reference is the type parameter. -/
  | here {r a : TypeRef} (hk : r.kind = .typeParameter) (ha : f r.name = some a) : Puts f r r a
  /-- The type parameter stands in an argument of a reference that stays. -/
  | inside {r arg p a : TypeRef} (hkept : ¬r.IsReplaced f) (harg : arg ∈ r.args) (hputs : Puts f arg p a) : Puts f r p a

variable {f : String → Option TypeRef} {r : TypeRef}

theorem denotedAll_eq_map (rs : List TypeRef) : denotedAll rs = rs.map denoted := by
  induction rs with
  | nil => rfl
  | cons r rs ih => rw [denotedAll, ih, List.map_cons]

theorem denoted_eq (r : TypeRef) :
    r.denoted = marked (.element r.kind r.namespaceName? (String.ofList (cutMarks r.name.toList).1)
      (r.args.map denoted) r.elementNames) r.marks := by
  obtain ⟨name, ns, args, suffix, names, kind⟩ := r
  rw [denoted, denotedAll_eq_map]

/-! ## The marks of a reference -/

theorem toText_withSuffix_append (a : TypeRef) (suffix : String) :
    (a.withSuffix (a.suffix ++ suffix)).toText = a.toText ++ suffix := by
  obtain ⟨name, ns, args, marks, names, kind⟩ := a
  cases kind <;> cases args <;> simp only [withSuffix, toText, String.append_assoc]

/-- **Marks put behind a reference** come behind those that its text ends with. -/
theorem marks_withSuffix_append (a : TypeRef) {suffix : String} {ms : List TypeMark}
    (h : readMarks none suffix.toList = some ms) : (a.withSuffix (a.suffix ++ suffix)).marks = a.marks ++ ms := by
  rw [marks, toText_withSuffix_append, String.toList_append, cutMarks_append h]
  rfl

/-- A text without marks is closed by a name, an angle bracket or a parenthesis. -/
theorem marks_eq (r : TypeRef) :
    r.marks = if r.kind ≠ .tuple ∧ r.args = [] then (cutMarks (r.name.toList ++ r.suffix.toList)).2
      else (cutMarks r.suffix.toList).2 := by
  obtain ⟨name, ns, args, suffix, names, kind⟩ := r
  have hclosed : ∀ front : String, ∀ close : String, ∀ c, close.toList = [c] → c ∉ suffixChars → isBlank c = false →
      (cutMarks (front ++ close ++ suffix).toList).2 = (cutMarks suffix.toList).2 := by
    intro front close c hc hmark hblank
    rw [String.toList_append, String.toList_append, hc, List.append_assoc, List.singleton_append,
      cutMarks_of_stop hmark hblank]
  rw [marks]
  by_cases hk : kind = .tuple
  · subst hk
    rw [toText, hclosed _ ")" ')' rfl (by decide) (by decide)]
    simp
  · cases args with
    | nil =>
      have htext : toText ⟨name, ns, [], suffix, names, kind⟩ = name ++ suffix := by
        cases kind <;> first | exact absurd rfl hk | rfl
      rw [htext, String.toList_append, if_pos ⟨hk, rfl⟩]
    | cons arg args =>
      have htext : toText ⟨name, ns, arg :: args, suffix, names, kind⟩ =
          name ++ "<" ++ commaSeparated (toText arg :: argTexts args) ++ ">" ++ suffix := by
        cases kind <;> first | exact absurd rfl hk | rfl
      rw [htext, hclosed _ ">" '>' rfl (by decide) (by decide), if_neg (by simp)]

/-- Only whether there are arguments matters to the marks. -/
theorem marks_of_args {args : List TypeRef} (h : args = [] ↔ r.args = []) : marks { r with args } = r.marks := by
  rw [marks_eq, marks_eq]
  simp only [h]

/-- The marks of a name with marks are its suffix. -/
theorem marks_of_isMarkedName (h : r.IsMarkedName) {ms : List TypeMark}
    (hread : readMarks none r.suffix.toList = some ms) : r.marks = ms := by
  have hsuffix := cutMarks_append hread []
  rw [List.nil_append] at hsuffix
  rw [marks_eq, cutMarks_append hread, h.1, hsuffix]
  simp [cutMarks]

/-! ## Substitution -/

theorem puts_iff_of_isReplaced {p a s : TypeRef} (hk : r.kind = .typeParameter) (hs : f r.name = some s) :
    r.Puts f p a ↔ p = r ∧ a = s := by
  constructor
  · intro h
    cases h with
    | here _ ha => exact ⟨rfl, Option.some.inj (ha.symm.trans hs)⟩
    | inside hkept => exact absurd ⟨hk, s, hs⟩ hkept
  · rintro ⟨rfl, rfl⟩
    exact .here hk hs

theorem puts_iff_of_kept {p a : TypeRef} (h : ¬r.IsReplaced f) : r.Puts f p a ↔ ∃ arg ∈ r.args, arg.Puts f p a := by
  constructor
  · intro hputs
    cases hputs with
    | here hk ha => exact absurd ⟨hk, a, ha⟩ h
    | inside _ harg hputs => exact ⟨_, harg, hputs⟩
  · rintro ⟨arg, harg, hputs⟩
    exact .inside h harg hputs

/-- The types that arguments denote. -/
def denotedBy (f : String → Option TypeRef) (name : String) : Option DenotedType := (f name).map denoted

/-- Where an argument is put for a type parameter, the arrays at the end of the argument and those at the start of the
type parameter's marks have to change places. -/
theorem denoted_substitute_of_isReplaced {s : TypeRef} (hname : r.IsMarkedName) (hk : r.kind = .typeParameter)
    (hs : f r.name = some s) :
    (r.substitute f).denoted = r.denoted.replace (denotedBy f) ↔ RanksCommute s.marks r.marks := by
  obtain ⟨ms, hms⟩ := exists_readMarks_of_isSuffix hname.2
  have hput : (r.substitute f).denoted = marked (.element s.kind s.namespaceName?
      (String.ofList (cutMarks s.name.toList).1) (s.args.map denoted) s.elementNames) (s.marks ++ ms) := by
    rw [substitute_of_some f hk hs, denoted_eq, marks_withSuffix_append s hms]
    rfl
  have hmeant : r.denoted.replace (denotedBy f) = s.denoted.marked ms := by
    have hfound : denotedBy f (String.ofList (cutMarks r.name.toList).1) = some s.denoted := by
      rw [hname.1, String.ofList_toList, denotedBy, hs, Option.map_some]
    rw [denoted_eq, replace_marked, hk, replace_element_of_some hfound, marks_of_isMarkedName hname hms]
  rw [hput, hmeant, denoted_eq s, marked_append_iff, marks_of_isMarkedName hname hms]

/-- A reference that stays denotes what is meant where its arguments do. -/
theorem denoted_substitute_of_kept (hnames : r.NamesParameters) (hkept : ¬r.IsReplaced f) :
    (r.substitute f).denoted = r.denoted.replace (denotedBy f) ↔
      ∀ arg ∈ r.args, (arg.substitute f).denoted = arg.denoted.replace (denotedBy f) := by
  have hsame : r.kind = .typeParameter → denotedBy f (String.ofList (cutMarks r.name.toList).1) = none := fun hk => by
    rw [((everywhere_iff.mp hnames).1 hk).1, String.ofList_toList, denotedBy, eq_none_of_not_isReplaced hkept hk,
      Option.map_none]
  rw [substitute_of_kept f hkept, denoted_eq, denoted_eq r, replace_marked, replace_element_of_kept hsame,
    marks_of_args List.map_eq_nil_iff, marked_inj, element.injEq, List.map_map, List.map_map]
  simp only [true_and, and_true]
  exact List.map_inj_left

/-- **Substitution and the types that are meant**: what a substituted reference denotes is what the reference denotes
with the denoted arguments in it exactly where the arrays that meet at each replaced type parameter, those at the end of
the argument and those at the start of the type parameter's marks, can change places. -/
theorem denoted_substitute_iff (f : String → Option TypeRef) : ∀ r : TypeRef, r.NamesParameters →
    ((r.substitute f).denoted = r.denoted.replace (denotedBy f) ↔
      ∀ p a, r.Puts f p a → RanksCommute a.marks p.marks) :=
  induction fun r ih hnames => by
    by_cases hreplaced : r.IsReplaced f
    · obtain ⟨hk, s, hs⟩ := hreplaced
      rw [denoted_substitute_of_isReplaced ((everywhere_iff.mp hnames).1 hk) hk hs]
      simp only [puts_iff_of_isReplaced hk hs, and_imp, forall_eq_apply_imp_iff, forall_eq]
    · have hargs := (everywhere_iff.mp hnames).2
      rw [denoted_substitute_of_kept hnames hreplaced]
      simp only [puts_iff_of_kept hreplaced]
      constructor
      · rintro h p a ⟨arg, harg, hputs⟩
        exact (ih arg harg (hargs arg harg)).mp (h arg harg) p a hputs
      · exact fun h arg harg => (ih arg harg (hargs arg harg)).mpr fun p a hputs => h p a ⟨arg, harg, hputs⟩

/-- A list of two-dimensional arrays of two-dimensional arrays. -/
theorem grids_denoted :
    let grids : TypeRef := .named "Ns" "List" [(bare .typeParameter "T").withSuffix "[,]?"]
    let f := fun name => if name = "T" then some ((bare .keyword "int").withSuffix "[,]") else none
    grids.NamesParameters ∧ (grids.substitute f).toText = "List<int[,][,]?>" ∧
      (grids.substitute f).denoted = grids.denoted.replace (denotedBy f) := by
  intro grids f
  have hnames : grids.NamesParameters := ⟨nofun, ⟨fun _ => by decide +kernel, trivial⟩, trivial⟩
  refine ⟨hnames, rfl, (denoted_substitute_iff f grids hnames).mpr fun p a h => ?_⟩
  obtain ⟨arg, harg, h⟩ := (puts_iff_of_kept fun h => absurd h.1 (by decide)).mp h
  obtain rfl := List.mem_singleton.mp harg
  obtain ⟨rfl, rfl⟩ := (puts_iff_of_isReplaced rfl rfl).mp h
  decide +kernel

/-- An array of two-dimensional arrays is written as a two-dimensional array of arrays. -/
theorem arrays_of_grids_not_denoted :
    let arrays := (bare .typeParameter "T").withSuffix "[]"
    let f := fun name => if name = "T" then some ((bare .keyword "int").withSuffix "[,]") else none
    (arrays.substitute f).toText = "int[,][]" ∧
      (arrays.substitute f).denoted ≠ arrays.denoted.replace (denotedBy f) ∧
      ((bare .keyword "int").withSuffix "[][,]").denoted = arrays.denoted.replace (denotedBy f) := by
  intro arrays f
  have hname : arrays.IsMarkedName := by decide +kernel
  exact ⟨rfl, mt (denoted_substitute_of_isReplaced hname rfl rfl).mp (by decide +kernel), rfl⟩

end TypeRef

end ContractStubs

import ContractStubs.Proofs.TypeExpr.Reading
import ContractStubs.Proofs.TypeRef.Places

/-!
# Marks behind a type

Array, nullable and pointer marks stand behind a type as text, and the text tells which type is meant: a question mark
or a star is about everything before it, while of arrays next to each other the leftmost is the outermost
(`DenotedType.marked`). So marks put behind marks do not always say what the marks said one after the other
(`DenotedType.marked_append_iff`). A substitution puts the marks of a type parameter behind those of its argument;
the substituted reference denotes what is meant exactly where the arrays that meet there can change places
(`TypeRef.denoted_substitute_iff`).
-/

namespace ContractStubs

/-- A mark behind a type. -/
inductive TypeMark where
  /-- A question mark. -/
  | nullable
  /-- A star. -/
  | pointer
  /-- A bracket with so many commas. -/
  | array (commas : Nat)
  deriving DecidableEq, Repr

/-- A type, told apart by how it is made up. -/
inductive DenotedType where
  /-- A type without marks: what its name refers to, its arguments, and the names of its elements. -/
  | element (kind : TypeRefKind) (namespaceName? : Option String) (name : String) (args : List DenotedType)
      (elementNames : List (Option String))
  /-- A type or nothing. -/
  | nullable (of : DenotedType)
  /-- A pointer to a type. -/
  | pointer (of : DenotedType)
  /-- An array of a type, with one dimension more than commas. -/
  | array (commas : Nat) (of : DenotedType)

namespace DenotedType

/-! ## Marks behind a type -/

/-- The arrays whose ranks are given, the leftmost outermost. -/
def inArrays (ranks : List Nat) (t : DenotedType) : DenotedType := ranks.foldr .array t

/-- The type with arrays whose ranks were read, and further marks behind them. -/
def markedFrom : (ranks : List Nat) → DenotedType → List TypeMark → DenotedType
  | ranks, t, [] => inArrays ranks t
  | ranks, t, .array commas :: ms => markedFrom (ranks ++ [commas]) t ms
  | ranks, t, .nullable :: ms => markedFrom [] (.nullable (inArrays ranks t)) ms
  | ranks, t, .pointer :: ms => markedFrom [] (.pointer (inArrays ranks t)) ms

/-- The type with marks behind it. -/
def marked (t : DenotedType) (ms : List TypeMark) : DenotedType := markedFrom [] t ms

/-- The ranks of the arrays that marks begin with. -/
def startRanks : List TypeMark → List Nat
  | .array commas :: ms => commas :: startRanks ms
  | _ => []

/-- The ranks of the arrays that marks end with, behind arrays whose ranks are given. -/
def endRanksFrom : (ranks : List Nat) → List TypeMark → List Nat
  | ranks, [] => ranks
  | ranks, .array commas :: ms => endRanksFrom (ranks ++ [commas]) ms
  | _, .nullable :: ms => endRanksFrom [] ms
  | _, .pointer :: ms => endRanksFrom [] ms

/-- The ranks of the arrays that marks end with. -/
def endRanks (ms : List TypeMark) : List Nat := endRanksFrom [] ms

/-- Nothing changes where the arrays that the first marks end with and those that the second ones begin with change
places. -/
def RanksCommute (first second : List TypeMark) : Prop :=
  endRanks first ++ startRanks second = startRanks second ++ endRanks first

instance (first second : List TypeMark) : Decidable (RanksCommute first second) :=
  inferInstanceAs (Decidable (_ = _))

theorem inArrays_append (ranks others : List Nat) (t : DenotedType) :
    inArrays (ranks ++ others) t = inArrays ranks (inArrays others t) := List.foldr_append

theorem inArrays_inj {t : DenotedType} : ∀ {ranks others : List Nat}, ranks.length = others.length →
    (inArrays ranks t = inArrays others t ↔ ranks = others)
  | [], [], _ => by simp
  | rank :: ranks, other :: others, h => by
    have hrest := inArrays_inj (t := t) (Nat.succ.inj h)
    simp only [inArrays, List.foldr_cons, array.injEq, List.cons.injEq] at hrest ⊢
    rw [hrest]

theorem inArrays_left_inj (ranks : List Nat) {t u : DenotedType} : inArrays ranks t = inArrays ranks u ↔ t = u := by
  induction ranks with
  | nil => exact Iff.rfl
  | cons rank ranks ih =>
    rw [← ih]
    simp only [inArrays, List.foldr_cons, array.injEq, true_and]

theorem markedFrom_inj (ms : List TypeMark) {ranks : List Nat} {t u : DenotedType} :
    markedFrom ranks t ms = markedFrom ranks u ms ↔ t = u := by
  induction ms generalizing ranks t u with
  | nil => exact inArrays_left_inj ranks
  | cons m ms ih =>
    cases m with
    | array commas => exact ih
    | nullable => rw [markedFrom, markedFrom, ih, nullable.injEq, inArrays_left_inj]
    | pointer => rw [markedFrom, markedFrom, ih, pointer.injEq, inArrays_left_inj]

theorem marked_inj {ms : List TypeMark} {t u : DenotedType} : t.marked ms = u.marked ms ↔ t = u := markedFrom_inj ms

/-- Arrays that are read on with the marks behind them, or put around the type first. -/
theorem markedFrom_append_ranks_iff (ms : List TypeMark) (ranks inner : List Nat) {t : DenotedType} :
    markedFrom (ranks ++ inner) t ms = markedFrom inner (inArrays ranks t) ms ↔
      ranks ++ (inner ++ startRanks ms) = (inner ++ startRanks ms) ++ ranks := by
  have hclosed : inArrays (ranks ++ inner) t = inArrays inner (inArrays ranks t) ↔ ranks ++ inner = inner ++ ranks := by
    rw [← inArrays_append, inArrays_inj (by simp [Nat.add_comm])]
  induction ms generalizing inner with
  | nil => simpa only [markedFrom, startRanks, List.append_nil] using hclosed
  | cons m ms ih =>
    cases m with
    | array commas =>
      have h := ih (inner ++ [commas]) (by rw [← inArrays_append, inArrays_inj (by simp; omega)])
      simpa only [markedFrom, startRanks, List.append_assoc, List.cons_append, List.nil_append] using h
    | nullable => simpa only [markedFrom, markedFrom_inj, nullable.injEq, startRanks, List.append_nil] using hclosed
    | pointer => simpa only [markedFrom, markedFrom_inj, pointer.injEq, startRanks, List.append_nil] using hclosed

theorem markedFrom_append_iff (first second : List TypeMark) {ranks : List Nat} {t : DenotedType} :
    markedFrom ranks t (first ++ second) = (markedFrom ranks t first).marked second ↔
      endRanksFrom ranks first ++ startRanks second = startRanks second ++ endRanksFrom ranks first := by
  induction first generalizing ranks t with
  | nil =>
    have h := markedFrom_append_ranks_iff second ranks [] (t := t)
    rwa [List.append_nil, List.nil_append] at h
  | cons m first ih => cases m <;> exact ih

/-- **Marks behind marks**: they say what the marks say one after the other exactly where the arrays that meet can
change places. -/
theorem marked_append_iff {t : DenotedType} {first second : List TypeMark} :
    t.marked (first ++ second) = (t.marked first).marked second ↔ RanksCommute first second :=
  markedFrom_append_iff first second

/-! ## Type parameters -/

mutual

/-- The type with the given types for type parameters. -/
def replace (f : String → Option DenotedType) : DenotedType → DenotedType
  | .element .typeParameter ns name args names =>
    match f name with
    | some t => t
    | none => .element .typeParameter ns name (replaceAll f args) names
  | .element kind ns name args names => .element kind ns name (replaceAll f args) names
  | .nullable t => .nullable (replace f t)
  | .pointer t => .pointer (replace f t)
  | .array commas t => .array commas (replace f t)

/-- The types of a list with the given types for type parameters. -/
def replaceAll (f : String → Option DenotedType) : List DenotedType → List DenotedType
  | [] => []
  | t :: ts => replace f t :: replaceAll f ts

end

variable {f : String → Option DenotedType}

theorem replaceAll_eq_map : ∀ ts : List DenotedType, replaceAll f ts = ts.map (replace f)
  | [] => rfl
  | t :: ts => by rw [replaceAll, replaceAll_eq_map ts, List.map_cons]

theorem replace_inArrays (ranks : List Nat) (t : DenotedType) :
    replace f (inArrays ranks t) = inArrays ranks (replace f t) := by
  induction ranks with
  | nil => rfl
  | cons rank ranks ih =>
    rw [inArrays, List.foldr_cons, replace, ← inArrays, ih]
    rfl

theorem replace_markedFrom (ms : List TypeMark) (ranks : List Nat) (t : DenotedType) :
    replace f (markedFrom ranks t ms) = markedFrom ranks (replace f t) ms := by
  induction ms generalizing ranks t with
  | nil => exact replace_inArrays ranks t
  | cons m ms ih => cases m <;> simp only [markedFrom, ih, replace, replace_inArrays]

/-- Marks stay behind what is put for a type parameter. -/
theorem replace_marked (t : DenotedType) (ms : List TypeMark) : replace f (t.marked ms) = (replace f t).marked ms :=
  replace_markedFrom ms [] t

theorem replace_element_of_some {ns : Option String} {name : String} {args : List DenotedType}
    {names : List (Option String)} {t : DenotedType} (h : f name = some t) :
    replace f (.element .typeParameter ns name args names) = t := by
  simp only [replace, h]

theorem replace_element_of_kept {kind : TypeRefKind} {ns : Option String} {name : String} {args : List DenotedType}
    {names : List (Option String)} (h : kind = .typeParameter → f name = none) :
    replace f (.element kind ns name args names) = .element kind ns name (args.map (replace f)) names := by
  by_cases hk : kind = .typeParameter
  · subst hk
    simp only [replace, h rfl, replaceAll_eq_map]
  · cases kind with
    | typeParameter => exact absurd rfl hk
    | _ => simp only [replace, replaceAll_eq_map]

end DenotedType

/-! ## Marks at the end of a text -/

/-- The marks that the characters are, with blanks anywhere, `commas?` being those of an open bracket. -/
def readMarks : (commas? : Option Nat) → List Char → Option (List TypeMark)
  | none, [] => some []
  | some _, [] => none
  | none, '?' :: cs => (readMarks none cs).map (.nullable :: ·)
  | none, '*' :: cs => (readMarks none cs).map (.pointer :: ·)
  | none, '[' :: cs => readMarks (some 0) cs
  | some commas, ',' :: cs => readMarks (some (commas + 1)) cs
  | some commas, ']' :: cs => (readMarks none cs).map (.array commas :: ·)
  | commas?, c :: cs => if isBlank c then readMarks commas? cs else none

/-- What stands before the longest ending that is marks, and these marks. -/
def cutMarks : List Char → List Char × List TypeMark
  | [] => ([], [])
  | c :: cs =>
    match readMarks none (c :: cs) with
    | some ms => ([], ms)
    | none => (c :: (cutMarks cs).1, (cutMarks cs).2)

section Reading

variable {c : Char} {cs ending : List Char} {ms : List TypeMark}

theorem readMarks_blank (commas? : Option Nat) (cs : List Char) (h : isBlank c = true) :
    readMarks commas? (c :: cs) = readMarks commas? cs := by
  have hne : c ≠ '?' ∧ c ≠ '*' ∧ c ≠ '[' ∧ c ≠ ',' ∧ c ≠ ']' := by
    refine ⟨?_, ?_, ?_, ?_, ?_⟩ <;> rintro rfl <;> exact absurd h (by decide)
  rw [readMarks.eq_def]
  split <;> simp_all

/-- A character that is no mark and no blank ends the marks. -/
theorem readMarks_of_notMem (commas? : Option Nat) (cs : List Char) (hmark : c ∉ TypeExpr.suffixChars)
    (hblank : isBlank c = false) : readMarks commas? (c :: cs) = none := by
  simp only [TypeExpr.suffixChars, List.mem_cons, List.not_mem_nil, or_false, not_or] at hmark
  rw [readMarks.eq_def]
  split <;> simp_all

/-- Marks are not the rest of a bracket. -/
theorem readMarks_some_of_readMarks (commas : Nat) (h : readMarks none ending = some ms) :
    readMarks (some commas) ending = none := by
  generalize hstart : (none : Option Nat) = commas? at h
  fun_induction readMarks commas? ending generalizing ms with
  | case1 => rfl
  | case2 | case6 | case7 => cases hstart
  | case3 cs | case4 cs | case5 cs =>
    rw [readMarks]
    · exact if_neg (by decide)
    all_goals simp
  | case8 commas? c cs _ _ _ _ _ hblank ih => rw [readMarks_blank _ _ hblank, ih hstart h]
  | case9 => cases h

/-- What is read of characters with marks behind them. -/
theorem readMarks_append (h : readMarks none ending = some ms) (commas? : Option Nat) (cs : List Char) :
    readMarks commas? (cs ++ ending) = (readMarks commas? cs).map (· ++ ms) := by
  fun_induction readMarks commas? cs with
  | case1 => simpa using h
  | case2 commas => simpa using readMarks_some_of_readMarks commas h
  | case3 cs ih | case4 cs ih | case7 commas cs ih =>
    rw [List.cons_append, readMarks, ih, Option.map_map, Option.map_map]
    rfl
  | case5 cs ih | case6 commas cs ih => rw [List.cons_append, readMarks, ih]
  | case8 commas? c cs _ _ _ _ _ hblank ih => rw [List.cons_append, readMarks_blank _ _ hblank, ih]
  | case9 commas? c cs h1 h2 h3 h4 h5 hblank =>
    rw [List.cons_append, readMarks, if_neg hblank, Option.map_none]
    all_goals assumption

theorem readMarks_of_stop (commas? : Option Nat) (front : List Char) (hmark : c ∉ TypeExpr.suffixChars)
    (hblank : isBlank c = false) : readMarks commas? (front ++ c :: cs) = none := by
  fun_induction readMarks commas? front with
  | case1 | case2 => exact readMarks_of_notMem _ cs hmark hblank
  | case3 front ih | case4 front ih | case7 commas front ih => rw [List.cons_append, readMarks, ih, Option.map_none]
  | case5 front ih | case6 commas front ih => rw [List.cons_append, readMarks, ih]
  | case8 commas? d front _ _ _ _ _ h ih => rw [List.cons_append, readMarks_blank _ _ h, ih]
  | case9 commas? d front h1 h2 h3 h4 h5 h =>
    rw [List.cons_append, readMarks, if_neg h]
    all_goals assumption

/-- A suffix is read as marks. -/
theorem isSome_readMarks_of_isMarks (inside : Bool) (cs : List Char) (h : TypeExpr.isMarks inside cs = true)
    (commas? : Option Nat) (hinside : commas?.isSome = inside) : (readMarks commas? cs).isSome := by
  fun_induction TypeExpr.isMarks inside cs generalizing commas? with
  | case1 =>
    obtain rfl : commas? = none := by simpa using hinside
    rfl
  | case2 cs ih | case3 cs ih =>
    obtain rfl : commas? = none := by simpa using hinside
    rw [readMarks, Option.isSome_map]
    exact ih h none rfl
  | case4 cs ih =>
    obtain rfl : commas? = none := by simpa using hinside
    exact ih h (some 0) rfl
  | case5 cs ih =>
    obtain ⟨commas, rfl⟩ := Option.isSome_iff_exists.mp hinside
    exact ih h (some (commas + 1)) rfl
  | case6 cs ih =>
    obtain ⟨commas, rfl⟩ := Option.isSome_iff_exists.mp hinside
    rw [readMarks, Option.isSome_map]
    exact ih h none rfl
  | case7 => cases h

/-- The marks that are read of a suffix. -/
theorem exists_readMarks_of_isSuffix {suffix : String} (h : TypeExpr.IsSuffix suffix) :
    ∃ ms, readMarks none suffix.toList = some ms :=
  Option.isSome_iff_exists.mp (isSome_readMarks_of_isMarks false _ h none rfl)

/-- **Marks put behind a text** come behind those that it ends with. -/
theorem cutMarks_append (h : readMarks none ending = some ms) : ∀ cs : List Char,
    cutMarks (cs ++ ending) = ((cutMarks cs).1, (cutMarks cs).2 ++ ms)
  | [] => by
    cases ending with
    | nil =>
      obtain rfl : [] = ms := Option.some.inj h
      rfl
    | cons c cs => simp only [List.nil_append, cutMarks, h]
  | c :: cs => by
    have hfirst := readMarks_append h none (c :: cs)
    have hrest := cutMarks_append h cs
    rw [List.cons_append] at hfirst ⊢
    cases hread : readMarks none (c :: cs) with
    | some read =>
      rw [hread, Option.map_some] at hfirst
      simp only [cutMarks, hread, hfirst]
    | none =>
      rw [hread, Option.map_none] at hfirst
      simp only [cutMarks, hread, hfirst, hrest]

/-- A character that is no mark and no blank stands before all marks at the end. -/
theorem cutMarks_of_stop (hmark : c ∉ TypeExpr.suffixChars) (hblank : isBlank c = false) : ∀ front : List Char,
    cutMarks (front ++ c :: cs) = (front ++ c :: (cutMarks cs).1, (cutMarks cs).2)
  | [] => by simp only [List.nil_append, cutMarks, readMarks_of_notMem none cs hmark hblank]
  | d :: front => by
    have hread : readMarks none ((d :: front) ++ c :: cs) = none := readMarks_of_stop none _ hmark hblank
    rw [List.cons_append] at hread ⊢
    simp only [cutMarks, hread, cutMarks_of_stop hmark hblank front, List.cons_append]

end Reading

end ContractStubs

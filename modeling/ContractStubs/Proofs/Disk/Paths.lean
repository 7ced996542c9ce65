import ContractStubs.Proofs.Disk.Children

/-!
# Paths by their parts

The order of paths is that of their parts, and a total one: of two paths with different parts one comes before the other
(`PathPart.eq_of_not_allBefore`), and a path that comes before a second one comes before all that this one comes before
(`PathPart.allBefore_trans`). The parts of a path tell where it leads (`Disk.placeOf_eq_foldl`), and plain names behind a
path are as many more parts, and as many more steps (`Disk.parts_foldl_join`, `Disk.placeOf_foldl_join`).
-/

namespace ContractStubs

/-! ## The order of parts -/

namespace PathPart

variable {a b c : PathPart} {as bs cs : List PathPart}

theorem not_before_self (a : PathPart) : a.before a = false := by
  cases a with
  | name s => exact decide_eq_false (String.lt_irrefl s)
  | _ => rfl

/-- A part comes before those of a higher rank, and a name before those that follow in the alphabet. -/
theorem before_iff : a.before b = true ↔ a.rank < b.rank ∨ ∃ s t, a = .name s ∧ b = .name t ∧ s < t := by
  constructor
  · intro h
    cases a <;> cases b <;>
      first | exact .inl (of_decide_eq_true h) | exact .inr ⟨_, _, rfl, rfl, of_decide_eq_true h⟩
  · rintro (h | ⟨s, t, rfl, rfl, h⟩)
    · cases a <;> cases b <;> first | exact decide_eq_true h | exact absurd h (Nat.lt_irrefl _)
    · exact decide_eq_true h

theorem before_trans (h : a.before b = true) (h' : b.before c = true) : a.before c = true := by
  rw [before_iff] at h h' ⊢
  rcases h with h | ⟨s, t, rfl, rfl, h⟩ <;> rcases h' with h' | ⟨t', u, hb, rfl, h'⟩
  · exact .inl (Nat.lt_trans h h')
  · subst hb
    exact .inl h
  · exact .inl h'
  · cases hb
    exact .inr ⟨s, u, rfl, rfl, String.lt_trans h h'⟩

/-- Of two different parts one comes before the other. -/
theorem eq_of_not_before (h : a.before b = false) (h' : b.before a = false) : a = b := by
  cases a <;> cases b
  case name.name s t => exact congrArg name (String.le_antisymm (of_decide_eq_false h') (of_decide_eq_false h))
  all_goals first | rfl | exact absurd h Bool.noConfusion | exact absurd h' Bool.noConfusion

theorem not_allBefore_self : ∀ as : List PathPart, allBefore as as = false
  | [] => rfl
  | a :: as => by rw [allBefore, if_pos rfl, not_allBefore_self as]

theorem allBefore_trans : ∀ {as bs cs : List PathPart}, allBefore as bs = true → allBefore bs cs = true →
    allBefore as cs = true
  | [], _ :: _, _ :: _, _, _ => rfl
  | a :: as, b :: bs, c :: cs, h, h' => by
    rw [allBefore] at h h' ⊢
    by_cases hab : a = b
    · subst hab
      rw [if_pos rfl] at h
      split
      next hac =>
        rw [if_pos hac] at h'
        exact allBefore_trans h h'
      next hac => rwa [if_neg hac] at h'
    · rw [if_neg hab] at h
      by_cases hbc : b = c
      · subst hbc
        rwa [if_neg hab]
      · rw [if_neg hbc] at h'
        have hac : a ≠ c := by
          rintro rfl
          exact Bool.false_ne_true ((not_before_self a).symm.trans (before_trans h h'))
        rw [if_neg hac]
        exact before_trans h h'

/-- Of two different lists of parts one comes before the other. -/
theorem eq_of_not_allBefore : ∀ {as bs : List PathPart}, allBefore as bs = false → allBefore bs as = false → as = bs
  | [], [], _, _ => rfl
  | a :: as, b :: bs, h, h' => by
    rw [allBefore] at h h'
    by_cases hab : a = b
    · subst hab
      rw [if_pos rfl] at h h'
      rw [eq_of_not_allBefore h h']
    · rw [if_neg hab] at h
      rw [if_neg (Ne.symm hab)] at h'
      exact absurd (eq_of_not_before h h') hab

theorem not_allBefore_of_allBefore (h : allBefore as bs = true) : allBefore bs as = false :=
  Bool.eq_false_iff.mpr fun h' => Bool.false_ne_true ((not_allBefore_self as).symm.trans (allBefore_trans h h'))

/-- What does not come after the next does not come after the one behind it. -/
theorem not_allBefore_trans (h : allBefore bs as = false) (h' : allBefore cs bs = false) : allBefore cs as = false := by
  refine Bool.eq_false_iff.mpr fun hca => ?_
  cases hab : allBefore as bs with
  | true => exact Bool.false_ne_true (h'.symm.trans (allBefore_trans hca hab))
  | false =>
    obtain rfl := eq_of_not_allBefore hab h
    exact Bool.false_ne_true (h'.symm.trans hca)

/-! ## Where parts lead -/

/-- The place to which a part leads from another one. -/
def step : Place → PathPart → Place
  | _, .root => []
  | place, .here => place
  | place, .up => place.dropLast
  | place, .name text => place ++ [text]

theorem foldl_step_names : ∀ (texts : List String) (place : Place),
    (texts.map PathPart.name).foldl step place = place ++ texts
  | [], place => (List.append_nil place).symm
  | text :: texts, place => by
    rw [List.map_cons, List.foldl_cons, foldl_step_names texts, step, List.append_assoc, List.singleton_append]

/-- Parts that are names are a list of names. -/
theorem exists_map_name : ∀ {parts : List PathPart}, (∀ part ∈ parts, ∃ text, part = .name text) →
    ∃ names : Place, parts = names.map .name
  | [], _ => ⟨[], rfl⟩
  | part :: parts, h => by
    obtain ⟨⟨text, rfl⟩, hrest⟩ := List.forall_mem_cons.mp h
    obtain ⟨names, rfl⟩ := exists_map_name hrest
    exact ⟨text :: names, rfl⟩

end PathPart

/-- A text between slashes that says neither to stay nor to go up is a name. -/
theorem Path.name_of_partOf? {piece : String} {index : Nat} {part : PathPart} (h : partOf? piece index = some part)
    (hpart : part ≠ .here ∧ part ≠ .up) : ∃ text, part = .name text := by
  rw [partOf?] at h
  split at h
  · cases h
  · split at h
    · split at h
      · exact absurd (Option.some.inj h).symm hpart.1
      · cases h
    · split at h
      · exact absurd (Option.some.inj h).symm hpart.2
      · exact ⟨piece, (Option.some.inj h).symm⟩

namespace Disk

variable {disk : Disk} {names : Place}

open PathPart (step foldl_step_names)

theorem walk_eq_foldl : ∀ (pieces : List String) (place : Place) (index : Nat), walk place pieces =
    ((pieces.zipIdx index).filterMap fun (piece, index) => Path.partOf? piece index).foldl step place
  | [], _, _ => rfl
  | piece :: pieces, place, index => by
    have ih := fun place => walk_eq_foldl pieces place (index + 1)
    rw [walk, List.zipIdx_cons, List.filterMap_cons]
    dsimp only
    rw [Path.partOf?]
    by_cases hempty : piece = ""
    · simp [hempty, ih]
    · by_cases hdot : piece = "."
      · by_cases hindex : index = 0 <;> simp [hdot, hindex, ih, step]
      · by_cases hup : piece = ".." <;> simp [hempty, hdot, hup, ih, step]

/-- **A path leads to where its parts say.** -/
theorem placeOf_eq_foldl (disk : Disk) (path : String) :
    disk.placeOf path = (Path.parts path).foldl step disk.workingDirectory := by
  rw [placeOf, origin, Path.parts, walk_eq_foldl _ _ 0, List.foldl_append]
  by_cases habsolute : Path.isAbsolute path = true
  · rw [if_pos habsolute, if_pos habsolute]
    rfl
  · rw [if_neg habsolute, if_neg habsolute]
    rfl

/-- Plain names behind a path are as many more parts of it. -/
theorem parts_foldl_join : ∀ {names : Place}, (∀ name ∈ names, IsPlainName name) → ∀ base : String,
    Path.parts (names.foldl Path.join base) = Path.parts base ++ names.map .name
  | [], _, base => (List.append_nil _).symm
  | name :: names, h, base => by
    obtain ⟨hname, hnames⟩ := List.forall_mem_cons.mp h
    rw [List.foldl_cons, parts_foldl_join hnames, hname.parts_join, List.append_assoc]
    rfl

/-- Plain names behind a path lead as many steps further. -/
theorem placeOf_foldl_join (h : ∀ name ∈ names, IsPlainName name) (disk : Disk) (base : String) :
    disk.placeOf (names.foldl Path.join base) = disk.placeOf base ++ names := by
  rw [placeOf_eq_foldl, parts_foldl_join h, List.foldl_append, foldl_step_names, ← placeOf_eq_foldl]

/-! ## Straight paths -/

/-- The path goes neither up nor starts with a dot: every part of it but the root is a name. -/
def IsStraight (path : String) : Prop := ∀ part ∈ Path.parts path, part ≠ .here ∧ part ≠ .up

instance (path : String) : Decidable (IsStraight path) := inferInstanceAs (Decidable (∀ part ∈ Path.parts path, _))

/-- A straight path is the names that lead from its start to where it leads. -/
theorem IsStraight.exists_names {path : String} (h : IsStraight path) (disk : Disk) : ∃ names : Place,
    Path.parts path = (if Path.isAbsolute path then [.root] else []) ++ names.map .name ∧
      disk.placeOf path = disk.origin path ++ names := by
  have hall : ∀ part ∈ (Path.pieces path).zipIdx.filterMap (fun (piece, index) => Path.partOf? piece index),
      ∃ text, part = .name text := fun part hpart => by
    obtain ⟨⟨piece, index⟩, -, hpiece⟩ := List.mem_filterMap.mp hpart
    exact Path.name_of_partOf? hpiece (h part (List.mem_append_right _ hpart))
  obtain ⟨names, hrest⟩ := PathPart.exists_map_name hall
  refine ⟨names, by rw [Path.parts, hrest], ?_⟩
  rw [placeOf, walk_eq_foldl _ _ 0, hrest, foldl_step_names]

end Disk

end ContractStubs

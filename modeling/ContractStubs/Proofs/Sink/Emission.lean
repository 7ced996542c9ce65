import ContractStubs.Sink.Emission
import Mathlib.Data.List.Basic

/-!
# What a sink is given

A sink is given the first of the files with one name and no other file, in the order of the batch (`emitAll_sink`), and
it is given all files where no two have the same name (`handedOn_of_nodup`). The summary has the names of the others
(`emitAll_duplicates`), so it has none exactly where no two names are the same (`emitAll_duplicates_eq_nil_iff`).
-/

namespace ContractStubs

/-- The files of a batch that are handed on after some names have come: the first of each further name. -/
def handedOn : (seen : List String) → List StubFile → List StubFile
  | _, [] => []
  | seen, f :: fs => if seen.contains f.identifier then handedOn seen fs else f :: handedOn (f.identifier :: seen) fs

section HandedOn

theorem handedOn_sublist : ∀ (seen : List String) (files : List StubFile), (handedOn seen files).Sublist files
  | _, [] => .slnil
  | seen, f :: fs => by
    rw [handedOn]
    split
    · exact (handedOn_sublist seen fs).cons f
    · exact (handedOn_sublist (f.identifier :: seen) fs).cons_cons f

theorem not_mem_of_mem_handedOn : ∀ {seen : List String} {files : List StubFile} {f : StubFile},
    f ∈ handedOn seen files → f.identifier ∉ seen
  | _, [], _, h => by cases h
  | seen, g :: gs, f, h => by
    rw [handedOn] at h
    split at h
    next => exact not_mem_of_mem_handedOn h
    next hg =>
      rcases List.mem_cons.mp h with rfl | h
      · simpa using hg
      · intro hf
        exact not_mem_of_mem_handedOn h (List.mem_cons_of_mem _ hf)

/-- No name is handed on twice. -/
theorem nodup_handedOn : ∀ (seen : List String) (files : List StubFile),
    ((handedOn seen files).map (·.identifier)).Nodup
  | _, [] => List.nodup_nil
  | seen, f :: fs => by
    rw [handedOn]
    split
    · exact nodup_handedOn seen fs
    · refine List.nodup_cons.mpr ⟨fun hmem => ?_, nodup_handedOn (f.identifier :: seen) fs⟩
      obtain ⟨g, hg, hname⟩ := List.mem_map.mp hmem
      exact not_mem_of_mem_handedOn hg (hname ▸ List.mem_cons_self)

/-- Each name that has not come before is handed on. -/
theorem exists_mem_handedOn : ∀ {seen : List String} {files : List StubFile} {f : StubFile}, f ∈ files →
    f.identifier ∉ seen → ∃ g ∈ handedOn seen files, g.identifier = f.identifier
  | _, [], _, h, _ => by cases h
  | seen, g :: gs, f, h, hseen => by
    rw [handedOn]
    rcases List.mem_cons.mp h with rfl | h
    · rw [if_neg (by simpa using hseen)]
      exact ⟨f, List.mem_cons_self, rfl⟩
    · split
      next => exact exists_mem_handedOn h hseen
      next =>
        by_cases hname : g.identifier = f.identifier
        · exact ⟨g, List.mem_cons_self, hname⟩
        · have hseen' : f.identifier ∉ g.identifier :: seen := fun hf =>
            (List.mem_cons.mp hf).elim (fun he => hname he.symm) hseen
          obtain ⟨g', hg', hname'⟩ := exists_mem_handedOn h hseen'
          exact ⟨g', List.mem_cons_of_mem _ hg', hname'⟩

/-- Files with different names are all handed on. -/
theorem handedOn_of_nodup : ∀ {seen : List String} {files : List StubFile}, (files.map (·.identifier)).Nodup →
    (∀ f ∈ files, f.identifier ∉ seen) → handedOn seen files = files
  | _, [], _, _ => rfl
  | seen, f :: fs, hnodup, hseen => by
    obtain ⟨hf, hfs⟩ := List.nodup_cons.mp hnodup
    obtain ⟨hhead, htail⟩ := List.forall_mem_cons.mp hseen
    rw [handedOn, if_neg (by simpa using hhead)]
    refine congrArg _ (handedOn_of_nodup hfs fun g hg hmem => ?_)
    rcases List.mem_cons.mp hmem with hname | hmem
    · exact hf (List.mem_map.mpr ⟨g, hg, hname⟩)
    · exact htail g hg hmem

end HandedOn

/-- The names of a batch that are not handed on after some names have come. -/
def heldBack : (seen names : List String) → List String
  | _, [] => []
  | seen, name :: names => if seen.contains name then name :: heldBack seen names else heldBack (name :: seen) names

/-- Nothing is held back where all names are different, and different from those that have come. -/
theorem heldBack_eq_nil_iff : ∀ {seen names : List String},
    heldBack seen names = [] ↔ names.Nodup ∧ ∀ name ∈ names, name ∉ seen
  | _, [] => by simp [heldBack]
  | seen, name :: names => by
    rw [heldBack, List.nodup_cons, List.forall_mem_cons]
    by_cases hseen : name ∈ seen
    · simp [hseen]
    · rw [if_neg (by simpa using hseen), heldBack_eq_nil_iff]
      constructor
      · rintro ⟨hnodup, hfresh⟩
        refine ⟨⟨?_, hnodup⟩, hseen, ?_⟩
        · intro hmem
          exact hfresh name hmem List.mem_cons_self
        · intro other hother hmem
          exact hfresh other hother (List.mem_cons_of_mem _ hmem)
      · rintro ⟨⟨hnot, hnodup⟩, -, hfresh⟩
        refine ⟨hnodup, fun other hother hmem => ?_⟩
        rcases List.mem_cons.mp hmem with rfl | hmem
        · exact hnot hother
        · exact hfresh other hother hmem

section Sink

variable {σ : Type} {step : SinkStep σ}

/-- The sink after it was given one more file. -/
def SinkStep.give (step : SinkStep σ) (sink : σ) (f : StubFile) : σ := (step sink f.identifier f.text).2

theorem foldl_emit_sink : ∀ (files : List StubFile) (e : Emission σ),
    (files.foldl (Emission.emit step) e).sink = (handedOn e.seen files).foldl step.give e.sink
  | [], _ => rfl
  | f :: fs, e => by
    rw [List.foldl_cons, foldl_emit_sink fs, handedOn, Emission.emit]
    split <;> rfl

/-- **The sink is given the first file of each name, and nothing else.** -/
theorem emitAll_sink (sink : σ) (files : List StubFile) :
    (emitAll step sink files).2 = (handedOn [] files).foldl step.give sink :=
  foldl_emit_sink files ⟨[], .empty, sink⟩

theorem foldl_emit_duplicates : ∀ (files : List StubFile) (e : Emission σ),
    (files.foldl (Emission.emit step) e).summary.duplicates =
      e.summary.duplicates ++ heldBack e.seen (files.map (·.identifier))
  | [], _ => (List.append_nil _).symm
  | f :: fs, e => by
    rw [List.foldl_cons, foldl_emit_duplicates fs, List.map_cons, heldBack, Emission.emit]
    split
    · simp
    · obtain ⟨answer, sink⟩ := step e.sink f.identifier f.text
      cases answer <;> rfl

/-- **The summary has the name of each file that is not handed on.** -/
theorem emitAll_duplicates (sink : σ) (files : List StubFile) :
    (emitAll step sink files).1.duplicates = heldBack [] (files.map (·.identifier)) :=
  foldl_emit_duplicates files ⟨[], .empty, sink⟩

theorem emitAll_duplicates_eq_nil_iff (sink : σ) (files : List StubFile) :
    (emitAll step sink files).1.duplicates = [] ↔ (files.map (·.identifier)).Nodup := by
  rw [emitAll_duplicates, heldBack_eq_nil_iff]
  simp

end Sink

end ContractStubs

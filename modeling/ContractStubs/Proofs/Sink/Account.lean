import ContractStubs.Proofs.Sink.Emission
import Mathlib.Data.List.Infix

/-!
# The account of a batch

Which calls a batch makes of a sink, and what becomes of the answers. A sink that keeps a record of its calls
(`SinkStep.recorded`) answers as it does without, so the record shows every call that is made of any sink: one for each
name of the batch, with the text of the first file of that name. The summary of the batch is told by the answers
(`emission_accounts_for_batch`).
-/

namespace ContractStubs

/-! ## First and further files -/

/-- The files of a batch, each with those that come before it. -/
def withEarlier (files : List StubFile) : List (List StubFile × StubFile) := files.inits.zip files

/-- A file before has the name already. -/
def isFurther (place : List StubFile × StubFile) : Bool := place.1.any fun g => g.identifier == place.2.identifier

/-- The files before which none has their name. -/
def firstFiles (files : List StubFile) : List StubFile :=
  ((withEarlier files).filter fun place => !isFurther place).map (·.2)

/-- The files before which one has their name. -/
def furtherFiles (files : List StubFile) : List StubFile := ((withEarlier files).filter isFurther).map (·.2)

section Places

variable {seen : List String} {f : StubFile}

theorem withEarlier_cons (f : StubFile) (fs : List StubFile) :
    withEarlier (f :: fs) = ([], f) :: (withEarlier fs).map fun place => (f :: place.1, place.2) := by
  rw [withEarlier, List.inits_cons, List.zip_cons_cons, List.zip_map_left]
  rfl

theorem map_snd_withEarlier (files : List StubFile) : (withEarlier files).map (·.2) = files :=
  List.map_snd_zip (by simp)

/-- A name has come before, be it before the batch or in it. -/
def isSeen (seen : List String) (place : List StubFile × StubFile) : Bool :=
  seen.contains place.2.identifier || isFurther place

theorem isSeen_head (seen : List String) (f : StubFile) : isSeen seen ([], f) = seen.contains f.identifier :=
  Bool.or_false _

/-- What comes behind a file has come before if it is seen once the name of the file is. -/
theorem isSeen_behind (seen : List String) (f : StubFile) (place : List StubFile × StubFile) :
    isSeen seen (f :: place.1, place.2) = isSeen (f.identifier :: seen) place := by
  simp only [isSeen, isFurther, List.any_cons, List.contains_cons, Bool.beq_comm (a := place.2.identifier)]
  ac_rfl

/-- A name that has come once more is no news. -/
theorem isSeen_cons_of_contains (h : seen.contains f.identifier = true) :
    isSeen (f.identifier :: seen) = isSeen seen := by
  funext place
  rw [isSeen, isSeen, List.contains_cons]
  by_cases he : place.2.identifier = f.identifier
  · rw [he, h, Bool.or_true]
  · rw [beq_false_of_ne he, Bool.false_or]

/-- Some of the files of a longer batch. -/
theorem filter_withEarlier_cons (keep : List StubFile × StubFile → Bool) (f : StubFile) (fs : List StubFile) :
    ((withEarlier (f :: fs)).filter keep).map (·.2) = (if keep ([], f) then [f] else []) ++
      ((withEarlier fs).filter fun place => keep (f :: place.1, place.2)).map (·.2) := by
  rw [withEarlier_cons, List.filter_cons, List.filter_map]
  split <;> simp [Function.comp_def]

/-- What is handed on after some names have come is what has not come before. -/
theorem handedOn_eq : ∀ (seen : List String) (files : List StubFile),
    handedOn seen files = ((withEarlier files).filter fun place => !isSeen seen place).map (·.2)
  | _, [] => rfl
  | seen, f :: fs => by
    rw [handedOn, filter_withEarlier_cons]
    simp only [isSeen_head, isSeen_behind]
    by_cases h : seen.contains f.identifier = true
    · rw [h, isSeen_cons_of_contains h]
      exact handedOn_eq seen fs
    · rw [Bool.eq_false_iff.mpr h]
      exact congrArg (f :: ·) (handedOn_eq (f.identifier :: seen) fs)

/-- What is held back after some names have come is the names of what has come before. -/
theorem heldBack_eq : ∀ (seen : List String) (files : List StubFile), heldBack seen (files.map (·.identifier)) =
    (((withEarlier files).filter (isSeen seen)).map (·.2)).map (·.identifier)
  | _, [] => rfl
  | seen, f :: fs => by
    rw [List.map_cons, heldBack, filter_withEarlier_cons]
    simp only [isSeen_head, isSeen_behind]
    by_cases h : seen.contains f.identifier = true
    · rw [h, isSeen_cons_of_contains h]
      exact congrArg (f.identifier :: ·) (heldBack_eq seen fs)
    · rw [Bool.eq_false_iff.mpr h]
      exact heldBack_eq (f.identifier :: seen) fs

theorem handedOn_nil (files : List StubFile) : handedOn [] files = firstFiles files := handedOn_eq [] files

theorem heldBack_nil (files : List StubFile) :
    heldBack [] (files.map (·.identifier)) = (furtherFiles files).map (·.identifier) := heldBack_eq [] files

/-- Every file is a first one or a further one. -/
theorem firstFiles_append_furtherFiles (files : List StubFile) :
    (firstFiles files ++ furtherFiles files).Perm files := by
  have hparts := List.filter_append_perm isFurther (withEarlier files)
  have hfiles := (List.perm_append_comm.trans hparts).map (·.2)
  rwa [List.map_append, map_snd_withEarlier] at hfiles

end Places

/-! ## Calls -/

/-- A call of a sink and what the sink answered. -/
structure SinkCall where
  name : String
  text : String
  answer : Except Failure Unit
  deriving Repr, Inhabited

namespace SinkCall

/-- The sink took the file. -/
def isTaken (c : SinkCall) : Bool := c.answer.isOk

/-- The name of the file with the reason, if the sink refused it. -/
def refusal? (c : SinkCall) : Option (String × String) :=
  match c.answer with
  | .ok () => none
  | .error failure => some (c.name, failure.message)

/-- The names of refused files are those of the calls that were not taken. -/
theorem map_fst_filterMap_refusal? : ∀ calls : List SinkCall,
    (calls.filterMap refusal?).map (·.1) = (calls.filter fun c => !c.isTaken).map (·.name)
  | [] => rfl
  | ⟨_, _, .ok ()⟩ :: calls => map_fst_filterMap_refusal? calls
  | ⟨name, _, .error _⟩ :: calls => congrArg (name :: ·) (map_fst_filterMap_refusal? calls)

end SinkCall

namespace SinkStep

variable {σ : Type}

/-- The calls when a sink is given some files one after the other. -/
def callsFor (step : SinkStep σ) : σ → List StubFile → List SinkCall
  | _, [] => []
  | sink, f :: fs =>
    ⟨f.identifier, f.text, (step sink f.identifier f.text).1⟩ :: callsFor step (step.give sink f) fs

/-- The sink that keeps a record of its calls. -/
def recorded (step : SinkStep σ) : SinkStep (σ × List SinkCall) := fun (sink, calls) name text =>
  let (answer, sink) := step sink name text
  (answer, sink, calls ++ [⟨name, text, answer⟩])

theorem map_callsFor (step : SinkStep σ) : ∀ (sink : σ) (files : List StubFile),
    (step.callsFor sink files).map (fun c => (c.name, c.text)) = files.map fun f => (f.identifier, f.text)
  | _, [] => rfl
  | sink, f :: fs => congrArg ((f.identifier, f.text) :: ·) (map_callsFor step (step.give sink f) fs)

theorem names_callsFor (step : SinkStep σ) (sink : σ) (files : List StubFile) :
    (step.callsFor sink files).map (·.name) = files.map (·.identifier) := by
  simpa [Function.comp_def] using congrArg (List.map (·.1)) (step.map_callsFor sink files)

end SinkStep

section Batch

variable {σ : Type} {step : SinkStep σ} {f : StubFile}

theorem emit_of_seen {e : Emission σ} (h : e.seen.contains f.identifier = true) : e.emit step f =
    ⟨e.seen, { e.summary with duplicates := e.summary.duplicates ++ [f.identifier] }, e.sink⟩ := if_pos h

theorem emit_of_new {e : Emission σ} (h : ¬e.seen.contains f.identifier = true) : e.emit step f =
    ⟨f.identifier :: e.seen, e.summary.record f.identifier (step e.sink f.identifier f.text).1, step.give e.sink f⟩ :=
  if_neg h

/-- The record of a batch has the calls for what is handed on; it changes nothing else. -/
theorem foldl_emit_recorded (step : SinkStep σ) : ∀ (files : List StubFile) (e : Emission σ) (calls : List SinkCall),
    files.foldl (Emission.emit step.recorded) ⟨e.seen, e.summary, (e.sink, calls)⟩ =
      ⟨(files.foldl (Emission.emit step) e).seen, (files.foldl (Emission.emit step) e).summary,
        ((files.foldl (Emission.emit step) e).sink, calls ++ step.callsFor e.sink (handedOn e.seen files))⟩
  | [], e, calls => by simp [handedOn, SinkStep.callsFor]
  | f :: fs, e, calls => by
    rw [List.foldl_cons, List.foldl_cons, handedOn]
    by_cases h : e.seen.contains f.identifier = true
    · have hrec : Emission.emit step.recorded ⟨e.seen, e.summary, (e.sink, calls)⟩ f = _ := emit_of_seen h
      rw [hrec, emit_of_seen h, if_pos h]
      exact foldl_emit_recorded step fs ⟨e.seen, _, e.sink⟩ calls
    · have hrec : Emission.emit step.recorded ⟨e.seen, e.summary, (e.sink, calls)⟩ f = _ := emit_of_new h
      rw [hrec, emit_of_new h, if_neg h, SinkStep.callsFor, List.append_cons]
      exact foldl_emit_recorded step fs ⟨f.identifier :: e.seen, _, step.give e.sink f⟩ _

/-- What a batch reports as taken and as refused is told by the answers to its calls. -/
theorem foldl_emit_answers (step : SinkStep σ) : ∀ (files : List StubFile) (e : Emission σ),
    let calls := step.callsFor e.sink (handedOn e.seen files)
    (files.foldl (Emission.emit step) e).summary.emitted =
        e.summary.emitted ++ (calls.filter (·.isTaken)).map (·.name) ∧
      (files.foldl (Emission.emit step) e).summary.refused =
        e.summary.refused ++ calls.filterMap SinkCall.refusal?
  | [], e => by simp [handedOn, SinkStep.callsFor]
  | f :: fs, e => by
    intro calls
    have ih := foldl_emit_answers step fs (e.emit step f)
    rw [List.foldl_cons, ih.1, ih.2]
    by_cases h : e.seen.contains f.identifier = true
    · simp only [calls, handedOn, if_pos h, emit_of_seen h, and_self]
    · simp only [calls, handedOn, if_neg h, emit_of_new h, SinkStep.callsFor]
      rcases (step e.sink f.identifier f.text).1 with failure | ⟨⟨⟩⟩
      · simp [EmissionSummary.record, SinkCall.isTaken, SinkCall.refusal?, Except.isOk, Except.toBool]
      · simp [EmissionSummary.record, SinkCall.isTaken, List.filterMap_cons, SinkCall.refusal?, Except.isOk,
          Except.toBool]

/-- The summary tells what became of each file of a batch for which a sink got these calls. -/
structure EmissionSummary.AccountsFor (s : EmissionSummary) (files : List StubFile) (calls : List SinkCall) : Prop where
  /-- The calls are those for the first files, in their order and with their texts. -/
  calls_eq : calls.map (fun c => (c.name, c.text)) = (firstFiles files).map fun f => (f.identifier, f.text)
  /-- Each name of the batch has one call. -/
  nodup : (calls.map (·.name)).Nodup
  mem_iff : ∀ name, name ∈ calls.map (·.name) ↔ name ∈ files.map (·.identifier)
  emitted : s.emitted = (calls.filter (·.isTaken)).map (·.name)
  refused : s.refused = calls.filterMap SinkCall.refusal?
  /-- Each of these names is emitted or refused, and not both. -/
  partition : (s.emitted ++ s.refused.map (·.1)).Perm (calls.map (·.name))
  /-- All other files are reported by their names. -/
  duplicates : s.duplicates = (furtherFiles files).map (·.identifier)
  length_eq : s.emitted.length + s.refused.length + s.duplicates.length = files.length

/-- The record of a batch has the calls for the first files. -/
theorem emitAll_recorded (sink : σ) (files : List StubFile) : emitAll step.recorded (sink, []) files =
    ((emitAll step sink files).1, (emitAll step sink files).2, step.callsFor sink (firstFiles files)) := by
  have hrun := foldl_emit_recorded step files ⟨[], .empty, sink⟩ []
  rw [handedOn_nil, List.nil_append] at hrun
  exact congrArg (fun e => (e.summary, e.sink)) hrun

/-- The names that a sink is called with are those of the batch, each once. -/
theorem mem_names_callsFor (sink : σ) (files : List StubFile) (name : String) :
    name ∈ (step.callsFor sink (firstFiles files)).map (·.name) ↔ name ∈ files.map (·.identifier) := by
  rw [SinkStep.names_callsFor, ← handedOn_nil, List.mem_map, List.mem_map]
  constructor
  · rintro ⟨f, hf, hname⟩
    exact ⟨f, (handedOn_sublist [] files).subset hf, hname⟩
  · rintro ⟨f, hf, rfl⟩
    exact exists_mem_handedOn hf List.not_mem_nil

theorem accountsFor_callsFor (step : SinkStep σ) (sink : σ) (files : List StubFile) :
    (emitAll step sink files).1.AccountsFor files (step.callsFor sink (firstFiles files)) := by
  have hanswers := foldl_emit_answers step files ⟨[], .empty, sink⟩
  rw [handedOn_nil] at hanswers
  have hemitted : (emitAll step sink files).1.emitted = _ := hanswers.1
  have hrefused : (emitAll step sink files).1.refused = _ := hanswers.2
  have hduplicates : (emitAll step sink files).1.duplicates = _ :=
    (emitAll_duplicates sink files).trans (heldBack_nil files)
  have hpartition : ((emitAll step sink files).1.emitted ++ (emitAll step sink files).1.refused.map (·.1)).Perm
      ((step.callsFor sink (firstFiles files)).map (·.name)) := by
    rw [hemitted, hrefused, EmissionSummary.empty, List.nil_append, List.nil_append,
      SinkCall.map_fst_filterMap_refusal?, ← List.map_append]
    exact (List.filter_append_perm _ _).map _
  refine ⟨step.map_callsFor sink _, ?_, mem_names_callsFor sink files, hemitted, hrefused, hpartition, hduplicates, ?_⟩
  · rw [SinkStep.names_callsFor, ← handedOn_nil]
    exact nodup_handedOn [] files
  · have hcalls := hpartition.length_eq
    have hfiles := (firstFiles_append_furtherFiles files).length_eq
    rw [SinkStep.names_callsFor] at hcalls
    simp only [List.length_append, List.length_map] at hcalls hfiles
    rw [hcalls, hduplicates, List.length_map, hfiles]

/-- There is one account of a batch and its calls. -/
theorem EmissionSummary.AccountsFor.unique {s t : EmissionSummary} {files : List StubFile} {calls : List SinkCall}
    (h : s.AccountsFor files calls) (h' : t.AccountsFor files calls) : s = t := by
  obtain ⟨emitted, duplicates, refused⟩ := s
  obtain ⟨emitted', duplicates', refused'⟩ := t
  rw [EmissionSummary.mk.injEq]
  exact ⟨h.emitted.trans h'.emitted.symm, h.duplicates.trans h'.duplicates.symm, h.refused.trans h'.refused.symm⟩

/-- **A batch is one call of the sink for each name, and the summary tells the answers.** -/
theorem emission_accounts_for_batch (step : SinkStep σ) (sink : σ) (files : List StubFile) :
    ∃ calls, emitAll step.recorded (sink, []) files =
        ((emitAll step sink files).1, (emitAll step sink files).2, calls) ∧
      (emitAll step sink files).1.AccountsFor files calls :=
  ⟨_, emitAll_recorded sink files, accountsFor_callsFor step sink files⟩

end Batch

end ContractStubs

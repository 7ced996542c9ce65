import ContractStubs.Proofs.Fingerprint.Overlooked
import ContractStubs.Proofs.Samples

/-!
# The work on the stack of a fingerprint

A fingerprint is made turn by turn. Each turn takes a declaration from a stack; if its id was not met before, the
declaration is found and the interfaces that its bases may be go on the stack, however often they are there already.
A declaration is put on the stack once for each base that names it of each declaration that is found, so the work ends
(`Worklist.endsAfter_reached`), and it finds exactly what names lead to (`Program.work_finds_named`).
-/

namespace ContractStubs

/-- How far the work on a stack has come. -/
structure Worklist where
  /-- The ids that were met. -/
  visited : List Nat
  /-- The declarations that were found, the first one first. -/
  found : List Declaration
  /-- The declarations that are still to be looked at, the one that was put there last first. -/
  stack : List Declaration
  deriving DecidableEq, Repr, Inhabited

namespace Worklist

/-- The work before its first turn. -/
def start (starts : List Declaration) : Worklist := ⟨[], [], starts.reverse⟩

/-- The work after one more turn, as long as there is something on the stack. -/
def next? (ds : List Declaration) : Worklist → Option Worklist
  | ⟨_, _, []⟩ => none
  | ⟨visited, found, d :: stack⟩ =>
    if d.id ∈ visited then some ⟨visited, found, stack⟩
    else some ⟨d.id :: visited, found ++ [d], possibleBases ds d ++ stack⟩

/-- The work ends after so many turns, and has found these declarations. -/
inductive EndsAfter (ds : List Declaration) : Nat → Worklist → List Declaration → Prop where
  | done {w : Worklist} : w.next? ds = none → EndsAfter ds 0 w w.found
  | turn {w v : Worklist} {turns : Nat} {found : List Declaration} : w.next? ds = some v → EndsAfter ds turns v found →
      EndsAfter ds (turns + 1) w found

/-- How often declarations are put on the stack as possible bases of these. -/
def pushes (ds found : List Declaration) : Nat := (found.flatMap (possibleBases ds)).length

variable {ds : List Declaration} {visited : List Nat} {found stack : List Declaration} {d : Declaration}

/-- A declaration whose id was met is passed over. -/
theorem reached_of_mem (h : d.id ∈ visited) (fuel : Nat) :
    reached ds fuel visited (d :: stack) = reached ds fuel visited stack := by
  cases fuel with
  | zero => rfl
  | succ fuel => rw [reached, reached, List.dropWhile_cons_of_pos (by simpa using h)]

/-- A declaration whose id was not met comes next. -/
theorem reached_of_not_mem (h : d.id ∉ visited) (fuel : Nat) : reached ds (fuel + 1) visited (d :: stack) =
    d :: reached ds fuel (d.id :: visited) (possibleBases ds d ++ stack) := by
  rw [reached, List.dropWhile_cons_of_neg (by simpa using h)]

/-- **The work ends with what is reached.** A turn leaves fewer declarations that were not met, or as many and a lower
stack. There are as many turns as declarations are put on the stack. -/
theorem endsAfter_reached (fuel : Nat) (visited : List Nat) (found : List Declaration) : ∀ stack : List Declaration,
    (unvisited ds visited).length ≤ fuel → (∀ d ∈ stack, d ∈ ds) →
      EndsAfter ds (stack.length + pushes ds (reached ds fuel visited stack)) ⟨visited, found, stack⟩
        (found ++ reached ds fuel visited stack)
  | [], _, _ => by
    have hnil : reached ds fuel visited [] = [] := by cases fuel <;> rfl
    rw [hnil, List.append_nil]
    exact .done rfl
  | d :: stack, hfuel, hstack => by
    obtain ⟨hd, hstack⟩ := List.forall_mem_cons.mp hstack
    by_cases hmet : d.id ∈ visited
    · have hrest := endsAfter_reached fuel visited found stack hfuel hstack
      rw [reached_of_mem hmet, List.length_cons, Nat.add_right_comm]
      exact .turn (if_pos hmet) hrest
    · have hless := length_unvisited_cons hd hmet
      obtain ⟨fuel, rfl⟩ : ∃ n, fuel = n + 1 := ⟨fuel - 1, by omega⟩
      have hbases : ∀ e ∈ possibleBases ds d ++ stack, e ∈ ds := fun e he =>
        (List.mem_append.mp he).elim (fun he => (mem_of_mem_possibleBases he).1) (hstack e)
      have hrest := endsAfter_reached fuel (d.id :: visited) (found ++ [d]) (possibleBases ds d ++ stack)
        (by omega) hbases
      have hturns : (d :: stack).length +
            pushes ds (d :: reached ds fuel (d.id :: visited) (possibleBases ds d ++ stack)) =
          (possibleBases ds d ++ stack).length +
            pushes ds (reached ds fuel (d.id :: visited) (possibleBases ds d ++ stack)) + 1 := by
        simp only [pushes, List.flatMap_cons, List.length_cons, List.length_append]
        omega
      rw [reached_of_not_mem hmet, hturns, List.append_cons]
      exact .turn (if_neg hmet) hrest
termination_by stack => (fuel, stack.length)

end Worklist

namespace Program

variable {p : Program}

/-- **The work of a fingerprint ends and finds exactly what names lead to**: the declarations of the targets, and with
each declaration the interfaces that its bases name, each once. What the fingerprint is made of are the texts of these,
in the order in which they are found, behind the settings and the texts of the type's own declarations. The ids are the
places of the declarations, as in all models that are read (`Model.isNumbered_ofJson`, `Model.isNumbered_ofFiles`). -/
theorem work_finds_named (hm : p.model.IsNumbered) (depth : Nat) (options : List String) (r : StubRequest) :
    ∃ turns found,
      Worklist.EndsAfter p.model.declarations turns (.start (r.interfaces.flatMap p.declarationsOf)) found ∧
        turns = (r.interfaces.flatMap p.declarationsOf).length + Worklist.pushes p.model.declarations found ∧
        (∀ d, d ∈ found ↔ p.NamedFrom r.interfaces d) ∧ (found.map (·.id)).Nodup ∧
        (p.provider depth).fingerprintParts options r =
          options ++ ((p.provider depth).withIds r.target.declarations).map Declaration.fingerprintPart ++
            found.map Declaration.fingerprintPart := by
  have hfuel : (unvisited p.model.declarations []).length ≤
      (r.interfaces.flatMap p.declarationsOf).length + p.model.declarations.length :=
    Nat.le_trans (List.length_filter_le _ _) (Nat.le_add_left _ _)
  have hends := Worklist.endsAfter_reached _ [] [] (r.interfaces.flatMap p.declarationsOf).reverse hfuel
    mem_of_mem_starts
  rw [List.length_reverse, List.nil_append] at hends
  exact ⟨_, p.reachedBy r, hends, rfl, fun d => mem_reachedBy_iff hm, nodup_reached, rfl⟩

/-- Two interfaces, each of which has both as bases, one of them twice. -/
def entangled : Program := .ofModel (.ofList [
  { interfaceNamed none "ILeft" with
    baseTypes := [.named "IRight" [] "", .named "ILeft" [] "", .named "IRight" [] ""] },
  { interfaceNamed none "IRight" with baseTypes := [.named "ILeft" [] "", .named "IRight" [] ""] }]) []

/-- A request that asks for one of them twice. -/
def entangledRequest : StubRequest := workerAsking 2 [.named none "ILeft" [], .named none "ILeft" []]

/-- Two declarations are put on the stack at first and five as possible bases, and each interface is found once. -/
theorem entangled_found_once :
    entangled.model.IsNumbered ∧ ∃ turns found, Worklist.EndsAfter entangled.model.declarations turns
        (.start (entangledRequest.interfaces.flatMap entangled.declarationsOf)) found ∧
      turns = 7 ∧ found.length = 2 ∧ ∀ d ∈ entangled.model.declarations, d ∈ found := by
  have hm : entangled.model.IsNumbered := Model.isNumbered_ofList _
  obtain ⟨turns, found, hends, hturns, hmem, hnodup, -⟩ := work_finds_named hm 2 [] entangledRequest
  have hsame : found.Perm (entangled.reachedBy entangledRequest) :=
    (List.perm_ext_iff_of_nodup hnodup.of_map nodup_reached.of_map).mpr fun d =>
      (hmem d).trans (mem_reachedBy_iff hm).symm
  have hpushes : Worklist.pushes entangled.model.declarations found =
      Worklist.pushes entangled.model.declarations (entangled.reachedBy entangledRequest) := (hsame.flatMap_right _).length_eq
  have hall : ∀ d ∈ entangled.model.declarations, d ∈ entangled.reachedBy entangledRequest := by decide +kernel
  refine ⟨hm, turns, found, hends, ?_, ?_, fun d hd => hsame.mem_iff.mpr (hall d hd)⟩
  · rw [hturns, hpushes]
    decide +kernel
  · rw [hsame.length_eq]
    decide +kernel

end Program

end ContractStubs

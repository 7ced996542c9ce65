import ContractStubs.Declaration.Json
import ContractStubs.Proofs.Json.Record
import ContractStubs.Source.File

/-!
# The ids of declarations are their places

Both ways to get a model number its declarations (`Model.isNumbered_ofFiles`, `Model.isNumbered_ofJson`), so an id
stands for one declaration and the order of the ids is the order of the declarations.
-/

namespace ContractStubs

namespace Model

/-- The id of each declaration is its place. -/
def IsNumbered (m : Model) : Prop := ∀ (i : Nat) (d : Declaration), m.declarations[i]? = some d → d.id = i

theorem id_of_getElem?_number : ∀ {ds : List Declaration} {next i : Nat} {d : Declaration},
    (number next ds)[i]? = some d → d.id = next + i
  | [], _, _, _, h => by simp [number] at h
  | e :: ds, next, 0, d, h => by
    rw [number, List.getElem?_cons_zero] at h
    cases h
    rfl
  | e :: ds, next, i + 1, d, h => by
    rw [number, List.getElem?_cons_succ] at h
    rw [id_of_getElem?_number h]
    omega

theorem isNumbered_ofList (ds : List Declaration) : (ofList ds).IsNumbered := fun i d h => by
  rw [id_of_getElem?_number h, Nat.zero_add]

theorem isNumbered_ofJson {j : Json} {m : Model} (h : ofJson j = .ok m) : m.IsNumbered := by
  obtain ⟨ds, -, rfl⟩ := Json.map_eq_ok.mp h
  exact isNumbered_ofList ds

theorem isNumbered_ofFiles (files : List SourceFile) : (ofFiles files).IsNumbered := isNumbered_ofList _

namespace IsNumbered

variable {m : Model} (hm : m.IsNumbered)

include hm

theorem get?_id {d : Declaration} (hd : d ∈ m.declarations) : m.get? d.id = some d := by
  obtain ⟨i, hi⟩ := List.mem_iff_getElem?.mp hd
  rw [get?, hm i d hi, hi]

/-- An id stands for one declaration. -/
theorem eq_of_id_eq {d e : Declaration} (hd : d ∈ m.declarations) (he : e ∈ m.declarations) (h : d.id = e.id) :
    d = e := by
  have hget := hm.get?_id hd
  rw [h, hm.get?_id he] at hget
  exact (Option.some.inj hget).symm

/-- The order of the ids is the order of the declarations. -/
theorem pairwise_id : m.declarations.Pairwise fun d e => d.id < e.id := by
  rw [List.pairwise_iff_getElem]
  intro i j hi hj hij
  rw [hm i _ (List.getElem?_eq_getElem hi), hm j _ (List.getElem?_eq_getElem hj)]
  exact hij

theorem nodup : m.declarations.Nodup := by
  apply hm.pairwise_id.imp
  intro d e hlt he
  subst he
  exact Nat.lt_irrefl _ hlt

end IsNumbered

end Model

end ContractStubs

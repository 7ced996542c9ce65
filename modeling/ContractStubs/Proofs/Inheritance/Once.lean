import ContractStubs.Proofs.Inheritance.Search
import ContractStubs.Proofs.Lists
import ContractStubs.Proofs.Samples
import Mathlib.Data.List.Nodup

/-!
# Inherited members, each once

A search that ends has visited some interfaces and found the members of each of them once. It keeps the visited
interfaces apart by their texts, which leave out the namespaces of type arguments. So it visits every interface that is
inherited from exactly where no two of them have one text (`members_once_iff`); `repositories` is a program where two
do, and the members of one are lost.
-/

namespace ContractStubs

namespace Program

variable {p : Program} {r : TypeRef}

/-- **Each visited interface contributes its members once, under its own name, and nothing else is found; all that is
inherited from is visited exactly where texts differ.** -/
theorem members_once_iff {depth : Nat} {ms : List InterfaceMember} (h : p.membersWithin? depth r = some (.ok ms)) :
    ∃ visited : List TypeRef, visited.Nodup ∧ ms = visited.flatMap p.declaredMembers ∧
      (∀ s ∈ visited, p.Inherits r s ∧ ms.filter (fun m => m.declaringInterface = s) = p.declaredMembers s) ∧
      ((∀ s, p.Inherits r s → s ∈ visited) ↔ p.TextsDiffer r) := by
  obtain ⟨visited, hv, rfl⟩ := members_of_visited h
  have hex := visit_explores hv
  have htexts : (texts visited).Nodup := hex.nodup List.nodup_nil
  have hnodup : visited.Nodup := List.Nodup.of_map _ htexts
  have hsub : ∀ s ∈ visited, p.Inherits r s := fun s hs => hex.inherits_of_mem hs
  refine ⟨visited, hnodup, rfl, fun s hs => ⟨hsub s hs, ?_⟩, fun hall s t hs ht he => ?_, fun hdiff s hs => ?_⟩
  · exact filter_flatMap_of_mem (fun _ _ => declaringInterface_of_mem) hnodup hs
  · exact List.inj_on_of_nodup_map htexts (hall s hs) (hall t ht) he
  · exact hex.mem_of_textsDiffer hdiff hs

/-! ## Two programs -/

/-- Bases that are written twice, in a circle, and with different arguments. -/
def circle : Program := .ofModel (.ofList [
  genericSource none "ISource",
  { interfaceNamed none "ILeft" with
    baseTypes := [.named "ISource" [.named "int" [] ""] "", .named "IAll" [] ""] },
  { interfaceNamed none "IAll" with
    baseTypes := [.named "ILeft" [] "", .named "ISource" [.named "string" [] ""] "",
      .named "ISource" [.named "int" [] ""] ""] }]) []

theorem circle_members_once :
    circle.membersWithin? 5 (.named none "IAll" []) =
        some (.ok [getOf none "ISource" (.bare .keyword "int"), getOf none "ISource" (.bare .keyword "string")]) ∧
      ∃ visited : List TypeRef, visited.Nodup ∧
        [getOf none "ISource" (.bare .keyword "int"), getOf none "ISource" (.bare .keyword "string")] =
          visited.flatMap circle.declaredMembers ∧
        (∀ s ∈ visited, circle.Inherits (.named none "IAll" []) s ∧
          [getOf none "ISource" (.bare .keyword "int"), getOf none "ISource" (.bare .keyword "string")].filter
            (fun m => m.declaringInterface = s) = circle.declaredMembers s) ∧
        ((∀ s, circle.Inherits (.named none "IAll" []) s → s ∈ visited) ↔
          circle.TextsDiffer (.named none "IAll" [])) := by
  have h : circle.membersWithin? 5 (.named none "IAll" []) =
      some (.ok [getOf none "ISource" (.bare .keyword "int"), getOf none "ISource" (.bare .keyword "string")]) := rfl
  exact ⟨h, members_once_iff h⟩

/-- An interface whose bases are one generic interface for two types of the same name. -/
def repositories : Program := .ofModel (.ofList [
  genericSource (some "Data") "IRepository",
  { interfaceNamed (some "Shop") "Customer" with kind := .classType },
  { interfaceNamed (some "Bank") "Customer" with kind := .classType },
  { interfaceNamed (some "Data") "IBoth" with
    baseTypes := [.named "IRepository" [.named "Shop.Customer" [] ""] "",
      .named "IRepository" [.named "Bank.Customer" [] ""] ""] }]) []

/-- A second constructed interface of one text: it is inherited from, and its members are not found. -/
theorem repositories_lose_members :
    repositories.Inherits (.named (some "Data") "IBoth" [])
        (.named (some "Data") "IRepository" [.named (some "Bank") "Customer" []]) ∧
      repositories.declaredMembers (.named (some "Data") "IRepository" [.named (some "Bank") "Customer" []]) =
        [getOf (some "Data") "IRepository" (.named (some "Bank") "Customer" [])] ∧
      repositories.membersWithin? 3 (.named (some "Data") "IBoth" []) =
        some (.ok [getOf (some "Data") "IRepository" (.named (some "Shop") "Customer" [])]) :=
  ⟨.base (.self (by decide)) (by decide) (by decide), rfl, rfl⟩

end Program

end ContractStubs

import ContractStubs.Proofs.Binding.Rereading
import ContractStubs.Proofs.Declaration.Read
import ContractStubs.Proofs.Inheritance.Search
import ContractStubs.Proofs.Namespace.Set
import ContractStubs.Proofs.Request.Grouping
import ContractStubs.Stub.Source

/-!
# The types in a generated text

Where all type expressions of a program were read from text (`Model.IsRead`), every type that a stub file is written
with was looked up by the program's binder, all of its nodes or as a verbatim text (`Binder.Written`): the targets of
requests, the interfaces that are inherited from, and the types of their members.
-/

namespace ContractStubs

open TypeExpr

namespace Binder

/-- The reference was looked up by the binder, with type parameters replaced or not; or it is a verbatim text. -/
def Written (b : Binder) (r : TypeRef) : Prop :=
  r.Everywhere b.Gives ∨ parse r.name = .verbatim r.name ∧ r = .bare .verbatim r.name

variable {b : Binder} {scope : Scope} {r : TypeRef}

theorem written_bind (hb : b.IsNormal) (scope : Scope) (text : String) : b.Written (b.bind scope (parse text)) := by
  rcases isShaped_of_parse text with h | ⟨-, h⟩
  · exact .inl (gives_bind hb scope _ h)
  · have hback := parse_toText_parse text
    rw [h, toText] at hback
    rw [h, bind]
    exact .inr ⟨hback, rfl⟩

theorem Written.substitute {f : String → Option TypeRef} (hf : ∀ name s, f name = some s → s.Everywhere b.Gives)
    (h : b.Written r) : b.Written (r.substitute f) := by
  rcases h with h | ⟨hparse, h⟩
  · exact .inl (gives_substitute hf h)
  · have hkept : (TypeRef.bare .verbatim r.name).substitute f = .bare .verbatim r.name :=
      TypeRef.substitute_of_ne_typeParameter f (by simp [TypeRef.bare])
    rw [h, hkept]
    exact .inr ⟨hparse, rfl⟩

theorem Written.everywhere (h : b.Written r) (hk : r.kind ≠ .verbatim) : r.Everywhere b.Gives :=
  h.resolve_right fun hv => hk (by rw [hv.2]; rfl)

theorem toText_verbatim (text : String) : (TypeRef.bare .verbatim text).toText = text := by
  rw [TypeRef.bare, TypeRef.toText]
  · exact String.append_empty
  · simp

/-- A written type is looked up from its text exactly where each of its names denotes what it stands for. -/
theorem Written.bind_parse_toText_iff (hb : b.IsNormal) (h : b.Written r)
    (hused : ∀ ns ∈ r.namespaces, ns ∈ scope.usings) :
    b.bind scope (parse r.toText) = r ↔ r.Everywhere (b.Denotes scope) := by
  rcases h with h | ⟨hparse, h⟩
  · exact Binder.bind_parse_toText_iff hb h hused
  · have htext : r.toText = r.name := by
      rw [h]
      exact toText_verbatim r.name
    refine iff_of_true ?_ ?_
    · rw [htext, hparse, bind, ← h]
    · rw [h, TypeRef.everywhere_iff]
      exact ⟨trivial, by simp [TypeRef.bare]⟩

end Binder

namespace Program

variable {p : Program} {r s : TypeRef} {m : InterfaceMember}

theorem binder_isNormal (p : Program) : p.binder.IsNormal := by
  intro name arity
  refine Bool.eq_false_iff.mpr fun h => ?_
  obtain ⟨d, -, hd⟩ := List.mem_map.mp (List.contains_iff_mem.mp h)
  have hns : d.namespaceName?.filter (· ≠ "") = some "" := congrArg DeclarationKey.namespaceName? hd
  simp [Option.filter_eq_some_iff] at hns

/-! ## From interfaces to their members -/

theorem written_typeIn (scope : Scope) (ds : List Declaration) (hr : r.Everywhere p.binder.Gives) (text : String) :
    p.binder.Written (p.typeIn scope ds r (parse text)) :=
  (Binder.written_bind p.binder_isNormal scope text).substitute fun _ _ h =>
    (TypeRef.everywhere_iff.mp hr).2 _ (mem_args_of_argumentOf? h)

theorem isRead_of_mem {d : Declaration} (hp : p.model.IsRead) (hd : d ∈ p.declarationsOf r) : d.IsRead :=
  hp d (mem_declarationsOf.mp hd).2.1

/-- **All interfaces that a written one inherits from were looked up, node by node.** -/
theorem Inherits.everywhere (hp : p.model.IsRead) (hr : p.binder.Written r) (h : p.Inherits r s) :
    s.Everywhere p.binder.Gives := by
  induction h with
  | self hi => exact hr.everywhere (by simp [kind_of_isInterface hi])
  | @base s t hs ht hi ih =>
    obtain ⟨-, d, hd, e, he, rfl⟩ := mem_bases_iff.mp ht
    obtain ⟨text, rfl⟩ := (isRead_of_mem hp hd).baseTypes e he
    exact (written_typeIn _ _ ih text).everywhere (by simp [kind_of_isInterface hi])

/-- The types of a member are written. -/
structure MemberWritten (b : Binder) (m : InterfaceMember) : Prop where
  interface : b.Written m.declaringInterface
  returnType : ∀ t, m.returnType? = some t → b.Written t
  parameters : ∀ q ∈ m.parameters, b.Written q.type

/-- **The types of the members that a looked up interface declares were looked up.** -/
theorem memberWritten_of_declared (hp : p.model.IsRead) (hs : s.Everywhere p.binder.Gives)
    (hm : m ∈ p.declaredMembers s) : MemberWritten p.binder m := by
  obtain ⟨-, d, hd, n, hn, rfl⟩ := mem_declaredMembers_iff.mp hm
  refine ⟨.inl hs, fun t ht => ?_, fun q hq => ?_⟩
  · obtain ⟨e, he, rfl⟩ := Option.map_eq_some_iff.mp ht
    obtain ⟨text, rfl⟩ := ((isRead_of_mem hp hd).members n hn).returnType e he
    exact written_typeIn _ _ hs text
  · obtain ⟨q', hq', rfl⟩ := List.mem_map.mp hq
    obtain ⟨text, htext⟩ := ((isRead_of_mem hp hd).members n hn).parameters q' hq'
    rw [htext]
    exact written_typeIn _ _ hs text

/-- The types of all members that a search finds were looked up. -/
theorem memberWritten_of_mem {depth : Nat} {ms : List InterfaceMember} (hp : p.model.IsRead) (hr : p.binder.Written r)
    (h : (p.provider depth).members r = .ok ms) (hm : m ∈ ms) : MemberWritten p.binder m := by
  obtain ⟨s, hs, hms⟩ := exists_inherits_of_mem (membersWithin?_of_members h) hm
  exact memberWritten_of_declared hp (hs.everywhere hp hr) hms

/-! ## Targets of requests -/

theorem mem_uses_of_mem_groups {qs : List StubRequest} {q : StubRequest} {u : MarkerUse} (hq : q ∈ groups qs)
    (hu : u ∈ q.uses) : ∃ c ∈ qs, u ∈ c.uses := by
  rw [(of_mem_groups hq).2] at hu
  obtain ⟨c, hc, hu⟩ := List.mem_flatMap.mp hu
  exact ⟨c, (List.mem_filter.mp hc).1, hu⟩

/-- A target of a request was looked up where a use of the marker names it. -/
theorem exists_bind_of_mem_interfaces {depth : Nat} {marker : Marker} {ids : List Nat} {q : StubRequest}
    (hq : q ∈ (p.provider depth).requests marker ids) (hr : r ∈ q.interfaces) :
    ∃ d ∈ p.model.declarations, ∃ a ∈ d.attributes, ∃ e ∈ a.typeArguments,
      r = p.binder.bind (.ofDeclaration d) e := by
  rw [Provider.requests_eq_groups] at hq
  obtain ⟨u, hu, htarget⟩ := List.mem_filterMap.mp hr
  obtain ⟨c, hc, hu⟩ := mem_uses_of_mem_groups hq hu
  obtain ⟨id, -, hc⟩ := List.mem_filterMap.mp hc
  obtain ⟨target, -, hc⟩ := Option.bind_eq_some_iff.mp hc
  obtain ⟨uses, huses, rfl⟩ := Option.map_eq_some_iff.mp hc
  obtain ⟨d, hd, huses⟩ := Option.bind_eq_some_iff.mp huses
  have hmem : u ∈ p.usesOn marker d := by
    split at huses
    · cases huses
    · cases huses
      assumption
  obtain ⟨a, ha, hu⟩ := List.mem_flatMap.mp hmem
  refine ⟨d, List.mem_of_getElem? hd, a, ha, ?_⟩
  rw [attributeUses] at hu
  split at hu
  · cases hu
  · split at hu
    · obtain rfl := List.mem_singleton.mp hu
      cases htarget
    · obtain ⟨e, he, rfl⟩ := List.mem_map.mp hu
      cases htarget
      exact ⟨e, he, rfl⟩

/-- **The targets of a request were looked up.** -/
theorem written_of_mem_interfaces {depth : Nat} {marker : Marker} {ids : List Nat} {q : StubRequest}
    (hp : p.model.IsRead) (hq : q ∈ (p.provider depth).requests marker ids) (hr : r ∈ q.interfaces) :
    p.binder.Written r := by
  obtain ⟨d, hd, a, ha, e, he, rfl⟩ := exists_bind_of_mem_interfaces hq hr
  obtain ⟨text, rfl⟩ := (hp d hd).attributes a ha e he
  exact Binder.written_bind p.binder_isNormal _ text

end Program

end ContractStubs

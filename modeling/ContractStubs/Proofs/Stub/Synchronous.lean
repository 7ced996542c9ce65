import ContractStubs.Proofs.Binding.Places
import ContractStubs.Proofs.Samples
import ContractStubs.Proofs.Stub.Slots
import ContractStubs.Proofs.Stub.Written

/-!
# Synchronous members

What changes where synchronous members are allowed. A member whose result cannot be waited for gets a stub in the place
of its comment, and the stub has the header of the one that stood behind the comment; all other failures stay
(`InterfaceMember.loosened`). So one text comes of the other slot by slot (`Program.synchronous_members_loosen`). This
rests on what looking up gives: a keyword has no type arguments (`TypeRef.KeywordIsBare`).
-/

namespace ContractStubs

/-! ## Keywords -/

/-- A keyword has no type arguments. -/
def TypeRef.KeywordIsBare (r : TypeRef) : Prop := r.kind = .keyword → r.args = []

/-- All keywords that were looked up are bare. -/
theorem Binder.keywordIsBare_bind (b : Binder) (scope : Scope) : ∀ t : TypeExpr,
    (b.bind scope t).Everywhere TypeRef.KeywordIsBare :=
  TypeExpr.induction fun t ih => by
    refine TypeRef.everywhere_iff.mpr ⟨fun hkind => ?_, fun a ha => ?_⟩
    · cases t with
      | verbatim text => cases hkind
      | tuple elements suffix => cases hkind
      | named name args suffix =>
        change (b.bindName scope name (b.bindAll scope args)).kind = .keyword at hkind
        by_cases hr : IsReserved scope name (b.bindAll scope args).length
        · have hnone : b.bindAll scope args = [] := List.eq_nil_of_length_eq_zero hr.1
          change (b.bindName scope name (b.bindAll scope args)).args = []
          rw [bindName_args, hnone]
        · rcases kind_bindName_of_not_isReserved (b := b) hr with h | h <;> rw [hkind] at h <;> cases h
    · rw [args_bind] at ha
      obtain ⟨c, hc, rfl⟩ := List.mem_map.mp ha
      exact ih c hc

namespace TypeRef

theorem keywordIsBare_substitute {f : String → Option TypeRef}
    (hf : ∀ name s, f name = some s → s.Everywhere KeywordIsBare) {r : TypeRef} (hr : r.Everywhere KeywordIsBare) :
    (r.substitute f).Everywhere KeywordIsBare := by
  refine everywhere_substitute (fun r args hlength h hkind => ?_) (fun _ s _ hs => hs) hf r hr
  have hnone := h hkind
  rw [hnone] at hlength
  exact List.eq_nil_of_length_eq_zero hlength

end TypeRef

namespace Program

variable {p : Program} {r s : TypeRef}

theorem keywordIsBare_typeIn (scope : Scope) (ds : List Declaration) (hr : r.Everywhere TypeRef.KeywordIsBare)
    (t : TypeExpr) : (p.typeIn scope ds r t).Everywhere TypeRef.KeywordIsBare :=
  TypeRef.keywordIsBare_substitute
    (fun _ _ h => (TypeRef.everywhere_iff.mp hr).2 _ (mem_args_of_argumentOf? h))
    (p.binder.keywordIsBare_bind scope t)

theorem Inherits.keywordIsBare (hr : r.Everywhere TypeRef.KeywordIsBare) (h : p.Inherits r s) :
    s.Everywhere TypeRef.KeywordIsBare := by
  induction h with
  | self _ => exact hr
  | @base s t _ ht _ ih =>
    obtain ⟨-, d, -, e, -, rfl⟩ := mem_bases_iff.mp ht
    exact keywordIsBare_typeIn _ _ ih e

/-- The members that a search finds give back no keyword with type arguments. -/
theorem keywordIsBare_of_mem {depth : Nat} {ms : List InterfaceMember} {m : InterfaceMember} {t : TypeRef}
    (hr : r.Everywhere TypeRef.KeywordIsBare) (h : (p.provider depth).members r = .ok ms) (hm : m ∈ ms)
    (ht : m.returnType? = some t) : t.KeywordIsBare := by
  obtain ⟨s, hs, hms⟩ := exists_inherits_of_mem (membersWithin?_of_members h) hm
  obtain ⟨-, d, -, n, -, rfl⟩ := mem_declaredMembers_iff.mp hms
  obtain ⟨e, -, rfl⟩ := Option.map_eq_some_iff.mp ht
  exact (TypeRef.everywhere_iff.mp (keywordIsBare_typeIn _ _ (hs.keywordIsBare hr) e)).1

end Program

/-! ## Results -/

/-- A type is what one waits for or not, whether synchronous members are allowed or not; or it is a keyword, that one
waits for only where they are not; or what comes at once is not allowed. -/
theorem ResultShape.ofReturnType_cases (method : String) {t : TypeRef} (ht : t.KeywordIsBare) :
    (∀ allow, ofReturnType method t allow = ofArguments method t) ∨
      ∃ result, ofReturnType method t true = .ok result ∧ result.isAsync = false ∧
        (t.kind = .keyword ∧ ofReturnType method t false = .ok (.awaitable none) ∨
          ofReturnType method t false = .error (.notAwaitable method)) := by
  have hatOnce : (t.isNamedShape && !(t.kind == .keyword && true)) = false →
      ∃ result, ofReturnType method t true = .ok result ∧ result.isAsync = false := by
    intro h
    rw [ofReturnType, if_neg (Bool.eq_false_iff.mp h), if_neg (by decide)]
    split
    · exact ⟨.nothing, rfl, rfl⟩
    · exact ⟨.value t, rfl, rfl⟩
  by_cases hshape : t.isNamedShape = true
  · by_cases hkind : t.kind = .keyword
    · obtain ⟨result, hok, hasync⟩ := hatOnce (by simp [hkind])
      refine .inr ⟨result, hok, hasync, .inl ⟨hkind, ?_⟩⟩
      simp [ofReturnType, ofArguments, hshape, ht hkind]
    · refine .inl fun allow => ?_
      simp [ofReturnType, hshape, hkind]
  · obtain ⟨result, hok, hasync⟩ := hatOnce (by simp [hshape])
    exact .inr ⟨result, hok, hasync, .inr (by simp [ofReturnType, hshape])⟩

theorem ResultShape.ne_notAwaitable_of_ofArguments {method : String} {t : TypeRef} {cause : StubError}
    (h : ofArguments method t = .error cause) (m : String) : cause ≠ .notAwaitable m := by
  rw [ofArguments] at h
  split at h <;> cases h
  exact StubError.noConfusion

namespace InterfaceMember

variable {m : InterfaceMember}

/-- The signature of a method with a return type and what it gives back. -/
def signatureWith (m : InterfaceMember) (t : TypeRef) (result : ResultShape) : Signature :=
  .ofTypes m.name m.typeParameters m.parameters t result m.declaringInterface

/-- A method with a type that was not written has no signature; any other is told by its result, and the header of a
stub for it does not rest on the result. -/
theorem signature_cases (m : InterfaceMember) :
    (∃ reason, ∀ allow, m.signature allow = .error (.invalidMember m.name reason)) ∨
      ∃ t, m.returnType? = some t ∧
        (∀ allow, m.signature allow = (ResultShape.ofReturnType m.name t allow).map (m.signatureWith t)) ∧
          ∀ result, m.fallbackStub? = some (m.signatureWith t result).header := by
  cases hreturn : m.writtenReturnType? with
  | none => exact .inl ⟨_, fun allow => by rw [signature, hreturn]⟩
  | some t =>
    cases hmissing : m.parameters.find? fun p => p.type.isMissing with
    | some p =>
      exact .inl ⟨"parameter " ++ p.name ++ " has no type", fun allow => by simp only [signature, hreturn, hmissing]⟩
    | none =>
      refine .inr ⟨t, (Option.filter_eq_some_iff.mp hreturn).1, fun allow => ?_, fun result => ?_⟩
      · simp only [signature, hreturn, hmissing]
        rfl
      · have hwritten : (m.parameters.any fun p => p.type.isMissing) = false := by
          rw [List.any_eq_false]
          exact List.find?_eq_none.mp hmissing
        simp only [fallbackStub?, hreturn, hwritten]
        rfl

/-- The method fails, and that because its result is not awaitable. -/
def isNotAwaitable (m : InterfaceMember) : Bool :=
  match m.signature false with
  | .error (.notAwaitable _) => true
  | _ => false

theorem isNotAwaitable_iff : m.isNotAwaitable = true ↔ ∃ method, m.signature false = .error (.notAwaitable method) := by
  rw [isNotAwaitable]
  split
  next method h => exact iff_of_true rfl ⟨method, h⟩
  next h => exact iff_of_false Bool.false_ne_true fun ⟨method, hfails⟩ => h method hfails

/-- What becomes of a method where synchronous members are allowed. -/
structure Loosened (m : InterfaceMember) : Prop where
  /-- Only failures for results that are not awaitable go. -/
  fails : ∀ cause, m.signature true = .error cause ↔
    m.signature false = .error cause ∧ ∀ method, cause ≠ .notAwaitable method
  /-- In their place comes a stub that is not waited for, with the header that stood there. -/
  gains : ∀ method, m.signature false = .error (.notAwaitable method) →
    ∃ s, m.signature true = .ok s ∧ s.result.isAsync = false ∧ m.fallbackStub? = some s.stubHeader
  /-- Other signatures stay, unless the return type is a keyword. -/
  keeps : ∀ s, m.signature false = .ok s → s.returnType.kind ≠ .keyword → m.signature true = .ok s

/-- A method that is told alike either way, if it does not fail for the one reason that matters. -/
theorem Loosened.of_alike (hsame : m.signature true = m.signature false)
    (hother : ∀ cause method, m.signature false = .error cause → cause ≠ .notAwaitable method) : m.Loosened where
  fails cause := by
    rw [hsame, iff_self_and]
    exact fun herror method => hother cause method herror
  gains method herror := absurd rfl (hother _ method herror)
  keeps s hs _ := hsame.trans hs

/-- A method that gives back a keyword, which one waits for only where synchronous members are not allowed. -/
theorem Loosened.of_keyword {s s' : Signature} (hon : m.signature true = .ok s) (hoff : m.signature false = .ok s')
    (hkind : s'.returnType.kind = .keyword) : m.Loosened where
  fails cause := by
    rw [hon, hoff]
    exact ⟨fun herror => (nomatch herror), fun herror => (nomatch herror.1)⟩
  gains method herror := by
    rw [hoff] at herror
    cases herror
  keeps t ht hne := by
    obtain rfl := Except.ok.inj (hoff.symm.trans ht)
    exact absurd hkind hne

/-- A method whose result is not awaitable. -/
theorem Loosened.of_notAwaitable {s : Signature} {method : String} (hon : m.signature true = .ok s)
    (hoff : m.signature false = .error (.notAwaitable method)) (hasync : s.result.isAsync = false)
    (hheader : m.fallbackStub? = some s.header) : m.Loosened where
  fails cause := by
    rw [hon, hoff]
    refine ⟨fun herror => (nomatch herror), fun ⟨herror, hother⟩ => ?_⟩
    exact absurd (Except.error.inj herror).symm (hother method)
  gains _ _ := by
    have hstub : s.stubHeader = s.header := by simp [Signature.stubHeader, hasync]
    exact ⟨s, hon, hasync, hheader.trans (congrArg some hstub.symm)⟩
  keeps t ht _ := by
    rw [hoff] at ht
    cases ht

/-- **Allowing synchronous members takes no signature away and adds those for results that are not awaitable.** -/
theorem loosened (h : ∀ t, m.returnType? = some t → t.KeywordIsBare) : m.Loosened := by
  rcases m.signature_cases with ⟨reason, hfails⟩ | ⟨t, ht, hsignature, hheader⟩
  · refine .of_alike ((hfails true).trans (hfails false).symm) fun cause method herror => ?_
    obtain rfl := Except.error.inj ((hfails false).symm.trans herror)
    exact StubError.noConfusion
  have hon := hsignature true
  have hoff := hsignature false
  rcases ResultShape.ofReturnType_cases m.name (h t ht) with hsame | ⟨result, hok, hasync, ⟨hkind, hwait⟩ | hfails⟩
  · rw [hsame] at hon hoff
    refine .of_alike (hon.trans hoff.symm) fun cause method herror => ?_
    rw [hoff] at herror
    cases hresult : ResultShape.ofArguments m.name t with
    | ok result => rw [hresult] at herror; cases herror
    | error cause' =>
      rw [hresult] at herror
      cases herror
      exact ResultShape.ne_notAwaitable_of_ofArguments hresult method
  · rw [hok] at hon
    rw [hwait] at hoff
    exact .of_keyword hon hoff hkind
  · rw [hok] at hon
    rw [hfails] at hoff
    exact .of_notAwaitable hon hoff hasync (hheader result)

end InterfaceMember

/-! ## Answers -/

/-- What is wrong with a member of a contract. -/
def memberDiagnostic? : Except Diagnostic Signature → Option Diagnostic
  | .ok _ => none
  | .error d => some d

theorem memberDiagnostic?_eq_some {answer : Except Diagnostic Signature} {d : Diagnostic} :
    memberDiagnostic? answer = some d ↔ answer = .error d := by
  cases answer <;> simp [memberDiagnostic?]

namespace StubRequest

variable {r : StubRequest} {allow : Bool} {asked : TypeRef × InterfaceMember}

/-- What the text for a request is written with for a method of an interface. -/
def answer (r : StubRequest) (allow : Bool) (asked : TypeRef × InterfaceMember) : Except Diagnostic Signature :=
  r.framed (asked.2.outcome allow (introspectFrame asked.1))

theorem answer_eq_ok {s : Signature} : r.answer allow asked = .ok s ↔ asked.2.signature allow = .ok s := by
  rw [answer, framed, InterfaceMember.outcome]
  cases asked.2.signature allow <;> simp [Except.mapError]

theorem answer_eq_error {d : Diagnostic} : r.answer allow asked = .error d ↔
    ∃ cause, asked.2.signature allow = .error cause ∧
      d = (asked.2.diagnostic cause (introspectFrame asked.1)).withFrame (synthesizeFrame r) := by
  rw [answer, framed, InterfaceMember.outcome]
  cases asked.2.signature allow <;> simp [Except.mapError, eq_comm]

end StubRequest

namespace Provider

variable {p : Provider} {r : StubRequest} {allow : Bool} {outputExtension : String}

/-- The methods that stubs are wanted for, each with the target that asks for it. -/
def asked (p : Provider) (r : StubRequest) : List (TypeRef × InterfaceMember) :=
  r.interfaces.flatMap fun i =>
    (((p.members i).toOption.getD []).filter InterfaceMember.isInstanceMethod).map fun m => (i, m)

theorem exists_of_mem_asked {a : TypeRef × InterfaceMember} (h : a ∈ p.asked r) :
    a.1 ∈ r.interfaces ∧ ∃ ms, p.members a.1 = .ok ms ∧ a.2 ∈ ms := by
  obtain ⟨i, hi, h⟩ := List.mem_flatMap.mp h
  obtain ⟨m, hm, rfl⟩ := List.mem_map.mp h
  have hfound := (List.mem_filter.mp hm).1
  cases hmembers : p.members i with
  | error cause => rw [hmembers] at hfound; cases hfound
  | ok ms =>
    rw [hmembers] at hfound
    exact ⟨hi, ms, rfl, hfound⟩

/-- A text is written with one answer for each method that is asked for. -/
theorem framedMembers_contractsOf (p : Provider) (r : StubRequest) (allow : Bool) :
    r.framedMembers (p.contractsOf allow r) = (p.asked r).map (r.answer allow) := by
  rw [StubRequest.framedMembers, contractsOf, List.filterMap_map, List.filterMap_eq_flatMap_toList, List.flatMap_assoc,
    List.map_flatMap, asked, List.map_flatMap]
  refine List.flatMap_congr fun i _ => ?_
  cases hmembers : p.members i with
  | error cause => simp [contractOf, hmembers, Except.toOption]
  | ok ms => simp [contractOf, hmembers, Except.toOption, StubRequest.answer]

theorem diagnostics_of_not_isDegenerate (h : (p.stubFile allow outputExtension r).isDegenerate = false) :
    (p.stubFile allow outputExtension r).diagnostics =
      (p.asked r).filterMap fun a => memberDiagnostic? (r.answer allow a) := by
  obtain ⟨-, -, clause, -, hsource⟩ := stubSource_of_not_isDegenerate h
  rw [stubFile, hsource]
  have hdiagnostics : (StubSource.ofContracts r clause (p.contractsOf allow r)).diagnostics =
      (r.framedMembers (p.contractsOf allow r)).filterMap memberDiagnostic? := rfl
  dsimp only
  rw [hdiagnostics, framedMembers_contractsOf, List.filterMap_map]
  rfl

/-- What is allowed changes no text that is degenerate, and makes none so. -/
theorem degenerate_alike (p : Provider) (outputExtension : String) (r : StubRequest) :
    (∀ allow, (p.stubFile allow outputExtension r).isDegenerate = false) ∨
      p.stubFile true outputExtension r = p.stubFile false outputExtension r := by
  have hfailures : StubSource.failures r (r.interfaces.map (p.contractOf true)) =
      StubSource.failures r (r.interfaces.map (p.contractOf false)) := by
    rw [StubSource.failures, StubSource.failures, List.filterMap_map, List.filterMap_map]
    refine List.filterMap_congr fun i _ => ?_
    cases hmembers : p.members i <;> simp [contractOf, hmembers]
  by_cases hnone : StubSource.failures r (r.interfaces.map (p.contractOf false)) = []
  · cases hclause : implementsClause r.interfaces with
    | ok clause =>
      refine .inl fun allow => ?_
      cases allow with
      | false => exact not_isDegenerate_of_contracts hnone hclause
      | true => exact not_isDegenerate_of_contracts (hfailures.trans hnone) hclause
    | error cause =>
      have hoff := StubSource.ofRequest_of_contracts hnone
      have hon := StubSource.ofRequest_of_contracts (hfailures.trans hnone)
      rw [hclause] at hoff hon
      have hsame : p.stubSource true r = p.stubSource false r := hon.trans hoff.symm
      exact .inr (by rw [stubFile, hsame, stubFile])
  · have hoff := StubSource.ofRequest_of_failures hnone
    have hon := StubSource.ofRequest_of_failures (hfailures ▸ hnone)
    have hsame : p.stubSource true r = p.stubSource false r := (hon.trans (congrArg _ hfailures)).trans hoff.symm
    exact .inr (by rw [stubFile, hsame, stubFile])

/-- The text for a request where synchronous members are allowed comes of the one where they are not. -/
structure Loosens (p : Provider) (outputExtension : String) (r : StubRequest) : Prop where
  degenerate : (p.stubFile true outputExtension r).isDegenerate = (p.stubFile false outputExtension r).isDegenerate
  unchanged : (p.stubFile false outputExtension r).isDegenerate = true →
    p.stubFile true outputExtension r = p.stubFile false outputExtension r
  /-- Both texts have a slot for each method that is asked for. -/
  slots : (p.stubFile false outputExtension r).isDegenerate = false → ∃ clause, ∀ allow, ∃ contracts,
    (p.stubSource allow r).HasSlots r clause contracts ∧ r.framedMembers contracts = (p.asked r).map (r.answer allow)
  diagnostics : (p.stubFile false outputExtension r).isDegenerate = false →
    (p.stubFile false outputExtension r).diagnostics =
      (p.asked r).filterMap fun a => memberDiagnostic? (r.answer false a)
  /-- The failures that stay are those for another reason, in their order. -/
  left : (p.stubFile false outputExtension r).isDegenerate = false →
    (p.stubFile true outputExtension r).diagnostics =
      ((p.asked r).filter fun a => !a.2.isNotAwaitable).filterMap fun a => memberDiagnostic? (r.answer false a)
  fails : ∀ a ∈ p.asked r, ∀ d, r.answer true a = .error d ↔ r.answer false a = .error d ∧ a.2.isNotAwaitable = false
  /-- The stub in the place of a comment has the header of the one behind the comment. -/
  gains : ∀ a ∈ p.asked r, a.2.isNotAwaitable = true → ∃ d s, r.answer false a = .error d ∧
    d.fallbackStub? = some s.stubHeader ∧ r.answer true a = .ok s ∧ s.result.isAsync = false
  keeps : ∀ a ∈ p.asked r, ∀ s, r.answer false a = .ok s → s.returnType.kind ≠ .keyword → r.answer true a = .ok s

theorem answer_fails {a : TypeRef × InterfaceMember} (h : a.2.Loosened) (d : Diagnostic) :
    r.answer true a = .error d ↔ r.answer false a = .error d ∧ a.2.isNotAwaitable = false := by
  rw [StubRequest.answer_eq_error, StubRequest.answer_eq_error]
  constructor
  · rintro ⟨cause, hon, rfl⟩
    obtain ⟨hoff, hother⟩ := (h.fails cause).mp hon
    refine ⟨⟨cause, hoff, rfl⟩, Bool.eq_false_iff.mpr fun hnot => ?_⟩
    obtain ⟨method, hmethod⟩ := InterfaceMember.isNotAwaitable_iff.mp hnot
    exact hother method (Except.error.inj (hoff.symm.trans hmethod))
  · rintro ⟨⟨cause, hoff, rfl⟩, hnot⟩
    refine ⟨cause, (h.fails cause).mpr ⟨hoff, fun method hcause => ?_⟩, rfl⟩
    exact Bool.eq_false_iff.mp hnot (InterfaceMember.isNotAwaitable_iff.mpr ⟨method, hcause ▸ hoff⟩)

theorem answer_gains {a : TypeRef × InterfaceMember} (h : a.2.Loosened) (hnot : a.2.isNotAwaitable = true) :
    ∃ d s, r.answer false a = .error d ∧ d.fallbackStub? = some s.stubHeader ∧ r.answer true a = .ok s ∧
      s.result.isAsync = false := by
  obtain ⟨method, hoff⟩ := InterfaceMember.isNotAwaitable_iff.mp hnot
  obtain ⟨s, hon, hasync, hheader⟩ := h.gains method hoff
  exact ⟨_, s, StubRequest.answer_eq_error.mpr ⟨_, hoff, rfl⟩, hheader, StubRequest.answer_eq_ok.mpr hon, hasync⟩

theorem memberDiagnostic?_answer {a : TypeRef × InterfaceMember} (h : a.2.Loosened) :
    memberDiagnostic? (r.answer true a) =
      if (!a.2.isNotAwaitable) = true then memberDiagnostic? (r.answer false a) else none := by
  refine Option.ext fun d => ?_
  rw [memberDiagnostic?_eq_some, answer_fails h]
  cases a.2.isNotAwaitable <;> simp [memberDiagnostic?_eq_some]

theorem exists_hasSlots (hwhole : ∀ allow, (p.stubFile allow outputExtension r).isDegenerate = false) :
    ∃ clause, ∀ allow, ∃ contracts, (p.stubSource allow r).HasSlots r clause contracts ∧
      r.framedMembers contracts = (p.asked r).map (r.answer allow) := by
  obtain ⟨-, -, clause, hclause, -⟩ := stubSource_of_not_isDegenerate (hwhole false)
  refine ⟨clause, fun allow => ⟨p.contractsOf allow r, ?_, p.framedMembers_contractsOf r allow⟩⟩
  obtain ⟨-, -, clause', hclause', hsource⟩ := stubSource_of_not_isDegenerate (hwhole allow)
  obtain rfl := Except.ok.inj (hclause.symm.trans hclause')
  rw [hsource]
  exact StubSource.hasSlots_ofContracts r clause _

theorem loosens_of_loosened (outputExtension : String) (h : ∀ a ∈ p.asked r, a.2.Loosened) :
    p.Loosens outputExtension r := by
  have hwhole : (p.stubFile false outputExtension r).isDegenerate = false →
      ∀ allow, (p.stubFile allow outputExtension r).isDegenerate = false := by
    intro hoff allow
    rcases p.degenerate_alike outputExtension r with hall | hsame
    · exact hall allow
    · cases allow with
      | false => exact hoff
      | true => rw [hsame]; exact hoff
  exact {
    degenerate := by
      rcases p.degenerate_alike outputExtension r with hall | hsame
      · rw [hall true, hall false]
      · rw [hsame]
    unchanged := fun hoff => by
      rcases p.degenerate_alike outputExtension r with hall | hsame
      · exact Bool.noConfusion (hoff.symm.trans (hall false))
      · exact hsame
    slots := fun hoff => exists_hasSlots (hwhole hoff)
    diagnostics := diagnostics_of_not_isDegenerate
    left := fun hoff => by
      rw [diagnostics_of_not_isDegenerate (hwhole hoff true), List.filterMap_filter]
      exact List.filterMap_congr fun a ha => memberDiagnostic?_answer (h a ha)
    fails := fun a ha => answer_fails (h a ha)
    gains := fun a ha => answer_gains (h a ha)
    keeps := fun a ha s hoff hkind =>
      StubRequest.answer_eq_ok.mpr ((h a ha).keeps s (StubRequest.answer_eq_ok.mp hoff) hkind) }

end Provider

namespace Program

variable {p : Program} {depth : Nat} {marker : Marker} {ids : List Nat} {r : StubRequest}

/-- **Allowing synchronous members only removes failures.** For each request the same texts are degenerate, and these do
not change. In any other text the failures that stay are those for another reason than a result that is not awaitable,
in their order and with their diagnostics; a method that failed for this reason gets a stub that is not waited for, with
the header of the stub behind its comment; and the stub of a method that does not give back a keyword stays. -/
theorem synchronous_members_loosen (hr : r ∈ (p.provider depth).requests marker ids) (outputExtension : String) :
    (p.provider depth).Loosens outputExtension r := by
  refine Provider.loosens_of_loosened outputExtension fun a ha => ?_
  obtain ⟨hi, ms, hms, hm⟩ := Provider.exists_of_mem_asked ha
  obtain ⟨d, -, use, -, e, -, he⟩ := exists_bind_of_mem_interfaces hr hi
  have hbare : a.1.Everywhere TypeRef.KeywordIsBare := he ▸ p.binder.keywordIsBare_bind _ e
  exact InterfaceMember.loosened fun t ht => keywordIsBare_of_mem hbare hms hm ht

/-- A method that gives back a number at once. -/
def count : MemberDeclaration := ⟨"Count", .method, false, [], some (.named "int" [] ""), []⟩

/-- A method that gives back several numbers at once. -/
def sample : MemberDeclaration := ⟨"Sample", .method, false, [], some (.named "int" [] "[]"), []⟩

/-- Of four methods the one that gives back an array gets a stub where synchronous members are allowed; the one whose
result is not understood gets none either way. -/
theorem samples_allowed :
    let p := storing [fetch, count, sample, load]
    keeping ∈ p.standardRequests ∧ (p.provider 3).Loosens ".g.cs" keeping ∧
      ((p.provider 3).stubFile false ".g.cs" keeping).isDegenerate = false ∧
      (p.provider 3).headersOf false keeping = ["async Task<Dictionary<string, int>> IStore.Fetch()",
        "async int IStore.Count()", "int[] IStore.Sample()", "Dictionary<string, int> IStore.Load()"] ∧
      (p.provider 3).headersOf true keeping = ["async Task<Dictionary<string, int>> IStore.Fetch()",
        "int IStore.Count()", "int[] IStore.Sample()", "Dictionary<string, int> IStore.Load()"] ∧
      ((p.provider 3).stubFile true ".g.cs" keeping).diagnostics.map (·.message) =
        ["Method Load returns Dictionary<string, int>, which has more than one type argument"] := by
  intro p
  have hrequest : keeping ∈ p.standardRequests := by decide +kernel
  exact ⟨hrequest, synchronous_members_loosen hrequest ".g.cs", by decide +kernel, by decide +kernel, by decide +kernel,
    by decide +kernel⟩

end Program

end ContractStubs

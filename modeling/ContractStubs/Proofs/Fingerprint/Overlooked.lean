import ContractStubs.Proofs.Fingerprint.Request
import ContractStubs.Proofs.Samples
import ContractStubs.Proofs.Stub.Obligations

/-!
# What a search reads and a fingerprint overlooks

A search follows the bases of an interface to what they refer to, a fingerprint to all that their names can mean
(`Program.mem_reachedBy_iff`). A name means what is behind it, unless it is that of a type parameter or the interface
behind it has a dot in its own. So whatever a fingerprint overlooks stands behind such a base
(`Program.overlooked_is_hidden`); the interface that is given for a type parameter is indeed overlooked
(`Program.inner_overlooked`).
-/

namespace ContractStubs

namespace Program

variable {p : Program} {marker : Marker} {r : StubRequest} {depth : Nat}

/-! ## Following names -/

/-- The declarations of some interfaces, and those that the bases of these name, and so on. -/
inductive NamedFrom (p : Program) (targets : List TypeRef) : Declaration → Prop
  | target {t : TypeRef} {d : Declaration} : t ∈ targets → d ∈ p.declarationsOf t → NamedFrom p targets d
  | base {c d : Declaration} {t : TypeExpr} : NamedFrom p targets c → t ∈ c.baseTypes → d ∈ p.model.declarations →
      d.isNamedBy t = true → NamedFrom p targets d

/-- **A fingerprint follows names**, and nothing else. -/
theorem mem_reachedBy_iff (hm : p.model.IsNumbered) {d : Declaration} :
    d ∈ p.reachedBy r ↔ p.NamedFrom r.interfaces d := by
  obtain ⟨hincludes, hclosed⟩ := reachedFrom_closed hm r.interfaces
  constructor
  · refine reached_induct (fun c hc e he => ?_) (fun e he => ?_) d
    · obtain ⟨hmem, t, ht, hnamed⟩ := mem_of_mem_possibleBases he
      exact hc.base ht hmem hnamed
    · obtain ⟨t, ht, he⟩ := List.mem_flatMap.mp (List.mem_reverse.mp he)
      exact .target ht he
  · intro hd
    induction hd with
    | target ht hd => exact hincludes _ ht _ hd
    | base _ ht hmem hnamed ih => exact hclosed _ ih _ (mem_possibleBases ht hmem hnamed)

/-! ## Following bases -/

section Visiting

variable {P : TypeRef → Prop} {entered : List TypeRef}

/-- What holds of the roots of a search, and of the bases of whatever it enters and it holds of, holds of all that the
search adds. -/
theorem foldlM_induct {search : List TypeRef → TypeRef → Option (List TypeRef)}
    (hexplores : ∀ i seen seen', search seen i = some seen' → Explores p [i] seen seen')
    (hsearch : ∀ i seen seen', search seen i = some seen' → seen' ⊆ entered → (p.isInterface i → P i) →
      ∀ s ∈ seen', s ∈ seen ∨ P s) :
    ∀ {roots seen seen' : List TypeRef}, roots.foldlM search seen = some seen' → seen' ⊆ entered →
      (∀ i ∈ roots, p.isInterface i → P i) → ∀ s ∈ seen', s ∈ seen ∨ P s
  | [], seen, seen', h, _, _, s, hs => by
    obtain rfl : seen = seen' := by simpa using h
    exact .inl hs
  | i :: roots, seen, seen', h, hsub, hroots, s, hs => by
    rw [List.foldlM_cons] at h
    obtain ⟨seen₁, h₁, h₂⟩ := Option.bind_eq_some_iff.mp h
    obtain ⟨hi, hroots⟩ := List.forall_mem_cons.mp hroots
    have hsub₁ : seen₁ ⊆ entered := by
      obtain ⟨new, rfl, -⟩ := (Explores.of_foldlM hexplores h₂).grows
      exact List.Subset.trans (List.subset_append_left _ _) hsub
    rcases foldlM_induct hexplores hsearch h₂ hsub hroots s hs with hs | hs
    · exact hsearch i seen seen₁ h₁ hsub₁ hi s hs
    · exact .inr hs

/-- What holds of where a search starts, and of the bases of whatever it enters and it holds of, holds of all that the
search adds. -/
theorem visit_induct (hbases : ∀ s ∈ entered, P s → ∀ t ∈ p.bases s, p.isInterface t → P t) :
    ∀ {depth : Nat} {i : TypeRef} {seen seen' : List TypeRef}, p.visit depth i seen = some seen' → seen' ⊆ entered →
      (p.isInterface i → P i) → ∀ s ∈ seen', s ∈ seen ∨ P s
  | 0, _, _, _, h, _, _, _, _ => by cases h
  | depth + 1, i, seen, seen', h, hsub, hi, s, hs => by
    rw [visit] at h
    split at h
    next hnew =>
      have hPi : P i := hi hnew.1
      have hmem : i ∈ seen' := by
        obtain ⟨new, rfl, -⟩ := (Explores.of_foldlM (fun _ _ _ => visit_explores) h).grows
        simp
      rcases foldlM_induct (fun _ _ _ => visit_explores) (fun _ _ _ => visit_induct hbases) h hsub
        (hbases i (hsub hmem) hPi) s hs with hs | hs
      · rcases List.mem_append.mp hs with hs | hs
        · exact .inl hs
        · exact .inr (List.mem_singleton.mp hs ▸ hPi)
      · exact .inr hs
    next =>
      obtain rfl := Option.some.inj h
      exact .inl hs

end Visiting

/-- The declarations of the interfaces that a search enters. Their members and their bases are all that it reads. -/
def searched (p : Program) (depth : Nat) (i : TypeRef) : List Declaration := (p.entered depth i).flatMap p.declarationsOf

/-- A base of an interface refers to an interface with a declaration that is not among these, and does so as a type
parameter or behind a name with a dot in it. -/
def Hides (p : Program) (ds : List Declaration) (s : TypeRef) : Prop :=
  ∃ c ∈ p.declarationsOf s, ∃ t ∈ c.baseTypes,
    ∃ e ∈ p.declarationsOf (p.typeIn (.ofDeclaration c) (p.declarationsOf s) s t), e ∉ ds ∧
      ((p.binder.bind (.ofDeclaration c) t).kind = .typeParameter ∨ '.' ∈ e.name.toList)

/-- An interface that hides nothing has its bases included with it. -/
theorem includes_of_not_hides {ds : List Declaration} {s t : TypeRef}
    (hclosed : ∀ c ∈ ds, ∀ d ∈ possibleBases p.model.declarations c, d ∈ ds) (hhides : ¬p.Hides ds s)
    (hs : p.Includes ds s) (ht : t ∈ p.bases s) (hti : p.isInterface t) : p.Includes ds t := by
  intro e he
  obtain ⟨-, c, hc, expr, hexpr, rfl⟩ := mem_bases_iff.mp ht
  by_contra hmissing
  have hplain : ¬((p.binder.bind (.ofDeclaration c) expr).kind = .typeParameter ∨ '.' ∈ e.name.toList) := fun hbehind =>
    hhides ⟨c, hc, expr, hexpr, e, he, hmissing, hbehind⟩
  obtain ⟨hkind, hdot⟩ := not_or.mp hplain
  have hnamed : e.isNamedBy expr = true := isNamedBy_of_refers hkind he (kind_of_mem_declarationsOf hti he) hdot
  exact hmissing (hclosed c (hs c hc) e (mem_possibleBases hexpr (mem_declarationsOf.mp he).2.1 hnamed))

/-- **A fingerprint follows names and overlooks what is hidden from them.** What it reaches is what names lead to. Where
the members of a target were found, they are those that the searched declarations are written with; and if one of these
is not reached, an interface that the search enters, and whose own declarations are reached, hides a base. -/
theorem overlooked_is_hidden (hm : p.model.IsNumbered) :
    (∀ d, d ∈ p.reachedBy r ↔ p.NamedFrom r.interfaces d) ∧
      ∀ i ∈ r.interfaces, ∀ ms, (p.provider depth).members i = .ok ms →
        ms = (p.entered depth i).flatMap (fun s => (p.declarationsOf s).flatMap fun d =>
          d.members.map (p.memberOf (p.declarationsOf s) s d)) ∧
        ∀ d ∈ p.searched depth i, d ∉ p.reachedBy r →
          ∃ s ∈ p.entered depth i, p.Includes (p.reachedBy r) s ∧ p.Hides (p.reachedBy r) s := by
  refine ⟨fun d => mem_reachedBy_iff hm, fun i hi ms hms => ?_⟩
  obtain ⟨hvisit, rfl⟩ := visit_of_members hms
  obtain ⟨hincludes, hclosed⟩ := reachedFrom_closed hm r.interfaces
  refine ⟨List.flatMap_congr fun s hs => ?_, fun d hd hmissing => ?_⟩
  · have hs := ((visit_explores hvisit).inherits_of_mem hs).isInterface
    rw [declaredMembers, isInterface_iff.mp hs]
    rfl
  by_contra hnone
  -- with nothing hidden, what the search enters is included from base to base
  have hbases : ∀ s ∈ p.entered depth i, p.Includes (p.reachedBy r) s → ∀ t ∈ p.bases s, p.isInterface t →
      p.Includes (p.reachedBy r) t := fun s hs hin t ht hti =>
    includes_of_not_hides hclosed (fun hhides => hnone ⟨s, hs, hin, hhides⟩) hin ht hti
  obtain ⟨s, hs, hd⟩ := List.mem_flatMap.mp hd
  have hin := (visit_induct hbases hvisit (List.Subset.refl _) (fun _ => hincludes i hi) s hs).resolve_left List.not_mem_nil
  exact hmissing (hin d hd)

/-! ## An interface that is given for a type parameter -/

/-- An interface with these methods, a wrapper whose base is its type parameter, and a worker for the wrapped
interface. -/
def wrapping (methods : List String) : Program := .ofModel (.ofList [
  { interfaceNamed none "IInner" with members := methods.map tasked },
  { interfaceNamed none "IWrap" with typeParameters := ["T"], baseTypes := [.named "T" [] ""] },
  { interfaceNamed none "Worker" with
    kind := .classType
    attributes := [⟨"AddImplementation", [.named "IWrap" [.named "IInner" [] ""] ""]⟩] }]) []

/-- The interface that the worker asks for. -/
def wrapped : TypeRef := .named none "IWrap" [.named none "IInner" []]

/-- The search enters the inner interface, and what hides it is the base of the wrapper. -/
theorem wrapping_hides :
    (wrapping ["Run"]).model.IsNumbered ∧ wrapped ∈ (workerAsking 2 [wrapped]).interfaces ∧
      ∃ d ∈ (wrapping ["Run"]).searched 3 wrapped, d ∉ (wrapping ["Run"]).reachedBy (workerAsking 2 [wrapped]) ∧
        ∃ s ∈ (wrapping ["Run"]).entered 3 wrapped,
          (wrapping ["Run"]).Includes ((wrapping ["Run"]).reachedBy (workerAsking 2 [wrapped])) s ∧
            (wrapping ["Run"]).Hides ((wrapping ["Run"]).reachedBy (workerAsking 2 [wrapped])) s := by
  have hm : (wrapping ["Run"]).model.IsNumbered := Model.isNumbered_ofList _
  have hi : wrapped ∈ (workerAsking 2 [wrapped]).interfaces := List.mem_singleton_self _
  have hsearched : ∃ d ∈ (wrapping ["Run"]).searched 3 wrapped,
      d ∉ (wrapping ["Run"]).reachedBy (workerAsking 2 [wrapped]) := by decide +kernel
  have hfound : ∃ ms, ((wrapping ["Run"]).provider 3).members wrapped = .ok ms := ⟨_, rfl⟩
  obtain ⟨ms, hms⟩ := hfound
  obtain ⟨d, hd, hmissing⟩ := hsearched
  exact ⟨hm, hi, d, hd, hmissing, ((overlooked_is_hidden hm).2 wrapped hi ms hms).2 d hd hmissing⟩

/-- The inner interface is searched and not reached; so with one more method in it the fingerprint is made of the same
parts, and the text is another one. -/
theorem inner_overlooked :
    (∀ methods ∈ [["Run"], ["Run", "Stop"]], workerAsking 2 [wrapped] ∈ (wrapping methods).standardRequests ∧
      (∃ ms, ((wrapping methods).provider 3).members wrapped = .ok ms) ∧
      ∃ d ∈ (wrapping methods).searched 3 wrapped, d.kind = .interfaceType ∧
        d ∉ (wrapping methods).reachedBy (workerAsking 2 [wrapped])) ∧
    ((wrapping ["Run"]).provider 3).fingerprintParts [] (workerAsking 2 [wrapped]) =
      ((wrapping ["Run", "Stop"]).provider 3).fingerprintParts [] (workerAsking 2 [wrapped]) ∧
    ((wrapping ["Run"]).provider 3).headersOf false (workerAsking 2 [wrapped]) = ["async Task IInner.Run()"] ∧
    ((wrapping ["Run", "Stop"]).provider 3).headersOf false (workerAsking 2 [wrapped]) =
      ["async Task IInner.Run()", "async Task IInner.Stop()"] := by
  refine ⟨fun methods hmethods => ?_, by decide +kernel, by decide +kernel, by decide +kernel⟩
  rcases List.mem_cons.mp hmethods with rfl | hmethods
  · exact ⟨by decide +kernel, ⟨_, rfl⟩, by decide +kernel⟩
  · obtain rfl := List.mem_singleton.mp hmethods
    exact ⟨by decide +kernel, ⟨_, rfl⟩, by decide +kernel⟩

end Program

end ContractStubs

import ContractStubs.Proofs.Inheritance.Search
import ContractStubs.Proofs.Lists
import ContractStubs.Proofs.Samples

/-!
# Searches that fail

* **Refusal** (`interfaceDeclarations_eq_error`): a reference is refused for its kind, for want of a declaration, or for
  a declaration of something else.
* **Shared accumulators** (`collectAlong_bases`): a search that works on the accumulators of its caller, and leaves them
  behind when it fails, is the search over harvests; so a failure leaves them as they were.
* **Refused bases** (`collectAlong_of_sameInterfaces`): a search finds the same along any bases of which the same are
  interfaces.

So a search fails for its root or not at all (`fails_at_root_only`).
-/

namespace ContractStubs

namespace Program

variable {p : Program} {r : TypeRef}

/-! ## References that are refused -/

/-- A reference cannot be searched, and why. -/
inductive Refuses (p : Program) (r : TypeRef) : StubError → Prop
  /-- A keyword, a type parameter or a tuple. -/
  | kind : r.kind = .keyword ∨ r.kind = .typeParameter ∨ r.kind = .tuple → Refuses p r (.notAnInterface r.toText)
  /-- A name that could not be looked up, or a text of unknown shape. -/
  | unknown : r.kind = .unresolved ∨ r.kind = .verbatim → Refuses p r (.unresolvedInterface r.toText)
  /-- A name without a declaration. -/
  | undeclared : r.kind = .named → p.declarationsOf r = [] → Refuses p r (.unresolvedInterface r.toText)
  /-- A name with a declaration of something else. -/
  | declared {d : Declaration} : r.kind = .named → d ∈ p.declarationsOf r → d.kind ≠ .interfaceType →
      Refuses p r (.notAnInterface r.toText)

/-- **What is refused, and why.** -/
theorem interfaceDeclarations_eq_error {cause : StubError} :
    p.interfaceDeclarations r = .error cause ↔ p.Refuses r cause := by
  constructor
  · intro h
    unfold interfaceDeclarations at h
    split at h
    next hk => exact Except.error.inj h ▸ .kind (.inl hk)
    next hk => exact Except.error.inj h ▸ .kind (.inr (.inl hk))
    next hk => exact Except.error.inj h ▸ .kind (.inr (.inr hk))
    next hk => exact Except.error.inj h ▸ .unknown (.inl hk)
    next hk => exact Except.error.inj h ▸ .unknown (.inr hk)
    next hk =>
      dsimp only at h
      split at h
      next hempty => exact Except.error.inj h ▸ .undeclared hk (List.isEmpty_iff.mp hempty)
      next =>
        split at h
        next hother =>
          obtain ⟨d, hd, hkind⟩ := List.any_eq_true.mp hother
          exact Except.error.inj h ▸ .declared hk hd (by simpa using hkind)
        next => cases h
  · intro h
    cases h with
    | kind hk => rcases hk with hk | hk | hk <;> simp [interfaceDeclarations, hk]
    | unknown hk => rcases hk with hk | hk <;> simp [interfaceDeclarations, hk]
    | undeclared hk hnone => simp [interfaceDeclarations, hk, hnone]
    | declared hk hd hother =>
      have hany : ((p.declarationsOf r).any fun d => d.kind != .interfaceType) = true :=
        List.any_eq_true.mpr ⟨_, hd, by simpa using hother⟩
      simp [interfaceDeclarations, hk, List.ne_nil_of_mem hd, hany]

theorem exists_refuses_iff : (∃ cause, p.Refuses r cause) ↔
    r.kind ≠ .named ∨ p.declarationsOf r = [] ∨ ∃ d ∈ p.declarationsOf r, d.kind ≠ .interfaceType := by
  constructor
  · rintro ⟨cause, hk | hk | ⟨-, hnone⟩ | ⟨-, hd, hother⟩⟩
    · exact .inl (by rcases hk with hk | hk | hk <;> simp [hk])
    · exact .inl (by rcases hk with hk | hk <;> simp [hk])
    · exact .inr (.inl hnone)
    · exact .inr (.inr ⟨_, hd, hother⟩)
  · by_cases hk : r.kind = .named
    · rintro (h | hnone | ⟨d, hd, hother⟩)
      · exact absurd hk h
      · exact ⟨_, .undeclared hk hnone⟩
      · exact ⟨_, .declared hk hd hother⟩
    · intro _
      cases h : r.kind with
      | named => exact absurd h hk
      | keyword => exact ⟨_, .kind (.inl h)⟩
      | typeParameter => exact ⟨_, .kind (.inr (.inl h))⟩
      | tuple => exact ⟨_, .kind (.inr (.inr h))⟩
      | unresolved => exact ⟨_, .unknown (.inl h)⟩
      | verbatim => exact ⟨_, .unknown (.inr h)⟩

theorem not_isInterface_iff : ¬p.isInterface r ↔ ∃ cause, p.interfaceDeclarations r = .error cause := by
  rw [isInterface]
  cases p.interfaceDeclarations r <;> simp [Except.isOk, Except.toBool]

/-! ## Searches with shared accumulators -/

/-- A search along some bases, which works on the accumulators of its caller: why it failed, if it did, and how it left
them. A base for which it fails is passed over, and the next one goes on from what was left. -/
def collectAlong (p : Program) (bases : TypeRef → List TypeRef) :
    (depth : Nat) → TypeRef → Harvest → Option (Option StubError × Harvest)
  | 0, _, _ => none
  | depth + 1, r, h =>
    match p.interfaceDeclarations r with
    | .error cause => some (some cause, h)
    | .ok ds =>
      if h.visited.contains r.qualifiedText then some (none, h)
      else
        ((bases r).foldlM (fun h base => (collectAlong p bases depth base h).map (·.2))
          (h.add r.qualifiedText (p.ownMembers ds r))).map fun h => (none, h)

/-- The outcome of a search from a harvest, and what is left of the harvest. -/
def Harvest.leftBy (h : Harvest) : Except StubError Harvest → Option StubError × Harvest
  | .ok h => (none, h)
  | .error cause => (some cause, h)

/-- What a search with accumulators tells at its end. -/
def told : Option StubError × Harvest → Except StubError (List InterfaceMember)
  | (none, h) => .ok h.found
  | (some cause, _) => .error cause

/-- The members of an interface along some bases, if the search comes to an end within a depth. -/
def membersAlong? (p : Program) (bases : TypeRef → List TypeRef) (depth : Nat) (r : TypeRef) :
    Option (Except StubError (List InterfaceMember)) := (p.collectAlong bases depth r .start).map told

/-- **Accumulators may be shared**: a search that fails leaves them as they were. -/
theorem collectAlong_bases : ∀ (depth : Nat) (r : TypeRef) (h : Harvest),
    p.collectAlong p.bases depth r h = (p.gather depth r h).map h.leftBy
  | 0, _, _ => rfl
  | depth + 1, r, h => by
    cases hd : p.interfaceDeclarations r with
    | error cause => simp [collectAlong, gather, hd, Harvest.leftBy]
    | ok ds =>
      have hbases : p.bases r = p.basesOf ds r := by rw [bases, hd]
      have hstep : (fun h base => (p.collectAlong p.bases depth base h).map (·.2)) =
          fun h base => (p.gather depth base h).map fun outcome => outcome.toOption.getD h := by
        funext h base
        rw [collectAlong_bases depth base h, Option.map_map]
        refine congrArg (Option.map · _) (funext fun outcome => ?_)
        cases outcome <;> rfl
      simp only [collectAlong, gather, hd, hbases, hstep]
      split
      next => rfl
      next => rw [Option.map_map]; rfl

theorem membersAlong?_bases (depth : Nat) (r : TypeRef) :
    p.membersAlong? p.bases depth r = p.membersWithin? depth r := by
  rw [membersAlong?, collectAlong_bases, Option.map_map, membersWithin?]
  refine congrArg (Option.map · _) (funext fun outcome => ?_)
  cases outcome <;> rfl

/-- A search fails at its root, before it touches the accumulators. -/
theorem collectAlong_of_refuses {bases : TypeRef → List TypeRef} {cause : StubError} (hr : p.Refuses r cause)
    (depth : Nat) (h : Harvest) : p.collectAlong bases (depth + 1) r h = some (some cause, h) := by
  rw [collectAlong, interfaceDeclarations_eq_error.mpr hr]

theorem eq_of_collectAlong_eq_error {bases : TypeRef → List TypeRef} {cause : StubError} {depth : Nat} {h h' : Harvest}
    (hsearch : p.collectAlong bases depth r h = some (some cause, h')) : h' = h := by
  cases depth with
  | zero => cases hsearch
  | succ depth =>
    rw [collectAlong] at hsearch
    split at hsearch
    next => exact (Prod.mk.inj (Option.some.inj hsearch)).2.symm
    next =>
      split at hsearch
      next => cases hsearch
      next =>
        obtain ⟨_, -, he⟩ := Option.map_eq_some_iff.mp hsearch
        cases he

/-! ## Bases that are refused -/

/-- Along other bases the same interfaces are come to, in the same order, from all that `r` inherits from. -/
def SameInterfaces (p : Program) (r : TypeRef) (bases : TypeRef → List TypeRef) : Prop :=
  ∀ s, p.Inherits r s → (bases s).filter p.isInterface = (p.bases s).filter p.isInterface

theorem SameInterfaces.base {b : TypeRef} {bases : TypeRef → List TypeRef} (h : p.SameInterfaces r bases)
    (hr : p.isInterface r) (hb : b ∈ p.bases r) : p.SameInterfaces b bases :=
  fun s hs => h s (hs.head hr hb)

theorem collectAlong_of_not_isInterface {bases : TypeRef → List TypeRef} {b : TypeRef} (hb : ¬p.isInterface b)
    {depth : Nat} {h : Harvest} {outcome : Option StubError × Harvest}
    (hsearch : p.collectAlong bases depth b h = some outcome) : outcome.2 = h := by
  obtain ⟨cause, hcause⟩ := not_isInterface_iff.mp hb
  cases depth with
  | zero => cases hsearch
  | succ depth =>
    rw [collectAlong_of_refuses (interfaceDeclarations_eq_error.mp hcause)] at hsearch
    exact (Option.some.inj hsearch) ▸ rfl

/-- **Bases that are refused make no difference**, wherever they stand. One more level may be needed to refuse them. -/
theorem collectAlong_of_sameInterfaces {bases : TypeRef → List TypeRef} : ∀ {depth : Nat} {r : TypeRef} {h : Harvest}
    {outcome : Option StubError × Harvest}, p.SameInterfaces r bases →
      p.collectAlong p.bases depth r h = some outcome → p.collectAlong bases (depth + 1) r h = some outcome
  | 0, _, _, _, _, hsearch => by cases hsearch
  | depth + 1, r, h, outcome, hsame, hsearch => by
    rw [collectAlong] at hsearch ⊢
    cases hd : p.interfaceDeclarations r with
    | error cause => rwa [hd] at hsearch
    | ok ds =>
      have hr : p.isInterface r = true := by rw [isInterface, hd]; rfl
      rw [hd] at hsearch
      dsimp only at hsearch ⊢
      split at hsearch
      next hseen => rwa [if_pos hseen]
      next hseen =>
        obtain ⟨h', hfold, houtcome⟩ := Option.map_eq_some_iff.mp hsearch
        rw [if_neg hseen, Option.map_eq_some_iff]
        refine ⟨h', ?_, houtcome⟩
        -- drop what is refused along the one bases, then take in what is refused along the others
        have hkept := foldlM_filter_of_some (k := p.isInterface) (fun b _ hb acc acc' hstep => by
          obtain ⟨_, hout, rfl⟩ := Option.map_eq_some_iff.mp hstep
          exact collectAlong_of_not_isInterface (by simp [hb]) hout) hfold
        refine foldlM_of_filter (k := p.isInterface) (fun b _ hb acc => ?_) ?_
        · obtain ⟨cause, hcause⟩ := not_isInterface_iff.mp (show ¬p.isInterface b by simp [hb])
          rw [collectAlong_of_refuses (interfaceDeclarations_eq_error.mp hcause)]
          rfl
        · rw [hsame r (.self hr)]
          refine foldlM_imp (fun b hb acc acc' hstep => ?_) hkept
          obtain ⟨_, hout, rfl⟩ := Option.map_eq_some_iff.mp hstep
          rw [collectAlong_of_sameInterfaces (hsame.base hr (List.mem_filter.mp hb).1) hout]
          rfl

/-! ## Failing at the root -/

/-- A search that ends fails where its root is refused. -/
theorem eq_error_iff_refuses {depth : Nat} {outcome : Except StubError (List InterfaceMember)} {cause : StubError}
    (h : p.membersWithin? depth r = some outcome) : outcome = .error cause ↔ p.Refuses r cause := by
  rw [← interfaceDeclarations_eq_error]
  rw [membersWithin?_eq] at h
  cases hd : p.interfaceDeclarations r with
  | error cause' =>
    rw [hd] at h
    have houtcome : .error cause' = outcome := by
      cases depth with
      | zero => cases h
      | succ depth => exact Option.some.inj h
    rw [← houtcome, Except.error.injEq, Except.error.injEq]
  | ok ds =>
    rw [hd] at h
    obtain ⟨seen, -, rfl⟩ := Option.map_eq_some_iff.mp h
    simp only [reduceCtorEq]

/-- A search that ends at an interface found its own members first. -/
theorem exists_found_of_isInterface {depth : Nat} {ms : List InterfaceMember} (hr : p.isInterface r)
    (h : p.membersWithin? depth r = some (.ok ms)) : ∃ inherited, ms = p.declaredMembers r ++ inherited := by
  obtain ⟨visited, hvisit, rfl⟩ := members_of_visited h
  cases depth with
  | zero => cases hvisit
  | succ depth =>
    rw [visit, if_pos ⟨hr, by simp [texts]⟩] at hvisit
    obtain ⟨new, rfl, -⟩ := (Explores.of_foldlM (fun _ _ _ => visit_explores) hvisit).grows
    exact ⟨new.flatMap p.declaredMembers, by simp⟩

/-- What a search comes to that fails at its root or not at all. -/
structure FailsAtRoot (p : Program) (r : TypeRef) (outcome : Except StubError (List InterfaceMember)) : Prop where
  /-- It fails where its root is refused. -/
  error_iff : ∀ cause, outcome = .error cause ↔ p.Refuses r cause
  /-- That is where the root is no name, or has no declaration, or one of something else. -/
  fails_iff : (∃ cause, outcome = .error cause) ↔
    r.kind ≠ .named ∨ p.declarationsOf r = [] ∨ ∃ d ∈ p.declarationsOf r, d.kind ≠ .interfaceType
  /-- Else the members of all declarations of its root come first, in their order. -/
  own_first : (∀ cause, ¬p.Refuses r cause) →
    p.declarationsOf r = p.model.declarations.filter (fun d => d.key = r.lookupKey) ∧
      ∃ inherited, outcome = .ok
        ((p.declarationsOf r).flatMap (fun d => d.members.map (p.memberOf (p.declarationsOf r) r d)) ++ inherited)
  /-- Whatever was found before stays as it was where a search fails, at any depth and along any bases. -/
  failure_leaves : ∀ bases depth s h cause h', p.collectAlong bases depth s h = some (some cause, h') → h' = h
  /-- It comes to the same where bases that are refused are left out or put in, at any depth. -/
  refused_bases : ∀ bases, p.SameInterfaces r bases → ∃ depth, p.membersAlong? bases depth r = some outcome

/-- **A search fails for its root or not at all.** -/
theorem fails_at_root_only {depth : Nat} {outcome : Except StubError (List InterfaceMember)}
    (h : p.membersWithin? depth r = some outcome) : p.FailsAtRoot r outcome := by
  have herror : ∀ cause, outcome = .error cause ↔ p.Refuses r cause := fun _ => eq_error_iff_refuses h
  refine ⟨herror, ?_, fun hr => ?_, fun _ _ _ _ _ _ => eq_of_collectAlong_eq_error, fun bases hsame => ?_⟩
  · rw [← exists_refuses_iff]
    exact exists_congr herror
  · have hi : p.isInterface r := Decidable.byContradiction fun hi => by
      obtain ⟨cause, hcause⟩ := not_isInterface_iff.mp hi
      exact hr cause (interfaceDeclarations_eq_error.mp hcause)
    obtain ⟨ms, rfl⟩ : ∃ ms, outcome = .ok ms := by
      cases outcome with
      | ok ms => exact ⟨ms, rfl⟩
      | error cause => exact absurd ((herror cause).mp rfl) (hr cause)
    obtain ⟨inherited, rfl⟩ := exists_found_of_isInterface hi h
    refine ⟨?_, inherited, ?_⟩
    · rw [declarationsOf, if_pos (kind_of_isInterface hi)]
      rfl
    · rw [declaredMembers, isInterface_iff.mp hi]
      rfl
  · rw [← membersAlong?_bases, membersAlong?] at h
    obtain ⟨left, hsearch, htold⟩ := Option.map_eq_some_iff.mp h
    refine ⟨depth + 1, ?_⟩
    rw [membersAlong?, collectAlong_of_sameInterfaces hsame hsearch, Option.map_some, htold]

/-! ## A log -/

/-- A log in two parts. Some of its bases, and of the bases of these, are no interfaces. -/
def logs : Program := .ofModel (.ofList [speaking none "ILog" "Write" ["IMissing", "IStream"],
  speaking none "IStream" "Open" ["Worker", "IHandle", "int"],
  speaking none "ILog" "Flush" ["int", "IStream", "Worker"], speaking none "IHandle" "Close" ["IGone"],
  { interfaceNamed none "Worker" with kind := .classType }]) []

/-- The log itself fails nowhere, and is the same without the bases that are no interfaces. -/
theorem log_found :
    let log : TypeRef := .named none "ILog" []
    let names : Except StubError (List InterfaceMember) → List String := fun outcome =>
      (outcome.toOption.getD []).map (·.qualifiedName)
    ∃ outcome, logs.membersWithin? 5 log = some outcome ∧ logs.FailsAtRoot log outcome ∧
      names outcome = ["ILog.Write", "ILog.Flush", "IStream.Open", "IHandle.Close"] ∧
      ∃ depth, logs.membersAlong? (fun s => (logs.bases s).filter logs.isInterface) depth log = some outcome := by
  intro log names
  have hsome : (logs.membersWithin? 5 log).isSome = true := by decide +kernel
  obtain ⟨outcome, h⟩ := Option.isSome_iff_exists.mp hsome
  have hfails : logs.FailsAtRoot log outcome := fails_at_root_only h
  have hnames : (logs.membersWithin? 5 log).map names =
      some ["ILog.Write", "ILog.Flush", "IStream.Open", "IHandle.Close"] := by decide +kernel
  rw [h] at hnames
  exact ⟨outcome, h, hfails, Option.some.inj hnames, hfails.refused_bases _ fun s _ => by simp⟩

end Program

end ContractStubs

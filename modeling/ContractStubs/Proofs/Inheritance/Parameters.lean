import ContractStubs.Proofs.Binding.Places
import ContractStubs.Proofs.Inheritance.Search
import ContractStubs.Proofs.Samples
import ContractStubs.Proofs.Stub.Headers

/-!
# Type parameters of members

A member is looked up with its own type parameters in scope; then the arguments of its interface are put for the
interface's type parameters, by name alone. So two things can happen to the types of a generic member.

* Its own type parameter stays one exactly where the interface has no type parameter of that name, or has a type
  parameter of that name for its argument (`Program.own_parameters_stay_iff`).
* A type parameter in an argument comes under a type parameter of the member exactly where both have one name
  (`Program.captures_iff`).

Both are said of every member that a search finds, at every place in its types.
-/

namespace ContractStubs

/-! ## Places in members -/

/-- The types of a member as written: that of its result, if there is one, then those of its parameters. -/
def MemberDeclaration.types (n : MemberDeclaration) : List TypeExpr := n.returnType?.toList ++ n.parameters.map (·.type)

/-- The expression at a place of a member: in which of its types, then where in that type. -/
def MemberDeclaration.at? (n : MemberDeclaration) : (place : List Nat) → Option TypeExpr
  | [] => none
  | i :: place => n.types[i]?.bind (TypeExpr.at? place)

/-- The types of a member that were looked up. -/
def InterfaceMember.types (m : InterfaceMember) : List TypeRef := m.returnType?.toList ++ m.parameters.map (·.type)

/-- The node at a place of a member. -/
def InterfaceMember.at? (m : InterfaceMember) : (place : List Nat) → Option TypeRef
  | [] => none
  | i :: place => m.types[i]?.bind (TypeRef.at? place)

theorem InterfaceMember.at?_append {m : InterfaceMember} {place : List Nat} {u : TypeRef} (h : m.at? place = some u)
    (below : List Nat) : m.at? (place ++ below) = u.at? below := by
  cases place with
  | nil => cases h
  | cons i place =>
    obtain ⟨r, hr, hu⟩ := Option.bind_eq_some_iff.mp h
    rw [List.cons_append, at?, hr, Option.bind_some, TypeRef.at?_append, hu, Option.bind_some]

namespace Program

variable {p : Program} {i r : TypeRef} {d : Declaration} {n : MemberDeclaration} {m : InterfaceMember} {name : String}

/-! ## Looking up and replacing -/

section Types

variable {scope : Scope} {ds : List Declaration} {suffix : String}

/-- Where something is inside a type expression, nothing is put for the whole of it. -/
theorem args_typeIn {t : TypeExpr} (h : t.children ≠ []) :
    (p.typeIn scope ds r t).args = t.children.map (p.typeIn scope ds r) := by
  rw [typeIn, TypeRef.substitute_of_ne_typeParameter _ (Binder.kind_bind_ne_typeParameter h), Binder.args_bind,
    List.map_map]
  rfl

/-- What is written at a place is looked up there. -/
theorem at?_typeIn : ∀ (place : List Nat) (t : TypeExpr) {u : TypeExpr}, t.at? place = some u →
    (p.typeIn scope ds r t).at? place = some (p.typeIn scope ds r u)
  | [], _, _, h => by
    cases h
    rfl
  | i :: place, t, u, h => by
    obtain ⟨c, hc, hu⟩ := Option.bind_eq_some_iff.mp h
    have hne : t.children ≠ [] := by
      intro hnil
      simp [hnil] at hc
    rw [TypeRef.at?, args_typeIn hne, List.getElem?_map, hc]
    exact at?_typeIn place c hu

/-- For a type parameter its argument is put, if it has one. -/
theorem typeIn_parameter (hname : IsParameterName name) (hs : name ∈ scope.typeParameters) :
    p.typeIn scope ds r (.named name [] suffix) = match argumentOf? ds r name with
      | some a => a.withSuffix (a.suffix ++ suffix)
      | none => (TypeRef.bare .typeParameter name).withSuffix suffix := by
  rw [typeIn, Binder.bind_parameter hname hs]
  cases h : argumentOf? ds r name with
  | some a => exact TypeRef.substitute_of_some _ rfl h
  | none => exact TypeRef.substitute_of_none _ h

/-- A type parameter in scope stays one where it can be one and no other argument is put for its name. -/
theorem isParameter_typeIn_iff (hs : name ∈ scope.typeParameters) :
    (p.typeIn scope ds r (.named name [] suffix)).IsParameter name ↔
      IsParameterName name ∧ ∀ a, argumentOf? ds r name = some a → a.IsParameter name := by
  by_cases hname : IsParameterName name
  · rw [typeIn_parameter hname hs, and_iff_right hname]
    cases argumentOf? ds r name with
    | some a =>
      refine ⟨fun h b hb => ?_, fun h => h a rfl⟩
      cases hb
      exact h
    | none => exact iff_of_true ⟨rfl, rfl⟩ fun a ha => nomatch ha
  · have hk : (p.binder.bind scope (.named name [] suffix)).kind ≠ .typeParameter := fun hk => by
      obtain ⟨⟨suffix, he⟩, hname', -⟩ := Binder.isParameter_bind_iff.mp ⟨hk, rfl⟩
      injection he with he
      exact hname (he ▸ hname')
    refine iff_of_false (fun h => hk ?_) fun h => hname h.1
    have hkind := h.1
    rwa [typeIn, TypeRef.substitute_of_ne_typeParameter _ hk] at hkind

end Types

/-! ## Members and what writes them -/

/-- The scope inside a member of a declaration. -/
def scopeIn (d : Declaration) (n : MemberDeclaration) : Scope :=
  (Scope.ofDeclaration d).withTypeParameters n.typeParameters

/-- The argument that is put for a type parameter in the members of a constructed interface. -/
def argumentIn? (p : Program) (r : TypeRef) (parameter : String) : Option TypeRef :=
  argumentOf? (p.declarationsOf r) r parameter

/-- The member is written in one of the declarations of its interface. -/
structure Writes (p : Program) (d : Declaration) (n : MemberDeclaration) (m : InterfaceMember) : Prop where
  declares : d ∈ p.declarationsOf m.declaringInterface
  mem : n ∈ d.members
  eq : m = p.memberOf (p.declarationsOf m.declaringInterface) m.declaringInterface d n

/-- Each member that is found is written somewhere. -/
theorem exists_writes {depth : Nat} {ms : List InterfaceMember} (h : p.membersWithin? depth i = some (.ok ms))
    (hm : m ∈ ms) : p.Inherits i m.declaringInterface ∧ ∃ d n, p.Writes d n m := by
  obtain ⟨s, hs, hm⟩ := exists_inherits_of_mem h hm
  obtain rfl := declaringInterface_of_mem hm
  obtain ⟨-, d, hd, n, hn, he⟩ := mem_declaredMembers_iff.mp hm
  exact ⟨hs, d, n, hd, hn, he⟩

namespace Writes

variable (w : p.Writes d n m)

include w

theorem typeParameters_eq : m.typeParameters = n.typeParameters := congrArg InterfaceMember.typeParameters w.eq

theorem types_eq :
    m.types = n.types.map (p.typeIn (scopeIn d n) (p.declarationsOf m.declaringInterface) m.declaringInterface) := by
  refine (congrArg InterfaceMember.types w.eq).trans ?_
  cases h : n.returnType? <;> simp [InterfaceMember.types, MemberDeclaration.types, memberOf, scopeIn, h]

/-- What is written at a place of the member is looked up there. -/
theorem at?_eq {place : List Nat} {t : TypeExpr} (h : n.at? place = some t) :
    m.at? place =
      some (p.typeIn (scopeIn d n) (p.declarationsOf m.declaringInterface) m.declaringInterface t) := by
  cases place with
  | nil => cases h
  | cons k place =>
    obtain ⟨written, hwritten, ht⟩ := Option.bind_eq_some_iff.mp h
    rw [InterfaceMember.at?, w.types_eq, List.getElem?_map, hwritten]
    exact at?_typeIn place written ht

end Writes

theorem mem_scopeIn_of_own (h : name ∈ n.typeParameters) : name ∈ (scopeIn d n).typeParameters :=
  List.mem_append_right _ h

/-! ## Own type parameters -/

/-- **A type parameter of a member's own stays one, wherever it is written, exactly if its name can be that of a type
parameter and no other argument of the interface is put for it; where no argument is, it stays as written.** -/
theorem own_parameters_stay_iff {depth : Nat} {ms : List InterfaceMember}
    (h : p.membersWithin? depth i = some (.ok ms)) (hm : m ∈ ms) :
    (∃ d n, p.Writes d n m) ∧ ∀ d n, p.Writes d n m → m.typeParameters = n.typeParameters ∧
      ∀ place name suffix, n.at? place = some (.named name [] suffix) → name ∈ n.typeParameters →
        ∃ u, m.at? place = some u ∧
          (u.IsParameter name ↔
            IsParameterName name ∧ ∀ a, p.argumentIn? m.declaringInterface name = some a → a.IsParameter name) ∧
          (IsParameterName name → p.argumentIn? m.declaringInterface name = none →
            u = (TypeRef.bare .typeParameter name).withSuffix suffix) := by
  refine ⟨(exists_writes h hm).2, fun d n w => ⟨w.typeParameters_eq, fun place name suffix hplace hown => ?_⟩⟩
  have hs : name ∈ (scopeIn d n).typeParameters := mem_scopeIn_of_own hown
  refine ⟨_, w.at?_eq hplace, isParameter_typeIn_iff hs, fun hname hnone => ?_⟩
  rw [typeIn_parameter hname hs, show argumentOf? _ _ name = none from hnone]

/-- A generic method in a generic interface: `Task<parameter> Get<T>(T key)`. -/
def boxGet (parameter : String) : MemberDeclaration :=
  ⟨"Get", .method, false, ["T"], some (.named "Task" [.named parameter [] ""] ""),
    [⟨"key", .named "T" [] "", none, none⟩]⟩

/-- The interface with this method. -/
def box (parameter : String) : Declaration :=
  { interfaceNamed none "IBox" with typeParameters := [parameter], members := [boxGet parameter] }

/-- A class whose stubs are wanted for the interface with its own type parameter `T` as the argument. -/
def boxWorker : Declaration :=
  { interfaceNamed none "Worker" with
    kind := .classType
    typeParameters := ["T"]
    attributes := [⟨"AddImplementation", [.named "IBox" [.named "T" [] ""] ""]⟩] }

/-- The program of the two. -/
def boxes (parameter : String) : Program := .ofModel (.ofList [box parameter, boxWorker]) []

/-- The method of the interface for a type, with the type of its parameter. -/
def getOfBox (a key : TypeRef) : InterfaceMember :=
  ⟨"Get", .method, false, ["T"], some (.named (some "System.Threading.Tasks") "Task" [a]), [⟨"key", key, none, none⟩],
    boxOf a⟩

theorem box_keeps_parameter :
    (boxes "U").membersWithin? 1 (boxOf (.bare .keyword "int")) =
        some (.ok [getOfBox (.bare .keyword "int") (.bare .typeParameter "T")]) ∧
      ∃ u, (getOfBox (.bare .keyword "int") (.bare .typeParameter "T")).at? [1] = some u ∧ u.IsParameter "T" := by
  have h : (boxes "U").membersWithin? 1 (boxOf (.bare .keyword "int")) =
      some (.ok [getOfBox (.bare .keyword "int") (.bare .typeParameter "T")]) := rfl
  have w : (boxes "U").Writes (box "U") (boxGet "U") (getOfBox (.bare .keyword "int") (.bare .typeParameter "T")) :=
    ⟨by decide, by decide, rfl⟩
  obtain ⟨u, hu, hstays, -⟩ := ((own_parameters_stay_iff h (by decide)).2 _ _ w).2 [1] "T" "" rfl (by decide)
  exact ⟨h, u, hu, hstays.mpr ⟨by decide, fun a ha => by cases ha⟩⟩

/-- A type parameter of the method's own gives way to the argument for the interface's type parameter of that name. -/
theorem box_replaces_parameter :
    (boxes "T").membersWithin? 1 (boxOf (.bare .keyword "int")) =
        some (.ok [getOfBox (.bare .keyword "int") (.bare .keyword "int")]) ∧
      (boxes "T").Writes (box "T") (boxGet "T") (getOfBox (.bare .keyword "int") (.bare .keyword "int")) ∧
      (boxGet "T").at? [1] = some (.named "T" [] "") ∧ "T" ∈ (boxGet "T").typeParameters ∧
      (getOfBox (.bare .keyword "int") (.bare .keyword "int")).at? [1] = some (.bare .keyword "int") :=
  ⟨rfl, ⟨by decide, by decide, rfl⟩, rfl, by decide, rfl⟩

/-! ## Type parameters in arguments -/

/-- At a place of the member as written stands a type parameter, and this argument of the interface is put for it. -/
def PutsAt (p : Program) (d : Declaration) (n : MemberDeclaration) (m : InterfaceMember) (place : List Nat)
    (a : TypeRef) : Prop :=
  ∃ name suffix, n.at? place = some (.named name [] suffix) ∧ IsParameterName name ∧
    name ∈ (scopeIn d n).typeParameters ∧ p.argumentIn? m.declaringInterface name = some a

/-- The node at a place of the member came there with an argument of the interface. -/
def Brings (p : Program) (d : Declaration) (n : MemberDeclaration) (m : InterfaceMember) (place : List Nat)
    (u : TypeRef) : Prop :=
  m.at? place = some u ∧ ∃ above below a, place = above ++ below ∧ p.PutsAt d n m above a

/-- A type parameter that came with an argument has the name of one that the member declares. -/
def Captures (p : Program) (d : Declaration) (n : MemberDeclaration) (m : InterfaceMember) : Prop :=
  ∃ place u name, p.Brings d n m place u ∧ u.IsParameter name ∧ name ∈ m.typeParameters

/-- No argument is put for a name that is a type parameter in some declaration of the interface. -/
def LeavesOpen (p : Program) (r : TypeRef) (name : String) : Prop :=
  p.argumentIn? r name = none ∧ ∃ d ∈ p.declarationsOf r, name ∈ (Scope.ofDeclaration d).typeParameters

theorem hasParameter_of_argumentIn? {a : TypeRef} {other : String} (ha : p.argumentIn? r other = some a)
    (h : a.HasParameter name) : r.HasParameter name :=
  TypeRef.hasParameter_iff.mpr (.inr ⟨a, mem_args_of_argumentOf? ha, h⟩)

/-- Where an argument is put, it stands with the marks of what it is put for. -/
theorem Writes.at?_of_putsAt (w : p.Writes d n m) {place : List Nat} {a : TypeRef} (ha : p.PutsAt d n m place a) :
    ∃ suffix, m.at? place = some (a.withSuffix suffix) := by
  obtain ⟨written, suffix, hplace, hname, hs, harg⟩ := ha
  refine ⟨a.suffix ++ suffix, ?_⟩
  rw [w.at?_eq hplace, typeIn_parameter hname hs, show argumentOf? _ _ written = some a from harg]

/-- What is brought with an argument is what stands in the argument. -/
theorem Writes.exists_brought_iff (w : p.Writes d n m) {above : List Nat} {a : TypeRef} (ha : p.PutsAt d n m above a) :
    (∃ below u, m.at? (above ++ below) = some u ∧ u.IsParameter name) ↔ a.HasParameter name := by
  obtain ⟨suffix, hnode⟩ := w.at?_of_putsAt ha
  simp only [InterfaceMember.at?_append hnode]
  exact TypeRef.hasParameter_withSuffix

/-- **The type parameters of an interface that is inherited from are those of the first one, or were left open on the
way.** -/
theorem Inherits.hasParameter (h : p.Inherits i r) (hr : r.HasParameter name) :
    i.HasParameter name ∨ ∃ s, p.Inherits i s ∧ p.LeavesOpen s name := by
  induction h with
  | self _ => exact .inl hr
  | @base s t hs ht _ ih =>
    obtain ⟨-, d, hd, e, -, rfl⟩ := mem_bases_iff.mp ht
    rcases TypeRef.HasParameter.of_substitute _ hr with ⟨hbind, hnone⟩ | ⟨other, a, -, ha, hname⟩
    · exact .inr ⟨s, hs, hnone, d, hd, Binder.mem_of_hasParameter_bind hbind⟩
    · exact ih (hasParameter_of_argumentIn? ha hname)

/-- **A member captures a type parameter exactly if one of its types mentions an argument of the interface with a type
parameter of the member's own name in it. All that comes with arguments is of the interface that was asked about, or was
left open on the way to the member; and a stub declares the type parameters of the member, over its types.** -/
theorem captures_iff {depth : Nat} {ms : List InterfaceMember} (h : p.membersWithin? depth i = some (.ok ms))
    (hm : m ∈ ms) : (∃ d n, p.Writes d n m) ∧ ∀ d n, p.Writes d n m →
      (p.Captures d n m ↔
        ∃ place a name, p.PutsAt d n m place a ∧ a.HasParameter name ∧ name ∈ n.typeParameters) ∧
      (∀ place u name, p.Brings d n m place u → u.IsParameter name →
        i.HasParameter name ∨ ∃ s, p.Inherits i s ∧ p.LeavesOpen s name) ∧
      ∀ allow s, m.signature allow = .ok s →
        s.typeParameters = n.typeParameters ∧ s.returnType :: s.parameters.map (·.type) = m.types := by
  obtain ⟨hinherits, hwritten⟩ := exists_writes h hm
  refine ⟨hwritten, fun d n w => ⟨⟨?_, ?_⟩, ?_, fun allow s hsig => ?_⟩⟩
  · rintro ⟨place, u, name, ⟨hu, above, below, a, rfl, ha⟩, hname, hown⟩
    exact ⟨above, a, name, ha, (w.exists_brought_iff ha).mp ⟨below, u, hu, hname⟩, w.typeParameters_eq ▸ hown⟩
  · rintro ⟨above, a, name, ha, hname, hown⟩
    obtain ⟨below, u, hu, hname⟩ := (w.exists_brought_iff ha).mpr hname
    exact ⟨above ++ below, u, name, ⟨hu, above, below, a, rfl, ha⟩, hname, w.typeParameters_eq ▸ hown⟩
  · rintro place u name ⟨hu, above, below, a, rfl, ha⟩ hname
    have hin : a.HasParameter name := (w.exists_brought_iff ha).mp ⟨below, u, hu, hname⟩
    obtain ⟨written, suffix, -, -, -, harg⟩ := ha
    exact hinherits.hasParameter (hasParameter_of_argumentIn? harg hin)
  · obtain ⟨-, hreturn, hparameters, htypes, -⟩ := InterfaceMember.signature_eq_ok hsig
    rw [htypes, hparameters, InterfaceMember.types, hreturn]
    exact ⟨w.typeParameters_eq, rfl⟩

theorem box_captures_nothing :
    (boxes "U").membersWithin? 1 (boxOf (.bare .typeParameter "V")) =
        some (.ok [getOfBox (.bare .typeParameter "V") (.bare .typeParameter "T")]) ∧
      ¬(boxes "U").Captures (box "U") (boxGet "U")
        (getOfBox (.bare .typeParameter "V") (.bare .typeParameter "T")) := by
  have h : (boxes "U").membersWithin? 1 (boxOf (.bare .typeParameter "V")) =
      some (.ok [getOfBox (.bare .typeParameter "V") (.bare .typeParameter "T")]) := rfl
  have w : (boxes "U").Writes (box "U") (boxGet "U")
      (getOfBox (.bare .typeParameter "V") (.bare .typeParameter "T")) := ⟨by decide, by decide, rfl⟩
  refine ⟨h, fun hcaptures => ?_⟩
  obtain ⟨place, a, name, ⟨written, suffix, -, -, -, ha⟩, hname, hown⟩ :=
    ((captures_iff h (by decide)).2 _ _ w).1.mp hcaptures
  obtain rfl : a = .bare .typeParameter "V" := List.mem_singleton.mp (mem_args_of_argumentOf? ha)
  obtain rfl : name = "T" := List.mem_singleton.mp hown
  rcases TypeRef.hasParameter_iff.mp hname with ⟨-, hname⟩ | ⟨b, hb, -⟩
  · exact absurd hname (by decide)
  · cases hb

/-- The type parameter of a class comes under the one of a method: in the header of the stub both are `T`. -/
theorem box_captures_parameter :
    (boxes "U").usesOn ⟨"AddImplementation"⟩ boxWorker = [.targeting (boxOf (.bare .typeParameter "T"))] ∧
      (boxes "U").membersWithin? 1 (boxOf (.bare .typeParameter "T")) =
        some (.ok [getOfBox (.bare .typeParameter "T") (.bare .typeParameter "T")]) ∧
      (boxes "U").Captures (box "U") (boxGet "U") (getOfBox (.bare .typeParameter "T") (.bare .typeParameter "T")) ∧
      (getOfBox (.bare .typeParameter "T") (.bare .typeParameter "T")).header? false =
        some "async Task<T> IBox<T>.Get<T>(T key)" := by
  have hputs : (boxes "U").PutsAt (box "U") (boxGet "U")
      (getOfBox (.bare .typeParameter "T") (.bare .typeParameter "T")) [0, 0] (.bare .typeParameter "T") :=
    ⟨"U", "", rfl, by decide, by decide, rfl⟩
  refine ⟨by decide +kernel, rfl, ?_, by decide +kernel⟩
  exact ⟨[0, 0], .bare .typeParameter "T", "T", ⟨rfl, [0, 0], [], _, rfl, hputs⟩, by decide, by decide⟩

end Program

end ContractStubs

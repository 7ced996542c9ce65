import ContractStubs.Proofs.Samples
import ContractStubs.Proofs.Stub.ForeignParameters
import ContractStubs.Proofs.Stub.Rereading

/-!
# The interfaces in front of stubs

In front of the name of a stub stands the interface that declares the member: a target of the request or a base of what
is inherited from. It is declared, and as nothing but an interface. A target has no marks, or there is no stub at all;
a base has those that are written on it, behind those of the argument for which it stands (`Program.suffix_typeIn`). So
there are stubs for interfaces that could not stand in a list of base types, and marks on bases are the only reason
(`Program.stubs_name_interfaces`).
-/

namespace ContractStubs

open TypeExpr

/-! ## Marks -/

/-- The nullable, array and pointer marks behind an expression. -/
def TypeExpr.marks : TypeExpr → String
  | .verbatim _ => ""
  | .named _ _ suffix => suffix
  | .tuple _ suffix => suffix

theorem Binder.suffix_bind (b : Binder) (scope : Scope) : ∀ t : TypeExpr, (b.bind scope t).suffix = t.marks
  | .verbatim _ => rfl
  | .named _ _ _ => by rw [bind]; rfl
  | .tuple _ _ => by rw [bind]; rfl

namespace Program

variable {p : Program} {scope : Scope} {ds : List Declaration} {r s i a : TypeRef} {t : TypeExpr}

/-- The marks of an argument stand before those of the type parameter that it is put for. -/
theorem suffix_typeIn_of_isPut (h : IsPut scope ds r t a) : (p.typeIn scope ds r t).suffix = a.suffix ++ t.marks := by
  obtain ⟨name, suffix, rfl, hname, hs, ha⟩ := h
  rw [typeIn, Binder.bind_parameter hname hs]
  simp [TypeRef.bare, TypeRef.withSuffix, TypeRef.substitute, ha, marks]

/-- An expression gets marks: it is written with some, or an argument that has some is put for it. -/
def GetsMarks (scope : Scope) (ds : List Declaration) (r : TypeRef) (t : TypeExpr) : Prop :=
  t.marks ≠ "" ∨ ∃ a, IsPut scope ds r t a ∧ a.suffix ≠ ""

theorem suffix_typeIn : (p.typeIn scope ds r t).suffix ≠ "" ↔ GetsMarks scope ds r t := by
  by_cases hput : ∃ a, IsPut scope ds r t a
  · obtain ⟨a, ha⟩ := hput
    have hmarks := suffix_typeIn_of_isPut (p := p) ha
    constructor
    · intro hne
      by_cases hwritten : t.marks = ""
      · rw [hmarks, hwritten, String.append_empty] at hne
        exact .inr ⟨a, ha, hne⟩
      · exact .inl hwritten
    · rintro (hwritten | ⟨a', ha', hargument⟩)
      · rw [hmarks]
        simp [hwritten]
      · rw [suffix_typeIn_of_isPut ha']
        simp [hargument]
  · have hkept : ∀ a, ¬IsPut scope ds r t a := not_exists.mp hput
    rw [typeIn_of_not_isPut hkept, GetsMarks, or_iff_left fun ⟨a, ha, _⟩ => hkept a ha, ← p.binder.suffix_bind scope t]

/-! ## Interfaces that may stand in a list -/

/-- A name that was read is not empty. -/
theorem name_ne_empty (h : r.Everywhere p.binder.Gives) (hk : r.kind ≠ .tuple) : r.name ≠ "" := by
  obtain ⟨first, rest, hfirst, hrest, hname⟩ := ((TypeRef.everywhere_iff.mp h).1.name hk).1
  intro hempty
  have htokens := tokens_dotted hfirst hrest
  rw [← hname, hempty] at htokens
  cases htokens

theorem isBase_iff (hkind : r.kind = .named) (hname : r.name ≠ "") : r.isBase = true ↔ r.suffix = "" := by
  simp [TypeRef.isBase, hkind, hname]

/-- No interface is written with a base that has marks, or with a base that is a type parameter. -/
def HasPlainBases (p : Program) : Prop := ∀ d ∈ p.model.declarations, d.kind = .interfaceType → ∀ e ∈ d.baseTypes,
  e.marks = "" ∧ (p.binder.bind (.ofDeclaration d) e).kind ≠ .typeParameter

instance : Decidable p.HasPlainBases := inferInstanceAs (Decidable (∀ d ∈ _, _ → ∀ e ∈ _, _))

/-- The reference is a base, with marks, of something that is inherited from. -/
def IsMarkedBase (p : Program) (i t : TypeRef) : Prop :=
  ∃ s, p.Inherits i s ∧ ∃ d ∈ p.declarationsOf s, ∃ e ∈ d.baseTypes,
    t = p.typeIn (.ofDeclaration d) (p.declarationsOf s) s e ∧ GetsMarks (.ofDeclaration d) (p.declarationsOf s) s e

/-- **What is inherited from has marks exactly where it is a base that got them.** -/
theorem Inherits.suffix_ne_iff (hi : i.suffix = "") (h : p.Inherits i r) : r.suffix ≠ "" ↔ p.IsMarkedBase i r := by
  constructor
  · intro hmarks
    cases h with
    | self => exact absurd hi hmarks
    | base hs ht =>
      obtain ⟨-, d, hd, e, he, rfl⟩ := mem_bases_iff.mp ht
      exact ⟨_, hs, d, hd, e, he, rfl, suffix_typeIn.mp hmarks⟩
  · rintro ⟨s, -, d, -, e, -, rfl, hmarks⟩
    exact suffix_typeIn.mpr hmarks

theorem HasPlainBases.not_isMarkedBase (hp : p.HasPlainBases) : ¬p.IsMarkedBase i r := by
  rintro ⟨s, hs, d, hd, e, he, -, hmarks⟩
  obtain ⟨hwritten, hkind⟩ := hp d (mem_declarationsOf.mp hd).2.1 (kind_of_mem_declarationsOf hs.isInterface hd) e he
  rcases hmarks with hmarks | ⟨a, ha, -⟩
  · exact hmarks hwritten
  · exact hkind (kind_of_isPut ha)

/-! ## The interfaces of a text -/

section Stubs

variable {depth : Nat} {allow : Bool} {outputExtension : String} {q : StubRequest} {marker : Marker} {ids : List Nat}
  {o : Obligation}

/-- What stands in front of the name of a stub. -/
structure NamesInterface (p : Program) (allow : Bool) (q : StubRequest) (o : Obligation) : Prop where
  header : ∀ header, p.headerFor? allow o = some header → (p.memberFor o).declaringInterface = o.interface ∧
    (p.memberFor o).IsHeadedBy header
  inherited : ∃ i ∈ q.interfaces, p.Inherits i o.interface
  kind : o.interface.kind = .named
  name : o.interface.name ≠ ""
  declared : p.declarationsOf o.interface ≠ []
  onlyInterfaces : ∀ d ∈ p.declarationsOf o.interface, d.kind = .interfaceType
  /-- It could not stand in a list of base types only if it is a base with marks. -/
  refused : o.interface.isBase = false ↔ ∃ i ∈ q.interfaces, p.IsMarkedBase i o.interface
  plain : p.HasPlainBases → o.interface.isBase = true

/-- **A stub is for a declared interface that is inherited from a target, and what is in front of its name could stand
in a list of base types, unless it is a base with marks.** -/
theorem stubs_name_interfaces (hp : p.model.IsRead) (hq : q ∈ (p.provider depth).requests marker ids)
    (h : ((p.provider depth).stubFile allow outputExtension q).isDegenerate = false) :
    ((p.provider depth).stubFile allow outputExtension q).HasMethods q ((p.provider depth).headersOf allow q) ∧
      (p.provider depth).headersOf allow q = (p.obligations depth q).filterMap (p.headerFor? allow) ∧
      ∀ o ∈ p.obligations depth q, p.NamesInterface allow q o := by
  refine ⟨Provider.hasMethods_headersOf h, headersOf_eq h, fun o ho => ?_⟩
  obtain ⟨i, hi, hinherits, -⟩ := inherits_of_mem_obligations h ho
  have hkind := kind_of_isInterface hinherits.isInterface
  obtain ⟨-, hdeclared, honly⟩ := interfaceDeclarations_eq_ok.mp (isInterface_iff.mp hinherits.isInterface)
  have hname : o.interface.name ≠ "" :=
    name_ne_empty (hinherits.everywhere hp (written_of_mem_interfaces hp hq hi)) (by simp [hkind])
  -- targets have no marks, since the clause of the text is made of them
  have hbase := (Provider.stubSource_of_not_isDegenerate h).2.1 i hi
  have htarget : i.suffix = "" := by
    rw [TypeRef.isBase, Bool.and_eq_true, Bool.and_eq_true] at hbase
    simpa using hbase.1.2
  have hrefused : o.interface.isBase = false ↔ ∃ i ∈ q.interfaces, p.IsMarkedBase i o.interface := by
    rw [Bool.eq_false_iff, ne_eq, isBase_iff hkind hname]
    constructor
    · intro hmarks
      exact ⟨i, hi, (hinherits.suffix_ne_iff htarget).mp hmarks⟩
    · rintro ⟨j, -, s, -, d, -, e, -, he, hmarks⟩
      rw [he]
      exact suffix_typeIn.mpr hmarks
  refine ⟨fun header hheader => ⟨rfl, InterfaceMember.isHeadedBy_of_header? hheader⟩, ⟨i, hi, hinherits⟩, hkind, hname,
    hdeclared, honly, hrefused, fun hplain => ?_⟩
  by_contra hnot
  obtain ⟨j, -, hmarked⟩ := hrefused.mp (Bool.eq_false_iff.mpr hnot)
  exact hplain.not_isMarkedBase hmarked

end Stubs

/-! ## Bases with marks -/

/-- A worker for an interface with a base that is written like this. -/
def workerBehind (parameters : List String) (base target : TypeExpr) : Program := .ofModel (.ofList [
  speaking none "IInner" "Run" [],
  { interfaceNamed none "IOuter" with typeParameters := parameters, baseTypes := [base] },
  { interfaceNamed none "Worker" with kind := .classType, attributes := [⟨"AddImplementation", [target]⟩] }]) []

/-- The inner interface with marks. -/
def innerWith (suffix : String) : TypeRef := (TypeRef.named none "IInner" []).withSuffix suffix

/-- What is asked for behind the outer interface. -/
def runOf (interface : TypeRef) : Obligation := ⟨interface, speaking none "IInner" "Run" [], tasked "Run"⟩

theorem plain_base_named :
    let p := workerBehind [] (.named "IInner" [] "") (.named "IOuter" [] "")
    let q := workerAsking 2 [.named none "IOuter" []]
    p.model.IsRead ∧ q ∈ p.standardRequests ∧ ((p.provider 3).stubFile false ".g.cs" q).isDegenerate = false ∧
      runOf (innerWith "") ∈ p.obligations 3 q ∧
      p.headerFor? false (runOf (innerWith "")) = some "async Task IInner.Run()" ∧
      p.HasPlainBases ∧ (innerWith "").isBase = true := by
  intro p q
  have hread : p.model.IsRead := isRead_of_parse_toText (by decide +kernel)
  have hrequest : q ∈ p.standardRequests := by decide +kernel
  have hunit : ((p.provider 3).stubFile false ".g.cs" q).isDegenerate = false := by decide +kernel
  have ho : runOf (innerWith "") ∈ p.obligations 3 q := by decide +kernel
  have hplain : p.HasPlainBases := by decide +kernel
  have hnames : p.NamesInterface false q (runOf (innerWith "")) :=
    (stubs_name_interfaces hread hrequest hunit).2.2 (runOf (innerWith "")) ho
  exact ⟨hread, hrequest, hunit, ho, by decide +kernel, hplain, hnames.plain hplain⟩

/-- A unit of a program has a stub with this header, for an interface that could not stand in a list of base types. -/
def HasRefusedStub (p : Program) (q : StubRequest) (header : String) : Prop :=
  p.model.IsRead ∧ q ∈ p.standardRequests ∧ ((p.provider 3).stubFile false ".g.cs" q).isDegenerate = false ∧
    ∃ o ∈ p.obligations 3 q, p.headerFor? false o = some header ∧ o.interface.suffix ≠ "" ∧ o.interface.isBase = false

/-- An array of interfaces in front of a stub, as it is written for a base and as an argument that is put for one. -/
theorem marked_bases_named :
    (workerBehind [] (.named "IInner" [] "[]") (.named "IOuter" [] "")).HasRefusedStub
        (workerAsking 2 [.named none "IOuter" []]) "async Task IInner[].Run()" ∧
      (workerBehind ["T"] (.named "T" [] "") (.named "IOuter" [.named "IInner" [] "[]"] "")).HasRefusedStub
        (workerAsking 2 [.named none "IOuter" [innerWith "[]"]]) "async Task IInner[].Run()" := by
  constructor
  · exact ⟨isRead_of_parse_toText (by decide +kernel), by decide +kernel, by decide +kernel, runOf (innerWith "[]"),
      by decide +kernel, by decide +kernel, by decide, by decide⟩
  · exact ⟨isRead_of_parse_toText (by decide +kernel), by decide +kernel, by decide +kernel, runOf (innerWith "[]"),
      by decide +kernel, by decide +kernel, by decide, by decide⟩

end Program

end ContractStubs

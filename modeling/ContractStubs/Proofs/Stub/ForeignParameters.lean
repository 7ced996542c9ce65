import ContractStubs.Proofs.Binding.Words
import ContractStubs.Proofs.Inheritance.Parameters
import ContractStubs.Proofs.Samples
import ContractStubs.Proofs.Stub.Obligations
import ContractStubs.Proofs.Stub.Written

/-!
# Type parameters that stay behind

The types of a stub are those that the member is written with, looked up, with the arguments of its interface put for
type parameters. So a word in them came with an argument, or stayed behind where it is written
(`Program.says_memberFor_iff`): in a text that was kept as it was written, in a name that is no type parameter there, or
as a type parameter for which the interface has no argument. A type parameter of the interface that a stub does not know
can therefore stand in it in these three ways only (`Program.foreign_words_stay`), and in all three it can.
-/

namespace ContractStubs

open TypeExpr

/-! ## Words in members -/

/-- The word stands in one of the types of the member. -/
def InterfaceMember.Says (m : InterfaceMember) (word : String) : Prop := ∃ t ∈ m.types, t.Says word

/-- The words in the types of a member stand in the names of its nodes. -/
theorem InterfaceMember.says_iff {m : InterfaceMember} {word : String} :
    m.Says word ↔ ∃ place u, m.at? place = some u ∧ .word word ∈ tokens u.name := by
  constructor
  · rintro ⟨t, ht, place, u, hu, hword⟩
    obtain ⟨i, hi⟩ := List.mem_iff_getElem?.mp ht
    exact ⟨i :: place, u, by rw [at?, hi]; exact hu, hword⟩
  · rintro ⟨_ | ⟨i, place⟩, u, hu, hword⟩
    · cases hu
    · obtain ⟨t, ht, hu⟩ := Option.bind_eq_some_iff.mp hu
      exact ⟨t, List.mem_of_getElem? ht, place, u, hu, hword⟩

/-- Apart from the names of tuple elements, the text of a type that was looked up has the words of its names. -/
theorem Binder.Written.mem_tokens_toText_iff {b : Binder} {t : TypeRef} {word : String} (ht : b.Written t) :
    .word word ∈ tokens t.toText ↔ t.Says word ∨ t.NamesElement word := by
  rcases ht with ht | ⟨-, ht⟩
  · exact Binder.mem_tokens_toText_iff ht
  · have hnone : ¬t.NamesElement word := by
      rw [TypeRef.namesElement_iff, ht]
      simp [TypeRef.bare]
    rw [or_iff_left hnone, ht, toText_verbatim, TypeRef.says_bare]

theorem Program.MemberWritten.of_mem_types {b : Binder} {m : InterfaceMember} {t : TypeRef} (h : MemberWritten b m)
    (ht : t ∈ m.types) : b.Written t := by
  rcases List.mem_append.mp ht with ht | ht
  · exact h.returnType t (Option.mem_toList.mp ht)
  · obtain ⟨q, hq, rfl⟩ := List.mem_map.mp ht
    exact h.parameters q hq

/-- The header is that of a method with the types of the member. -/
def InterfaceMember.IsHeadedBy (m : InterfaceMember) (header : String) : Prop :=
  ∃ returnType, m.returnType? = some returnType ∧ ∃ lead, (lead = "" ∨ lead = "async ") ∧
    header = lead ++ (returnType.toText ++ " " ++ m.declaringInterface.toText ++ "." ++
      withTypeParameters m.name m.typeParameters ++ "(" ++ commaSeparated (m.parameters.map Parameter.toText) ++ ")")

/-- A method with a header has that of its types, whether it has a signature or not. -/
theorem InterfaceMember.isHeadedBy_of_header? {m : InterfaceMember} {allow : Bool} {header : String}
    (h : m.header? allow = some header) : m.IsHeadedBy header := by
  rw [header?] at h
  split at h
  next s hs =>
    cases h
    obtain ⟨returnType, result, hreturn, rfl⟩ := signature_eq_ofTypes hs
    refine ⟨returnType, hreturn, if result.isAsync then "async " else "", ?_, rfl⟩
    split
    · exact .inr rfl
    · exact .inl rfl
  next =>
    rw [fallbackStub?] at h
    split at h
    next => cases h
    next returnType hreturn =>
      split at h
      next => cases h
      next =>
        cases h
        exact ⟨returnType, (Option.filter_eq_some_iff.mp hreturn).1, "", .inl rfl, String.empty_append.symm⟩

namespace Program

variable {p : Program} {d : Declaration} {n : MemberDeclaration} {m : InterfaceMember} {o : Obligation} {r : TypeRef}
  {scope : Scope} {ds : List Declaration} {name word : String}

/-! ## What is put and what stays -/

/-- The expression is the name of a type parameter in scope, for which this argument is put. -/
def IsPut (scope : Scope) (ds : List Declaration) (r : TypeRef) (t : TypeExpr) (a : TypeRef) : Prop :=
  ∃ name suffix, t = .named name [] suffix ∧ IsParameterName name ∧ name ∈ scope.typeParameters ∧
    argumentOf? ds r name = some a

/-- Nothing is put for anything else; it only has arguments put inside it. -/
theorem typeIn_of_not_isPut {t : TypeExpr} (h : ∀ a, ¬IsPut scope ds r t a) : p.typeIn scope ds r t =
    { p.binder.bind scope t with args := t.children.map (p.typeIn scope ds r) } := by
  have hkept : ¬((p.binder.bind scope t).kind = .typeParameter ∧
      ∃ a, argumentOf? ds r (p.binder.bind scope t).name = some a) := by
    rintro ⟨hkind, a, ha⟩
    obtain ⟨⟨suffix, ht⟩, hname, hs⟩ := Binder.isParameter_bind_iff.mp ⟨hkind, rfl⟩
    exact h a ⟨_, suffix, ht, hname, hs, ha⟩
  rw [typeIn, TypeRef.substitute_of_kept _ hkept, Binder.args_bind, List.map_map]
  rfl

/-- A node of what was looked up is below an argument that was put, or is what is written at its place. -/
theorem isPut_or_written (place : List Nat) (t : TypeExpr) {u : TypeRef}
    (hu : (p.typeIn scope ds r t).at? place = some u) :
    (∃ above below v a, place = above ++ below ∧ t.at? above = some v ∧ IsPut scope ds r v a) ∨
      ∃ v, t.at? place = some v ∧ u = p.typeIn scope ds r v ∧ ∀ a, ¬IsPut scope ds r v a := by
  by_cases hput : ∃ a, IsPut scope ds r t a
  · obtain ⟨a, ha⟩ := hput
    exact .inl ⟨[], place, t, a, rfl, rfl, ha⟩
  have hkept : ∀ a, ¬IsPut scope ds r t a := not_exists.mp hput
  cases place with
  | nil =>
    cases hu
    exact .inr ⟨t, rfl, rfl, hkept⟩
  | cons i place =>
    -- nothing is put for the whole, so the step into it is one into what is written
    obtain ⟨b, hb, hu⟩ := Option.bind_eq_some_iff.mp hu
    rw [typeIn_of_not_isPut hkept, List.getElem?_map] at hb
    obtain ⟨c, hc, rfl⟩ := Option.map_eq_some_iff.mp hb
    have hstep : ∀ {place v}, c.at? place = some v → t.at? (i :: place) = some v := fun {place v} hv => by
      rw [TypeExpr.at?, hc]
      exact hv
    rcases isPut_or_written place c hu with ⟨above, below, v, a, rfl, hv, ha⟩ | ⟨v, hv, hw, hnot⟩
    · exact .inl ⟨i :: above, below, v, a, rfl, hstep hv, ha⟩
    · exact .inr ⟨v, hstep hv, hw, hnot⟩

theorem putsAt_iff {place : List Nat} {a : TypeRef} : p.PutsAt d n m place a ↔ ∃ t, n.at? place = some t ∧
    IsPut (scopeIn d n) (p.declarationsOf m.declaringInterface) m.declaringInterface t a := by
  constructor
  · rintro ⟨name, suffix, hplace, hput⟩
    exact ⟨_, hplace, name, suffix, rfl, hput⟩
  · rintro ⟨_, hplace, name, suffix, rfl, hput⟩
    exact ⟨name, suffix, hplace, hput⟩

/-- A node of a member came with an argument, or is what is written at its place. -/
theorem Writes.brings_or_written (w : p.Writes d n m) {place : List Nat} {u : TypeRef} (hu : m.at? place = some u) :
    p.Brings d n m place u ∨ ∃ t, n.at? place = some t ∧
      u = p.typeIn (scopeIn d n) (p.declarationsOf m.declaringInterface) m.declaringInterface t ∧
      ∀ a, ¬IsPut (scopeIn d n) (p.declarationsOf m.declaringInterface) m.declaringInterface t a := by
  cases place with
  | nil => cases hu
  | cons i place =>
    obtain ⟨b, hb, hub⟩ := Option.bind_eq_some_iff.mp hu
    rw [w.types_eq, List.getElem?_map] at hb
    obtain ⟨t, ht, rfl⟩ := Option.map_eq_some_iff.mp hb
    have hstep : ∀ {place v}, t.at? place = some v → n.at? (i :: place) = some v := fun {place v} hv => by
      rw [MemberDeclaration.at?, ht]
      exact hv
    rcases isPut_or_written place t hub with ⟨above, below, v, a, rfl, hv, ha⟩ | ⟨v, hv, hw, hnot⟩
    · exact .inl ⟨hu, i :: above, below, a, rfl, putsAt_iff.mpr ⟨v, hstep hv, ha⟩⟩
    · exact .inr ⟨v, hstep hv, hw, hnot⟩

/-! ## Words that stay behind -/

/-- What is written in a member, with its names looked up. -/
def lookedUp (p : Program) (o : Obligation) (t : TypeExpr) : TypeRef := p.binder.bind (scopeIn o.declaration o.member) t

/-- The word stays behind with what is written in a member. -/
inductive Leaves (p : Program) (o : Obligation) (word : String) : TypeExpr → Prop
  /-- It stands in a text that is kept as it was written. -/
  | verbatim {text : String} : .word word ∈ tokens text → Leaves p o word (.verbatim text)
  /-- It is part of a name that is looked up as no type parameter. -/
  | otherName {name : String} {args : List TypeExpr} {suffix : String} :
      (p.lookedUp o (.named name args suffix)).kind ≠ .typeParameter →
      .word word ∈ tokens (p.lookedUp o (.named name args suffix)).name → Leaves p o word (.named name args suffix)
  /-- It is the name of a type parameter for which the interface has no argument. -/
  | withoutArgument {name suffix : String} : IsParameterName name →
      name ∈ (scopeIn o.declaration o.member).typeParameters → p.argumentIn? o.interface name = none →
      .word word ∈ tokens name → Leaves p o word (.named name [] suffix)

theorem kind_of_isPut {t : TypeExpr} {a : TypeRef} (h : IsPut scope ds r t a) :
    (p.binder.bind scope t).kind = .typeParameter := by
  obtain ⟨name, suffix, rfl, hname, hs, -⟩ := h
  rw [Binder.bind_parameter hname hs]
  rfl

/-- What stays behind stands in names for which nothing is put. -/
theorem leaves_iff {t : TypeExpr} : p.Leaves o word t ↔ .word word ∈ tokens (p.lookedUp o t).name ∧
    ∀ a, ¬IsPut (scopeIn o.declaration o.member) (p.declarationsOf o.interface) o.interface t a := by
  constructor
  · intro h
    cases h with
    | verbatim hword => exact ⟨hword, fun a ha => nomatch (kind_of_isPut (p := p) ha)⟩
    | otherName hkind hword => exact ⟨hword, fun a ha => hkind (kind_of_isPut ha)⟩
    | @withoutArgument name suffix hname hs hnone hword =>
      refine ⟨?_, ?_⟩
      · rwa [lookedUp, Binder.bind_parameter hname hs]
      · rintro a ⟨_, _, ht, -, -, ha⟩
        cases ht
        exact absurd ha (by rw [show argumentOf? _ _ name = none from hnone]; simp)
  · rintro ⟨hword, hnot⟩
    cases t with
    | verbatim text => exact .verbatim hword
    | tuple elements suffix => exact absurd hword word_not_mem_tokens_empty
    | named name args suffix =>
      by_cases hkind : (p.lookedUp o (.named name args suffix)).kind = .typeParameter
      · obtain ⟨⟨_, ht⟩, hname, hs⟩ := Binder.isParameter_bind_iff.mp ⟨hkind, rfl⟩
        obtain ⟨hsame, rfl, -⟩ := TypeExpr.named.inj ht
        rw [← hsame] at hname hs
        have hnone : p.argumentIn? o.interface name = none :=
          Option.eq_none_iff_forall_ne_some.mpr fun a ha => hnot a ⟨name, suffix, rfl, hname, hs, ha⟩
        exact .withoutArgument hname hs hnone (hsame ▸ hword)
      · exact .otherName hkind hword

/-- **A word in the types of a member stayed behind where it is written, or came with an argument of the interface.** -/
theorem says_memberFor_iff (w : p.Writes o.declaration o.member (p.memberFor o)) : (p.memberFor o).Says word ↔
    (∃ place t, o.member.at? place = some t ∧ p.Leaves o word t) ∨
      ∃ place a, p.PutsAt o.declaration o.member (p.memberFor o) place a ∧ a.Says word := by
  rw [InterfaceMember.says_iff]
  constructor
  · rintro ⟨place, u, hu, hword⟩
    rcases w.brings_or_written hu with ⟨-, above, below, a, rfl, ha⟩ | ⟨t, ht, rfl, hnot⟩
    · obtain ⟨suffix, hnode⟩ := w.at?_of_putsAt ha
      rw [InterfaceMember.at?_append hnode] at hu
      exact .inr ⟨above, a, ha, TypeRef.says_withSuffix.mp ⟨below, u, hu, hword⟩⟩
    · rw [typeIn_of_not_isPut hnot] at hword
      exact .inl ⟨place, t, ht, leaves_iff.mpr ⟨hword, hnot⟩⟩
  · rintro (⟨place, t, ht, hleaves⟩ | ⟨place, a, ha, hword⟩)
    · obtain ⟨hword, hnot⟩ := leaves_iff.mp hleaves
      exact ⟨place, _, (w.at?_eq ht).trans (congrArg some (typeIn_of_not_isPut hnot)), hword⟩
    · obtain ⟨suffix, hnode⟩ := w.at?_of_putsAt ha
      obtain ⟨below, u, hu, hword⟩ := TypeRef.says_withSuffix.mpr hword
      exact ⟨place ++ below, u, (InterfaceMember.at?_append hnode below).trans hu, hword⟩

/-! ## Foreign type parameters -/

/-- The word is a type parameter of the interface that declares a method, in one of its declarations or around it, but
none of the target or of the method; nor does it stand in an argument of the interface. -/
structure IsForeign (p : Program) (r : StubRequest) (o : Obligation) (word : String) : Prop where
  ofInterface : ∃ d ∈ p.declarationsOf o.interface, word ∈ (Scope.ofDeclaration d).typeParameters
  notOfTarget : word ∉ r.target.containers.flatMap (·.typeParameters) ++ r.target.typeParameters
  notOfMethod : word ∉ o.member.typeParameters
  notInArguments : ∀ a ∈ o.interface.args, ¬a.Says word

/-- The declarations of the interface have the same type parameters, and none is inside a generic type. -/
def SharesParameters (p : Program) (r : TypeRef) : Prop :=
  ∃ names, ∀ d ∈ p.declarationsOf r, d.containers.flatMap (·.typeParameters) = [] ∧ d.typeParameters = names

/-- The word is written in the member as a name alone. -/
def WritesBare (n : MemberDeclaration) (word : String) : Prop :=
  ∀ place t, n.at? place = some t → .word word ∈ tokens t.writtenName → ∃ suffix, t = .named word [] suffix

theorem mem_args_of_putsAt {place : List Nat} {a : TypeRef} (h : p.PutsAt d n m place a) :
    a ∈ m.declaringInterface.args := by
  obtain ⟨name, suffix, -, -, -, ha⟩ := h
  exact mem_args_of_argumentOf? ha

/-- What has the name of a type parameter in the first declaration has an argument. -/
theorem argumentOf?_ne_none (harity : d.typeParameters.length = r.args.length) (hname : name ∈ d.typeParameters) :
    argumentOf? (d :: ds) r name ≠ none := by
  rw [← List.map_fst_zip harity.le] at hname
  obtain ⟨⟨_, a⟩, hpair, rfl⟩ := List.mem_map.mp hname
  rw [argumentOf?, ne_eq, List.lookup_eq_none_iff]
  intro hnone
  simpa using hnone _ (List.mem_reverse.mpr hpair)

/-- Where the declarations share their type parameters, a type parameter of one is in scope in all and has an
argument. -/
theorem SharesParameters.inScope_and_argument (h : p.SharesParameters r) {e : Declaration} (hd : d ∈ p.declarationsOf r)
    (he : e ∈ p.declarationsOf r) (hname : name ∈ (Scope.ofDeclaration d).typeParameters) :
    name ∈ (Scope.ofDeclaration e).typeParameters ∧ p.argumentIn? r name ≠ none := by
  obtain ⟨names, hnames⟩ := h
  have hscope : ∀ e ∈ p.declarationsOf r, (Scope.ofDeclaration e).typeParameters = e.typeParameters ∧
      e.typeParameters = names := by
    intro e he
    obtain ⟨hcontainers, hown⟩ := hnames e he
    rw [Scope.ofDeclaration, hcontainers, List.nil_append]
    exact ⟨rfl, hown⟩
  rw [(hscope d hd).1, (hscope d hd).2] at hname
  refine ⟨by rwa [(hscope e he).1, (hscope e he).2], ?_⟩
  obtain ⟨first, rest, hfirst⟩ := List.exists_cons_of_ne_nil (List.ne_nil_of_mem hd)
  have hmem : first ∈ p.declarationsOf r := hfirst ▸ List.mem_cons_self
  rw [argumentIn?, hfirst]
  refine argumentOf?_ne_none (congrArg DeclarationKey.arity (mem_declarationsOf.mp hmem).2.2) ?_
  rwa [(hscope first hmem).2]

/-! ## The words of a stub -/

section Stubs

variable {depth : Nat} {allow : Bool} {outputExtension : String} {q : StubRequest}

/-- What a method that is asked for is written in, and where the interface that declares it comes from. -/
theorem inherits_of_mem_obligations
    (h : ((p.provider depth).stubFile allow outputExtension q).isDegenerate = false) (ho : o ∈ p.obligations depth q) :
    ∃ i ∈ q.interfaces, p.Inherits i o.interface ∧ p.Writes o.declaration o.member (p.memberFor o) := by
  obtain ⟨s, hs, ho⟩ := List.mem_flatMap.mp ho
  obtain ⟨i, hi, hs⟩ := List.mem_flatMap.mp hs
  obtain ⟨d, hd, ho⟩ := List.mem_flatMap.mp ho
  obtain ⟨n, hn, rfl⟩ := List.mem_map.mp ho
  refine ⟨i, hi, (visit_explores (visit_of_not_isDegenerate h hi).1).inherits_of_mem hs, ?_⟩
  exact ⟨hd, (List.mem_filter.mp hn).1, rfl⟩

/-- What the words in the types of a stub are. -/
structure TracksWords (p : Program) (depth : Nat) (allow : Bool) (q : StubRequest) (o : Obligation) : Prop where
  /-- The stub is written with the types of the member. -/
  header : ∀ header, p.headerFor? allow o = some header → (p.memberFor o).IsHeadedBy header
  /-- The words in their texts are those of their names, and the names of tuple elements. -/
  texts : ∀ marker ids, p.model.IsRead → q ∈ (p.provider depth).requests marker ids → ∀ t ∈ (p.memberFor o).types,
    ∀ word, .word word ∈ tokens t.toText ↔ t.Says word ∨ t.NamesElement word
  /-- A word stayed behind where it is written, or came with an argument of the interface. -/
  words : ∀ word, (p.memberFor o).Says word ↔ (∃ place t, o.member.at? place = some t ∧ p.Leaves o word t) ∨
    ∃ place a, p.PutsAt o.declaration o.member (p.memberFor o) place a ∧ a.Says word
  /-- A foreign type parameter stayed behind. -/
  foreign : ∀ word, p.IsForeign q o word →
    ((p.memberFor o).Says word ↔ ∃ place t, o.member.at? place = some t ∧ p.Leaves o word t)
  /-- None stays behind where the declarations share their type parameters and it is written as a name alone. -/
  shared : ∀ word, p.IsForeign q o word → p.SharesParameters o.interface → isKeywordType word = false →
    WritesBare o.member word → ¬(p.memberFor o).Says word

theorem tracksWords (h : ((p.provider depth).stubFile allow outputExtension q).isDegenerate = false)
    (ho : o ∈ p.obligations depth q) : p.TracksWords depth allow q o := by
  obtain ⟨i, hi, hinherits, w⟩ := inherits_of_mem_obligations h ho
  have hforeign : ∀ word, p.IsForeign q o word →
      ((p.memberFor o).Says word ↔ ∃ place t, o.member.at? place = some t ∧ p.Leaves o word t) := by
    intro word hword
    rw [says_memberFor_iff w]
    refine or_iff_left ?_
    rintro ⟨place, a, ha, hsaid⟩
    exact hword.notInArguments a (mem_args_of_putsAt ha) hsaid
  refine ⟨fun header => InterfaceMember.isHeadedBy_of_header?, ?_, fun word => says_memberFor_iff w, hforeign, ?_⟩
  · intro marker ids hp hq t ht word
    have hs := hinherits.everywhere hp (written_of_mem_interfaces hp hq hi)
    have hmember : p.memberFor o ∈ p.declaredMembers o.interface :=
      mem_declaredMembers_iff.mpr ⟨hinherits.isInterface, _, w.declares, _, w.mem, rfl⟩
    exact ((memberWritten_of_declared hp hs hmember).of_mem_types ht).mem_tokens_toText_iff
  · intro word hword hshared hkeyword hbare hsaid
    obtain ⟨place, t, ht, hleaves⟩ := (hforeign word hword).mp hsaid
    obtain ⟨hname, hnot⟩ := leaves_iff.mp hleaves
    have hplain : IsParameterName word := ⟨hkeyword, splitQualifier?_of_isWord (isWord_of_mem_tokens hname)⟩
    obtain ⟨suffix, rfl⟩ := hbare place t ht (Binder.mem_tokens_of_name_bind hname)
    obtain ⟨d, hd, hdeclares⟩ := hword.ofInterface
    obtain ⟨hs, hargument⟩ := hshared.inScope_and_argument hd w.declares hdeclares
    obtain ⟨a, ha⟩ := Option.ne_none_iff_exists'.mp hargument
    exact hnot a ⟨word, suffix, rfl, hplain, List.mem_append_left _ hs, ha⟩

/-- **A type parameter of an interface that a stub for its members does not know stands in the stub only where it stayed
behind**: in a text that was kept as it was written, in the name of something else, or as a type parameter for which the
interface has no argument. -/
theorem foreign_words_stay (h : ((p.provider depth).stubFile allow outputExtension q).isDegenerate = false) :
    ((p.provider depth).stubFile allow outputExtension q).HasMethods q ((p.provider depth).headersOf allow q) ∧
      (p.provider depth).headersOf allow q = (p.obligations depth q).filterMap (p.headerFor? allow) ∧
      ∀ o ∈ p.obligations depth q, p.TracksWords depth allow q o :=
  ⟨Provider.hasMethods_headersOf h, headersOf_eq h, fun _ ho => tracksWords h ho⟩

end Stubs

/-! ## Boxes -/

/-- A method that takes something of a type. -/
def putOf (item : TypeExpr) : MemberDeclaration :=
  ⟨"Put", .method, false, [], some (.named "Task" [] ""), [⟨"item", item, none, none⟩]⟩

/-- A part of an interface with this method. -/
def puttingBox (parameters : List String) (item : TypeExpr) : Declaration :=
  { interfaceNamed none "IBox" with typeParameters := parameters, members := [putOf item] }

/-- The parts of an interface, and a worker for it. -/
def packing (parts : List Declaration) (target : TypeExpr) : Program := .ofModel (.ofList (parts ++ [
  { interfaceNamed none "Worker" with
    kind := .classType
    attributes := [⟨"AddImplementation", [target]⟩] }])) []

/-- A box of numbers, as it is written. -/
def writtenNumberBox : TypeExpr := .named "IBox" [.named "int" [] ""] ""

/-- A box of numbers. -/
def numberBox : TypeRef := boxOf (.bare .keyword "int")

/-- The worker, behind so many other declarations, asks for an interface. -/
def packer (id : Nat) (target : TypeRef) : StubRequest :=
  ⟨⟨none, [], "Worker", [], .classType, [id]⟩, [.targeting target]⟩

theorem eq_of_at?_plain {place : List Nat} {suffix : String} {t : TypeExpr}
    (h : (TypeExpr.named name [] suffix).at? place = some t) : t = .named name [] suffix := by
  cases place with
  | nil => exact (Option.some.inj h).symm
  | cons i place => cases h

theorem writesBare_putOf : WritesBare (putOf (.named "T" [] "")) "T" := by
  intro place t ht hword
  cases place with
  | nil => cases ht
  | cons i place =>
    obtain ⟨written, hwritten, ht⟩ := Option.bind_eq_some_iff.mp ht
    rcases List.mem_pair.mp (List.mem_of_getElem? hwritten) with rfl | rfl
    · obtain rfl := eq_of_at?_plain ht
      exact absurd hword (by decide +kernel)
    · exact ⟨"", eq_of_at?_plain ht⟩

theorem not_says_number (h : .word word ∉ tokens "int") : ∀ a ∈ numberBox.args, ¬a.Says word := by
  intro a ha
  obtain rfl := List.mem_singleton.mp ha
  rwa [TypeRef.says_bare]

/-- A number for a type parameter leaves nothing of it. -/
theorem number_replaces_parameter :
    let p := packing [puttingBox ["T"] (.named "T" [] "")] writtenNumberBox
    let q := packer 1 numberBox
    let o : Obligation := ⟨numberBox, puttingBox ["T"] (.named "T" [] ""), putOf (.named "T" [] "")⟩
    q ∈ p.standardRequests ∧ ((p.provider 3).stubFile false ".g.cs" q).isDegenerate = false ∧
      o ∈ p.obligations 3 q ∧ p.headerFor? false o = some "async Task IBox<int>.Put(int item)" ∧
      p.IsForeign q o "T" ∧ ¬(p.memberFor o).Says "T" := by
  intro p q o
  have hunit : ((p.provider 3).stubFile false ".g.cs" q).isDegenerate = false := by decide +kernel
  have ho : o ∈ p.obligations 3 q := by decide +kernel
  have hforeign : p.IsForeign q o "T" :=
    ⟨by decide +kernel, by decide, by decide, not_says_number (by decide +kernel)⟩
  have hshared : p.SharesParameters o.interface := ⟨["T"], by decide +kernel⟩
  have htracks : p.TracksWords 3 false q o := (foreign_words_stay hunit).2.2 o ho
  exact ⟨by decide +kernel, hunit, ho, by decide +kernel, hforeign,
    htracks.shared "T" hforeign hshared (by decide +kernel) writesBare_putOf⟩

/-- Some stub of a program has this header and in its types a foreign type parameter. -/
def Leaks (p : Program) (word header : String) : Prop :=
  ∃ q ∈ p.standardRequests, ((p.provider 3).stubFile false ".g.cs" q).isDegenerate = false ∧
    ∃ o ∈ p.obligations 3 q, p.headerFor? false o = some header ∧ p.IsForeign q o word ∧ (p.memberFor o).Says word

/-- A type parameter stays behind in a text that was kept as it was written, under a name that only the second part of
the interface declares, under one that only the first part declares, and as that of an enclosing class. -/
theorem foreign_words_left :
    TypeExpr.parse "Outer<T>.Item" = .verbatim "Outer<T>.Item" ∧
      (packing [puttingBox ["T"] (.verbatim "Outer<T>.Item")] writtenNumberBox).Leaks "T"
        "async Task IBox<int>.Put(Outer<T>.Item item)" ∧
      (packing [puttingBox ["T"] (.named "T" [] ""), puttingBox ["U"] (.named "U" [] "")] writtenNumberBox).Leaks "U"
        "async Task IBox<int>.Put(U item)" ∧
      (packing [puttingBox ["T"] (.named "T" [] ""), puttingBox ["U"] (.named "T" [] "")] writtenNumberBox).Leaks "T"
        "async Task IBox<int>.Put(T item)" ∧
      (packing [{ puttingBox [] (.named "T" [] "") with containers := [⟨"Outer", .classType, ["T"]⟩] }]
        (.named "Outer.IBox" [] "")).Leaks "T" "async Task Outer.IBox.Put(T item)" := by
  refine ⟨by decide +kernel, ?_, ?_, ?_, ?_⟩
  · refine ⟨packer 1 numberBox, by decide +kernel, by decide +kernel,
      ⟨numberBox, puttingBox ["T"] (.verbatim "Outer<T>.Item"), putOf (.verbatim "Outer<T>.Item")⟩,
      by decide +kernel, by decide +kernel, ?_, ?_⟩
    · exact ⟨by decide +kernel, by decide, by decide, not_says_number (by decide +kernel)⟩
    · exact ⟨.bare .verbatim "Outer<T>.Item", by decide +kernel, TypeRef.says_bare.mpr (by decide +kernel)⟩
  · refine ⟨packer 2 numberBox, by decide +kernel, by decide +kernel,
      ⟨numberBox, { puttingBox ["U"] (.named "U" [] "") with id := 1 }, putOf (.named "U" [] "")⟩,
      by decide +kernel, by decide +kernel, ?_, ?_⟩
    · exact ⟨by decide +kernel, by decide, by decide, not_says_number (by decide +kernel)⟩
    · exact ⟨.bare .typeParameter "U", by decide +kernel, TypeRef.says_bare.mpr (by decide +kernel)⟩
  · refine ⟨packer 2 numberBox, by decide +kernel, by decide +kernel,
      ⟨numberBox, { puttingBox ["U"] (.named "T" [] "") with id := 1 }, putOf (.named "T" [] "")⟩,
      by decide +kernel, by decide +kernel, ?_, ?_⟩
    · exact ⟨by decide +kernel, by decide, by decide, not_says_number (by decide +kernel)⟩
    · exact ⟨.bare .unresolved "T", by decide +kernel, TypeRef.says_bare.mpr (by decide +kernel)⟩
  · let nested : Declaration := { puttingBox [] (.named "T" [] "") with containers := [⟨"Outer", .classType, ["T"]⟩] }
    refine ⟨packer 1 (.named none "Outer.IBox" []), by decide +kernel, by decide +kernel,
      ⟨.named none "Outer.IBox" [], nested, putOf (.named "T" [] "")⟩, by decide +kernel, by decide +kernel, ?_, ?_⟩
    · exact ⟨by decide +kernel, by decide, by decide, fun a ha => nomatch ha⟩
    · exact ⟨.bare .typeParameter "T", by decide +kernel, TypeRef.says_bare.mpr (by decide +kernel)⟩

end Program

end ContractStubs

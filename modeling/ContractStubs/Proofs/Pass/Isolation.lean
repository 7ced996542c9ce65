import ContractStubs.Proofs.Inheritance.Ending
import ContractStubs.Proofs.Pass.Files
import ContractStubs.Proofs.Request.Parts
import ContractStubs.Proofs.Samples
import ContractStubs.Proofs.Stub.Contracts

/-!
# Files of other types

What is said about a type that is no interface cannot be seen in the file of any other type. Two models that agree apart
from what some declarations of one type say (`AgreesApartFrom`) look up all names alike, find the same members of every
interface (`AgreeApartFrom.members_eq`) and have the same requests for other types (`AgreeApartFrom.requests_eq`). So
passes over them have the same files of other types, in the same order (`Config.files_of_others`).
-/

namespace ContractStubs

/-! ## Declarations of one type -/

namespace Declaration

/-- Both declare a type of one kind, at one place and under one name; what they say about it may differ. -/
structure DeclaresTheSame (d e : Declaration) : Prop where
  kind : d.kind = e.kind
  namespaceName? : d.namespaceName? = e.namespaceName?
  containers : d.containers = e.containers
  name : d.name = e.name
  typeParameters : d.typeParameters = e.typeParameters

/-- The declarations are the same, or both declare the type of a certain name, which is no interface. -/
inductive AgreesApartFrom (name : String) : Declaration → Declaration → Prop
  | same (d : Declaration) : AgreesApartFrom name d d
  | other {d e : Declaration} : d.DeclaresTheSame e → d.kind ≠ .interfaceType → d.qualifiedName = name →
      AgreesApartFrom name d e

variable {name : String} {d e : Declaration}

theorem DeclaresTheSame.key_eq (h : d.DeclaresTheSame e) : d.key = e.key := by
  rw [key, key, nestedName, nestedName, h.namespaceName?, h.containers, h.name, h.typeParameters]

theorem DeclaresTheSame.qualifiedName_eq (h : d.DeclaresTheSame e) : d.qualifiedName = e.qualifiedName := by
  rw [qualifiedName, qualifiedName, TargetType.qualifiedName, TargetType.qualifiedName]
  simp only [target, TargetType.displayName, h.namespaceName?, h.containers, h.name, h.typeParameters]

theorem AgreesApartFrom.key_eq (h : AgreesApartFrom name d e) : d.key = e.key := by
  cases h with
  | same => rfl
  | other hsame _ _ => exact hsame.key_eq

theorem AgreesApartFrom.kind_eq (h : AgreesApartFrom name d e) : d.kind = e.kind := by
  cases h with
  | same => rfl
  | other hsame _ _ => exact hsame.kind

/-- Interfaces are the same. -/
theorem AgreesApartFrom.eq_of_kind (h : AgreesApartFrom name d e) (hk : d.kind = .interfaceType) : d = e := by
  cases h with
  | same => rfl
  | other _ hne _ => exact absurd hk hne

end Declaration

/-! ## Lists that agree apart from one type -/

/-- The lists agree, declaration by declaration, apart from what they say about the type of a certain name. -/
abbrev AgreeApartFrom (name : String) (ds es : List Declaration) : Prop :=
  List.Forall₂ (Declaration.AgreesApartFrom name) ds es

namespace AgreeApartFrom

open Declaration

variable {name : String} {ds es : List Declaration} {key : DeclarationKey}

theorem refl (ds : List Declaration) : AgreeApartFrom name ds ds := List.forall₂_same.mpr fun d _ => .same d

/-- Numbering keeps the agreement. -/
theorem number (h : AgreeApartFrom name ds es) :
    ∀ next, AgreeApartFrom name (Model.number next ds) (Model.number next es) := by
  induction h with
  | nil => exact fun _ => .nil
  | @cons d e ds es hde _ ih =>
    intro next
    refine .cons ?_ (ih (next + 1))
    cases hde with
    | same => exact .same _
    | other hsame hk hname =>
      exact .other ⟨hsame.kind, hsame.namespaceName?, hsame.containers, hsame.name, hsame.typeParameters⟩ hk hname

theorem keys_eq (h : AgreeApartFrom name ds es) : ds.map Declaration.key = es.map Declaration.key := by
  induction h with
  | nil => rfl
  | cons hde _ ih => rw [List.map_cons, List.map_cons, hde.key_eq, ih]

/-- The declarations with one key agree. -/
theorem withKey (h : AgreeApartFrom name ds es) :
    AgreeApartFrom name (declarationsWithKey ds key) (declarationsWithKey es key) := by
  induction h with
  | nil => exact .nil
  | @cons d e ds es hde _ ih =>
    rw [declarationsWithKey, declarationsWithKey, List.filter_cons, List.filter_cons, hde.key_eq]
    split
    · exact .cons hde ih
    · exact ih

theorem isEmpty_eq (h : AgreeApartFrom name ds es) : ds.isEmpty = es.isEmpty := by
  cases h <;> rfl

/-- Among both is something that is no interface, or among none. -/
theorem any_kind_eq (h : AgreeApartFrom name ds es) :
    (ds.any fun d => d.kind != .interfaceType) = es.any fun e => e.kind != .interfaceType := by
  induction h with
  | nil => rfl
  | cons hde _ ih => rw [List.any_cons, List.any_cons, hde.kind_eq, ih]

/-- Lists of interfaces are the same. -/
theorem eq_of_interfaces (h : AgreeApartFrom name ds es) (hds : ∀ d ∈ ds, d.kind = .interfaceType) : ds = es := by
  induction h with
  | nil => rfl
  | @cons d e ds es hde _ ih =>
    obtain ⟨hd, hds⟩ := List.forall_mem_cons.mp hds
    rw [hde.eq_of_kind hd, ih hds]

end AgreeApartFrom

/-! ## Requests for other types -/

namespace StubRequest

/-- The request is for another type. -/
def isNotFor (name : String) (r : StubRequest) : Bool := r.qualifiedName != name

variable {name : String} {r : StubRequest}

/-- A request joins the others for its own type and leaves those for other types alone. -/
theorem filter_addRequest : ∀ rs : List StubRequest, (addRequest r rs).filter (isNotFor name) =
    if r.isNotFor name then addRequest r (rs.filter (isNotFor name)) else rs.filter (isNotFor name)
  | [] => by
    cases h : r.isNotFor name <;> simp [addRequest, h]
  | s :: rs => by
    have ih := filter_addRequest rs
    by_cases hname : s.qualifiedName = r.qualifiedName
    · have hr : r.isNotFor name = s.isNotFor name := by rw [isNotFor, isNotFor, hname]
      have hmerge : (s.merge r).isNotFor name = s.isNotFor name := rfl
      rw [addRequest, if_pos hname, List.filter_cons, List.filter_cons, hmerge, hr]
      cases s.isNotFor name with
      | false => rfl
      | true => simp [addRequest, hname]
    · rw [addRequest, if_neg hname, List.filter_cons, List.filter_cons, ih]
      cases hs : s.isNotFor name with
      | false => simp
      | true => cases hr : r.isNotFor name <;> simp [addRequest, hname]

/-- What candidates for a type make up cannot be seen in the requests for other types. -/
theorem filter_groups (qs : List StubRequest) :
    (groups qs).filter (isNotFor name) = groups (qs.filter (isNotFor name)) := by
  have hfold : ∀ qs rs : List StubRequest, (qs.foldl (fun rs r => addRequest r rs) rs).filter (isNotFor name) =
      (qs.filter (isNotFor name)).foldl (fun rs r => addRequest r rs) (rs.filter (isNotFor name)) := by
    intro qs
    induction qs with
    | nil => exact fun _ => rfl
    | cons q qs ih =>
      intro rs
      rw [List.foldl_cons, ih, filter_addRequest, List.filter_cons]
      split <;> rfl
  have hgroups : ∀ qs : List StubRequest, groups qs = qs.foldl (fun rs r => addRequest r rs) [] := fun qs => by
    have h := foldl_addRequest qs []
    rw [List.nil_append] at h
    exact h.symm
  rw [hgroups, hgroups, hfold, List.filter_nil]

end StubRequest

/-! ## Programs that agree apart from one type -/

namespace AgreeApartFrom

open Declaration

variable {name : String} {p q : Program} {marker : Marker} {depth : Nat}

/-- Names are looked up alike. -/
theorem binder_eq (h : AgreeApartFrom name p.model.declarations q.model.declarations) (hknown : p.known = q.known) :
    p.binder = q.binder := by
  rw [Program.binder, Program.binder, DeclarationIndex.ofList, DeclarationIndex.ofList, h.keys_eq, hknown]

/-- The same references refer to interfaces, and to the same declarations of them. -/
theorem interfaceDeclarations_eq (h : AgreeApartFrom name p.model.declarations q.model.declarations) (r : TypeRef) :
    p.interfaceDeclarations r = q.interfaceDeclarations r := by
  have hof : AgreeApartFrom name (p.declarationsOf r) (q.declarationsOf r) := by
    rw [Program.declarationsOf, Program.declarationsOf]
    split
    · exact h.withKey
    · exact .nil
  unfold Program.interfaceDeclarations
  cases r.kind with
  | named =>
    dsimp only
    rw [hof.isEmpty_eq, hof.any_kind_eq]
    by_cases hany : (q.declarationsOf r).any fun d => d.kind != .interfaceType
    · rw [if_pos hany, if_pos hany]
    · have hall : ∀ d ∈ p.declarationsOf r, d.kind = .interfaceType := by
        rw [← hof.any_kind_eq] at hany
        simpa using hany
      rw [hof.eq_of_interfaces hall]
  | _ => rfl

/-- **Searches for members find the same.** -/
theorem gather_eq (h : AgreeApartFrom name p.model.declarations q.model.declarations) (hknown : p.known = q.known) :
    ∀ (depth : Nat) (r : TypeRef) (harvest : Program.Harvest), p.gather depth r harvest = q.gather depth r harvest
  | 0, _, _ => rfl
  | depth + 1, r, harvest => by
    have hsearch : p.gather depth = q.gather depth := by
      funext r harvest
      exact gather_eq h hknown depth r harvest
    have htype : p.typeIn = q.typeIn := by
      funext scope ds r t
      rw [Program.typeIn, Program.typeIn, h.binder_eq hknown]
    have hmembers : p.ownMembers = q.ownMembers := by
      funext ds r
      have hmember : p.memberOf ds r = q.memberOf ds r := by
        funext d m
        rw [Program.memberOf, Program.memberOf, htype]
      rw [Program.ownMembers, Program.ownMembers, hmember]
    have hbases : p.basesOf = q.basesOf := by
      funext ds r
      rw [Program.basesOf, Program.basesOf, htype]
    rw [Program.gather, Program.gather, h.interfaceDeclarations_eq, hsearch, hmembers, hbases]

/-- Searches end for the same references. -/
theorem ends_iff (h : AgreeApartFrom name p.model.declarations q.model.declarations) (hknown : p.known = q.known)
    {r : TypeRef} : p.Ends r ↔ q.Ends r := by
  simp only [Program.Ends, Program.membersWithin?, h.gather_eq hknown]

theorem members_eq (h : AgreeApartFrom name p.model.declarations q.model.declarations) (hknown : p.known = q.known)
    (r : TypeRef) : (p.provider depth).members r = (q.provider depth).members r := by
  simp only [Program.provider, Program.membersWithin?, h.gather_eq hknown]

/-- What a declaration of a type asks for is for that type. -/
theorem filter_requestOn? {d : Declaration} (hname : d.qualifiedName = name) :
    (p.requestOn? marker d).filter (StubRequest.isNotFor name) = none := by
  rw [Option.filter_eq_none_iff]
  intro r hr
  rw [Program.requestOn?] at hr
  split at hr
  next => cases hr
  next =>
    obtain ⟨target, ht, rfl⟩ := Option.map_eq_some_iff.mp hr
    have htarget : target = d.target := (Program.of_targetOf?_eq_some ht).2
    have hself : StubRequest.qualifiedName ⟨target, p.usesOn marker d⟩ = name := by rw [← hname, htarget]; rfl
    simp [StubRequest.isNotFor, hself]

/-- A declaration asks for the same in both, unless it declares the type that they disagree about. -/
theorem filterMap_requestOn? {ds es : List Declaration} (h : AgreeApartFrom name ds es) (hbinder : p.binder = q.binder) :
    (ds.filterMap (p.requestOn? marker)).filter (StubRequest.isNotFor name) =
      (es.filterMap (q.requestOn? marker)).filter (StubRequest.isNotFor name) := by
  rw [List.filter_filterMap, List.filter_filterMap]
  induction h with
  | nil => rw [List.filterMap_nil, List.filterMap_nil]
  | @cons d e ds es hde _ ih =>
    have hrequest : (p.requestOn? marker d).filter (StubRequest.isNotFor name) =
        (q.requestOn? marker e).filter (StubRequest.isNotFor name) := by
      cases hde with
      | same => rw [Program.requestOn?, Program.requestOn?, Program.usesOn, Program.usesOn, hbinder]
      | other hsame _ hname =>
        rw [filter_requestOn? hname, filter_requestOn? (hsame.qualifiedName_eq ▸ hname)]
    rw [List.filterMap_cons, List.filterMap_cons, hrequest, ih]

/-- **Requests for other types are the same.** -/
theorem requests_eq (h : AgreeApartFrom name p.model.declarations q.model.declarations) (hknown : p.known = q.known) :
    (p.requests marker).filter (StubRequest.isNotFor name) = (q.requests marker).filter (StubRequest.isNotFor name) := by
  rw [Program.requests, Program.requests, StubRequest.filter_groups, StubRequest.filter_groups,
    filterMap_requestOn? h (h.binder_eq hknown)]

end AgreeApartFrom

/-! ## Passes -/

namespace Program

variable {p : Program} {marker : Marker}

/-- A pass over the program comes to an end, no search for the members of a target going deeper than this. -/
def PassEndsWithin (p : Program) (marker : Marker) (depth : Nat) : Prop :=
  ∀ r ∈ p.requests marker, ∀ i ∈ r.interfaces, (p.membersWithin? depth i).isSome

instance (p : Program) (marker : Marker) (depth : Nat) : Decidable (p.PassEndsWithin marker depth) :=
  inferInstanceAs (Decidable (∀ r ∈ p.requests marker, ∀ i ∈ r.interfaces, (p.membersWithin? depth i).isSome))

/-- A pass over the program comes to an end. -/
def PassEnds (p : Program) (marker : Marker) : Prop := ∃ depth, p.PassEndsWithin marker depth

/-- Some searches that end do so within one depth. -/
theorem exists_depth_of_ends : ∀ {is : List TypeRef}, (∀ i ∈ is, p.Ends i) →
    ∃ depth, ∀ i ∈ is, (p.membersWithin? depth i).isSome
  | [], _ => ⟨0, fun _ h => absurd h List.not_mem_nil⟩
  | i :: is, h => by
    obtain ⟨⟨depth, hi⟩, his⟩ := List.forall_mem_cons.mp h
    obtain ⟨outcome, hi⟩ := Option.isSome_iff_exists.mp hi
    obtain ⟨depth', his⟩ := exists_depth_of_ends his
    refine ⟨max depth depth', List.forall_mem_cons.mpr ⟨?_, fun j hj => ?_⟩⟩
    · exact Option.isSome_iff_exists.mpr ⟨outcome, membersWithin?_mono (Nat.le_max_left _ _) hi⟩
    · obtain ⟨outcome', hj⟩ := Option.isSome_iff_exists.mp (his j hj)
      exact Option.isSome_iff_exists.mpr ⟨outcome', membersWithin?_mono (Nat.le_max_right _ _) hj⟩

/-- **A pass comes to an end if the searches for the members of all targets do.** -/
theorem passEnds_iff : p.PassEnds marker ↔ ∀ r ∈ p.requests marker, ∀ i ∈ r.interfaces, p.Ends i := by
  constructor
  · exact fun ⟨depth, h⟩ r hr i hi => ⟨depth, h r hr i hi⟩
  · intro h
    have hends : ∀ i ∈ (p.requests marker).flatMap (·.interfaces), p.Ends i := fun i hi => by
      obtain ⟨r, hr, hi⟩ := List.mem_flatMap.mp hi
      exact h r hr i hi
    obtain ⟨depth, hdepth⟩ := exists_depth_of_ends hends
    exact ⟨depth, fun r hr i hi => hdepth i (List.mem_flatMap.mpr ⟨r, hr, hi⟩)⟩

/-- In a pass that comes to an end each target gets its answer. -/
theorem passEndsWithin_iff {depth : Nat} : p.PassEndsWithin marker depth ↔
    ∀ r ∈ p.requests marker, ∀ i ∈ r.interfaces,
      (p.provider depth).members i ≠ .error (.unfinished i.toText) := by
  simp only [PassEndsWithin, ne_eq, members_eq_unfinished_iff, Option.isSome_iff_ne_none]

end Program

/-- Where one of two passes comes to an end, the other one does unless a target of the type that they disagree about
holds it up. -/
theorem AgreeApartFrom.passEnds_iff {name : String} {p q : Program} {marker : Marker}
    (h : AgreeApartFrom name p.model.declarations q.model.declarations) (hknown : p.known = q.known)
    (hp : p.PassEnds marker) : q.PassEnds marker ↔
      ∀ r ∈ q.requests marker, r.qualifiedName = name → ∀ i ∈ r.interfaces, q.Ends i := by
  rw [Program.passEnds_iff] at hp ⊢
  refine ⟨fun hq r hr _ => hq r hr, fun hown r hr i hi => ?_⟩
  by_cases hname : r.qualifiedName = name
  · exact hown r hr hname i hi
  · have hmem : r ∈ (q.requests marker).filter (StubRequest.isNotFor name) :=
      List.mem_filter.mpr ⟨hr, by simpa [StubRequest.isNotFor] using hname⟩
    rw [← h.requests_eq hknown] at hmem
    exact (h.ends_iff hknown).mp (hp r (List.mem_filter.mp hmem).1 i hi)

namespace Config

variable {c : Config} {depth : Nat}

/-- The files of a pass for other types are those of the requests for other types. -/
theorem filter_files {m : Model} (hm : m.IsNumbered) {order : Nat → List Nat} (horder : IsOrder order) (disk : Disk)
    (name : String) :
    ((⟨c, none⟩ : Generator).generate (c.providerOf depth m) .never order disk).1.files.filter (·.typeName ≠ name) =
      (((c.program m).requests c.markerSought).filter (StubRequest.isNotFor name)).map
        ((⟨c, none⟩ : Generator).fileOf (c.providerOf depth m)) := by
  have hrequests : (⟨c, none⟩ : Generator).requestsOf (c.providerOf depth m) = (c.program m).requests c.markerSought :=
    Program.requests_eq hm
  have hname : (fun f : StubFile => decide (f.typeName ≠ name)) ∘ (⟨c, none⟩ : Generator).fileOf (c.providerOf depth m) =
      StubRequest.isNotFor name := by
    funext r
    have htype : ((⟨c, none⟩ : Generator).fileOf (c.providerOf depth m) r).typeName = r.qualifiedName := rfl
    by_cases h : r.qualifiedName = name <;> simp [StubRequest.isNotFor, htype, h]
  rw [Generator.files_of_no_cache rfl horder, hrequests, List.filter_map, hname]

/-- **What a declaration says about a type cannot be seen in the files of other types**, if the type is no interface
and the passes come to an end: passes over two models that differ in one declaration of the same type have the same files
of other types, with the same texts and diagnostics and in the same order. If the pass over the one model comes to an
end, nothing but a target of the type itself can keep the pass over the other one from it. -/
theorem files_of_others {ds es : List Declaration} {d e : Declaration} (hsame : d.DeclaresTheSame e)
    (hkind : d.kind ≠ .interfaceType) {order order' : Nat → List Nat} (horder : IsOrder order) (horder' : IsOrder order')
    (disk disk' : Disk) :
    ((c.program (.ofList (ds ++ d :: es))).PassEnds c.markerSought →
      ((c.program (.ofList (ds ++ e :: es))).PassEnds c.markerSought ↔
        ∀ r ∈ (c.program (.ofList (ds ++ e :: es))).requests c.markerSought, r.qualifiedName = d.qualifiedName →
          ∀ i ∈ r.interfaces, (c.program (.ofList (ds ++ e :: es))).Ends i)) ∧
    ∀ depth, (c.program (.ofList (ds ++ d :: es))).PassEndsWithin c.markerSought depth →
      (c.program (.ofList (ds ++ e :: es))).PassEndsWithin c.markerSought depth →
      ((⟨c, none⟩ : Generator).generate (c.providerOf depth (.ofList (ds ++ d :: es))) .never order disk).1.files.filter
          (·.typeName ≠ d.qualifiedName) =
        ((⟨c, none⟩ : Generator).generate (c.providerOf depth (.ofList (ds ++ e :: es))) .never order'
            disk').1.files.filter (·.typeName ≠ d.qualifiedName) := by
  have hlists : AgreeApartFrom d.qualifiedName (ds ++ d :: es) (ds ++ e :: es) :=
    List.rel_append (AgreeApartFrom.refl ds) (.cons (.other hsame hkind rfl) (AgreeApartFrom.refl es))
  have hagree : AgreeApartFrom d.qualifiedName (c.program (.ofList (ds ++ d :: es))).model.declarations
      (c.program (.ofList (ds ++ e :: es))).model.declarations := hlists.number 0
  refine ⟨hagree.passEnds_iff rfl, fun depth _ _ => ?_⟩
  rw [filter_files (Model.isNumbered_ofList _) horder, filter_files (Model.isNumbered_ofList _) horder',
    hagree.requests_eq rfl]
  refine List.map_congr_left fun r _ => ?_
  exact Provider.stubFile_congr _ rfl rfl fun i _ => hagree.members_eq rfl i

/-! ## Two models -/

/-- An interface, a class that wants stubs for `Second` by mistake, some declaration, and a class that wants stubs for
the interface. -/
def modelAround (d : Declaration) : Model :=
  .ofList ([Program.interfaceNamed none "IJob", wanting "First" "Second"] ++ d :: [wanting "Third" "IJob"])

/-- The files of a pass over them. -/
def filesAround (d : Declaration) : List StubFile :=
  ((⟨.standard, none⟩ : Generator).generate (Config.standard.providerOf 2 (modelAround d)) .never Generator.inOrder
    ⟨[], []⟩).1.files

/-- The pass over them comes to an end. -/
abbrev EndsAround (d : Declaration) : Prop :=
  (Config.standard.program (modelAround d)).PassEndsWithin Config.standard.markerSought 2

theorem second_not_seen :
    (wanting "Second" "IJob").DeclaresTheSame (misread "Second") ∧
      (wanting "Second" "IJob").kind ≠ .interfaceType ∧ IsOrder Generator.inOrder ∧
      EndsAround (wanting "Second" "IJob") ∧ EndsAround (misread "Second") ∧
      (filesAround (wanting "Second" "IJob")).map (·.typeName) = ["First", "Second", "Third"] ∧
      (filesAround (misread "Second")).map (·.typeName) = ["First", "Third"] ∧
      (filesAround (wanting "Second" "IJob")).filter (·.typeName ≠ (wanting "Second" "IJob").qualifiedName) =
        (filesAround (misread "Second")).filter (·.typeName ≠ (wanting "Second" "IJob").qualifiedName) := by
  have hsame : (wanting "Second" "IJob").DeclaresTheSame (misread "Second") := ⟨rfl, rfl, rfl, rfl, rfl⟩
  have hkind : (wanting "Second" "IJob").kind ≠ .interfaceType := by decide
  have horder : IsOrder Generator.inOrder := isOrder_inOrder
  have hends : EndsAround (wanting "Second" "IJob") := by decide +kernel
  have hends' : EndsAround (misread "Second") := by decide +kernel
  have hnames : ∀ d, (filesAround d).map (·.typeName) = _ := fun _ => Generator.typeNames_of_no_cache rfl horder
  refine ⟨hsame, hkind, horder, hends, hends', (hnames _).trans (by decide +kernel),
    (hnames _).trans (by decide +kernel), ?_⟩
  exact (files_of_others hsame hkind horder horder ⟨[], []⟩ ⟨[], []⟩).2 2 hends hends'

/-! ## A pass that never ends -/

/-- A class that wants stubs for an interface which is its own base for itself. -/
def wantingGrowth : Declaration :=
  { Program.interfaceNamed none "Second" with
    kind := .classType
    attributes := [⟨"AddImplementation", [.named "I" [.named "int" [] ""] ""]⟩] }

/-- The interface which is its own base for itself, a class that wants stubs for another interface, and some
declaration. -/
def besideGrowth (d : Declaration) : Program :=
  Config.standard.program (.ofList ([
    { Program.interfaceNamed none "I" with
      typeParameters := ["T"]
      baseTypes := [.named "I" [.named "I" [.named "T" [] ""] ""] ""] },
    Program.interfaceNamed none "IJob", wanting "First" "IJob"] ++ [d]))

/-- What one class asks for can keep a whole pass from its end, the files of all other types with it. -/
theorem growth_holds_up_pass :
    (misread "Second").DeclaresTheSame wantingGrowth ∧ (misread "Second").kind = .classType ∧
      (besideGrowth (misread "Second")).PassEnds Config.standard.markerSought ∧
      ((besideGrowth (misread "Second")).requests Config.standard.markerSought).map (·.qualifiedName) = ["First"] ∧
      ¬(besideGrowth wantingGrowth).PassEnds Config.standard.markerSought := by
  refine ⟨⟨rfl, rfl, rfl, rfl, rfl⟩, rfl, ⟨2, by decide +kernel⟩, by decide +kernel, fun hends => ?_⟩
  have hgrows : (besideGrowth wantingGrowth).Grows := ⟨fun _ => rfl, fun _ => rfl⟩
  have hasked : ∃ r ∈ (besideGrowth wantingGrowth).requests Config.standard.markerSought,
      Program.tower 0 ∈ r.interfaces := by decide +kernel
  obtain ⟨r, hr, hi⟩ := hasked
  exact hgrows.not_ends (Program.passEnds_iff.mp hends r hr _ hi)

end Config

end ContractStubs

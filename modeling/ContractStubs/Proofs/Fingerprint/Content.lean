import ContractStubs.Proofs.Fingerprint.Coverage

/-!
# Declarations with the same content

A text depends on declarations by their content alone, which leaves out their ids and where they came from, and on the
types that are written in them as they are looked up. Programs that mirror one another (`Program.Mirrors`) have covering
lists with the same contents in which types are looked up alike; they find the same members of each covered interface
(`Program.Mirrors.membersWithin?_eq`).
-/

namespace ContractStubs

namespace Declaration

/-- What a declaration declares. -/
def content (d : Declaration) : Declaration :=
  { d with id := 0, namespaceName? := d.namespaceName?.filter (· ≠ ""), text := "", file? := none }

/-- The types of an interface that a text may depend on, each in its scope. -/
def interfaceTypes (d : Declaration) : List (Scope × TypeExpr) :=
  d.baseTypes.map ((Scope.ofDeclaration d, ·)) ++ d.members.flatMap fun m =>
    (m.returnType?.toList ++ m.parameters.map (·.type)).map
      (((Scope.ofDeclaration d).withTypeParameters m.typeParameters, ·))

/-- The types that a marker on a declaration names, each in its scope. -/
def markedTypes (marker : Marker) (d : Declaration) : List (Scope × TypeExpr) :=
  (d.attributes.filter fun a => marker.isMatch a.name).flatMap fun a =>
    a.typeArguments.map ((Scope.ofDeclaration d, ·))

variable {d e : Declaration}

theorem content_eq_iff : d.content = e.content ↔ d.kind = e.kind ∧ d.name = e.name ∧
    d.namespaceName?.filter (· ≠ "") = e.namespaceName?.filter (· ≠ "") ∧ d.containers = e.containers ∧
      d.typeParameters = e.typeParameters ∧ d.attributes = e.attributes ∧ d.baseTypes = e.baseTypes ∧
        d.members = e.members ∧ d.usings = e.usings ∧ d.malformed = e.malformed := by
  simp [content]

theorem key_eq_of_content (h : d.content = e.content) : d.key = e.key := by
  obtain ⟨-, hname, hns, hcontainers, hparameters, -⟩ := content_eq_iff.mp h
  rw [key, key, nestedName, nestedName, hns, hname, hcontainers, hparameters]

theorem scope_eq_of_content (h : d.content = e.content) : Scope.ofDeclaration d = Scope.ofDeclaration e := by
  obtain ⟨-, -, hns, hcontainers, hparameters, -, -, -, husings, -⟩ := content_eq_iff.mp h
  rw [Scope.ofDeclaration, Scope.ofDeclaration, hns, husings, hcontainers, hparameters]

theorem interfaceTypes_eq_of_content (h : d.content = e.content) : d.interfaceTypes = e.interfaceTypes := by
  obtain ⟨-, -, -, -, -, -, hbases, hmembers, -⟩ := content_eq_iff.mp h
  rw [interfaceTypes, interfaceTypes, scope_eq_of_content h, hbases, hmembers]

theorem markedTypes_eq_of_content {marker : Marker} (h : d.content = e.content) :
    d.markedTypes marker = e.markedTypes marker := by
  obtain ⟨-, -, -, -, -, hattributes, -⟩ := content_eq_iff.mp h
  rw [markedTypes, markedTypes, scope_eq_of_content h, hattributes]

end Declaration

/-- Types are looked up alike in their scopes. -/
def BindAlike (b c : Binder) (places : List (Scope × TypeExpr)) : Prop :=
  ∀ place ∈ places, b.bind place.1 place.2 = c.bind place.1 place.2

/-! ## Lists with the same contents -/

section Lists

variable {α : Type} {ds es : List Declaration}

theorem map_eq_of_content {f g : Declaration → α} : ∀ {ds es : List Declaration},
    ds.map Declaration.content = es.map Declaration.content →
      (∀ d ∈ ds, ∀ e ∈ es, d.content = e.content → f d = g e) → ds.map f = es.map g
  | [], [], _, _ => rfl
  | [], _ :: _, h, _ => by simp at h
  | _ :: _, [], h, _ => by simp at h
  | d :: ds, e :: es, h, hfg => by
    rw [List.map_cons, List.map_cons, List.cons.injEq] at h
    rw [List.map_cons, List.map_cons, hfg d List.mem_cons_self e List.mem_cons_self h.1,
      map_eq_of_content h.2 fun d hd e he => hfg d (List.mem_cons_of_mem _ hd) e (List.mem_cons_of_mem _ he)]

theorem flatMap_eq_of_content {f g : Declaration → List α} (h : ds.map Declaration.content = es.map Declaration.content)
    (hfg : ∀ d ∈ ds, ∀ e ∈ es, d.content = e.content → f d = g e) : ds.flatMap f = es.flatMap g := by
  rw [List.flatMap_def, List.flatMap_def, map_eq_of_content h hfg]

theorem filter_key_of_content {key : DeclarationKey} : ∀ {ds es : List Declaration},
    ds.map Declaration.content = es.map Declaration.content →
      (ds.filter fun d => d.key == key).map Declaration.content = (es.filter fun d => d.key == key).map Declaration.content
  | [], [], _ => rfl
  | [], _ :: _, h => by simp at h
  | _ :: _, [], h => by simp at h
  | d :: ds, e :: es, h => by
    rw [List.map_cons, List.map_cons, List.cons.injEq] at h
    have htail : (ds.filter fun d => d.key == key).map Declaration.content =
        (es.filter fun d => d.key == key).map Declaration.content := filter_key_of_content h.2
    rw [List.filter_cons, List.filter_cons, Declaration.key_eq_of_content h.1]
    split
    · rw [List.map_cons, List.map_cons, h.1, htail]
    · exact htail

theorem exists_of_content (h : ds.map Declaration.content = es.map Declaration.content) {d : Declaration}
    (hd : d ∈ ds) : ∃ e ∈ es, e.content = d.content := by
  have hmem : d.content ∈ ds.map Declaration.content := List.mem_map_of_mem hd
  rw [h] at hmem
  exact List.mem_map.mp hmem

end Lists

/-! ## One interface -/

namespace Program

variable {p q : Program} {t : TypeRef} {ds es : List Declaration}

theorem argumentOf?_eq_of_content : ∀ {ds es : List Declaration},
    ds.map Declaration.content = es.map Declaration.content → argumentOf? ds = argumentOf? es
  | [], [], _ => rfl
  | [], _ :: _, h => by simp at h
  | _ :: _, [], h => by simp at h
  | d :: ds, e :: es, h => by
    rw [List.map_cons, List.map_cons, List.cons.injEq] at h
    obtain ⟨-, -, -, -, hparameters, -⟩ := Declaration.content_eq_iff.mp h.1
    funext r parameter
    simp [argumentOf?, hparameters]

theorem typeIn_eq {scope : Scope} {expr : TypeExpr} (h : ds.map Declaration.content = es.map Declaration.content)
    (hbind : p.binder.bind scope expr = q.binder.bind scope expr) :
    p.typeIn scope ds t expr = q.typeIn scope es t expr := by
  rw [typeIn, typeIn, hbind, argumentOf?_eq_of_content h]

theorem memberOf_eq {d e : Declaration} {m : MemberDeclaration}
    (h : ds.map Declaration.content = es.map Declaration.content) (hde : d.content = e.content) (hm : m ∈ d.members)
    (hbind : BindAlike p.binder q.binder d.interfaceTypes) : p.memberOf ds t d m = q.memberOf es t e m := by
  have htype : ∀ expr ∈ m.returnType?.toList ++ m.parameters.map (·.type),
      p.typeIn ((Scope.ofDeclaration d).withTypeParameters m.typeParameters) ds t expr =
        q.typeIn ((Scope.ofDeclaration e).withTypeParameters m.typeParameters) es t expr := fun expr hexpr => by
    rw [← Declaration.scope_eq_of_content hde]
    exact typeIn_eq h (hbind (_, expr)
      (List.mem_append_right _ (List.mem_flatMap.mpr ⟨m, hm, List.mem_map_of_mem hexpr⟩)))
  have hreturn : m.returnType?.map (p.typeIn ((Scope.ofDeclaration d).withTypeParameters m.typeParameters) ds t) =
      m.returnType?.map (q.typeIn ((Scope.ofDeclaration e).withTypeParameters m.typeParameters) es t) :=
    Option.map_congr fun expr hexpr => htype expr (List.mem_append_left _ (Option.mem_toList.mpr hexpr))
  have hparameters : ∀ x ∈ m.parameters,
      p.typeIn ((Scope.ofDeclaration d).withTypeParameters m.typeParameters) ds t x.type =
        q.typeIn ((Scope.ofDeclaration e).withTypeParameters m.typeParameters) es t x.type := fun x hx =>
    htype x.type (List.mem_append_right _ (List.mem_map_of_mem hx))
  simp only [memberOf, hreturn, InterfaceMember.mk.injEq, true_and, and_true]
  exact List.map_congr_left fun x hx => by rw [hparameters x hx]

/-- The declarations of a type have the same contents in both programs. -/
def DeclaresAlike (p q : Program) (t : TypeRef) : Prop :=
  (p.declarationsOf t).map Declaration.content = (q.declarationsOf t).map Declaration.content

/-- A type is no interface in both programs, and for the same reason, or is one in both. -/
theorem interfaceDeclarations_alike (h : p.DeclaresAlike q t) :
    (∃ cause, p.interfaceDeclarations t = .error cause ∧ q.interfaceDeclarations t = .error cause) ∨
      p.interfaceDeclarations t = .ok (p.declarationsOf t) ∧ q.interfaceDeclarations t = .ok (q.declarationsOf t) := by
  have hempty : (p.declarationsOf t).isEmpty = (q.declarationsOf t).isEmpty := by
    have := congrArg List.isEmpty h
    simpa using this
  have hany : ((p.declarationsOf t).any fun d => d.kind != .interfaceType) =
      (q.declarationsOf t).any fun d => d.kind != .interfaceType := by
    have := congrArg (fun cs : List Declaration => cs.any fun d => d.kind != .interfaceType) h
    rw [List.any_map, List.any_map] at this
    exact this
  unfold interfaceDeclarations
  cases t.kind with
  | named =>
    dsimp only
    rw [hempty, hany]
    by_cases h1 : (q.declarationsOf t).isEmpty
    · exact .inl ⟨_, if_pos h1, if_pos h1⟩
    · rw [if_neg h1, if_neg h1]
      by_cases h2 : (q.declarationsOf t).any fun d => d.kind != .interfaceType
      · exact .inl ⟨_, if_pos h2, if_pos h2⟩
      · exact .inr ⟨if_neg h2, if_neg h2⟩
  | _ => exact .inl ⟨_, rfl, rfl⟩

theorem isInterface_alike (h : p.DeclaresAlike q t) : p.isInterface t = q.isInterface t := by
  rcases interfaceDeclarations_alike h with ⟨cause, hp, hq⟩ | ⟨hp, hq⟩
  · rw [isInterface, isInterface, hp, hq]
  · rw [isInterface, isInterface, hp, hq]
    rfl

/-! ## Programs that mirror one another -/

/-- Two programs with covering lists that have the same contents and in whose interfaces types are looked up alike. -/
structure Mirrors (p q : Program) (ds es : List Declaration) : Prop where
  lawful : p.IsLawful
  lawful' : q.IsLawful
  covers : p.Covers ds
  covers' : q.Covers es
  contents : ds.map Declaration.content = es.map Declaration.content
  bindAlike : ∀ d ∈ ds, d.kind = .interfaceType → BindAlike p.binder q.binder d.interfaceTypes

/-- All declarations of the type are listed in both programs, or it is an interface in none. -/
def Settled (p q : Program) (ds es : List Declaration) (t : TypeRef) : Prop :=
  p.Includes ds t ∧ q.Includes es t ∨ ¬p.isInterface t ∧ ¬q.isInterface t

namespace Mirrors

variable (h : p.Mirrors q ds es)

include h

theorem symm : q.Mirrors p es ds := by
  refine ⟨h.lawful', h.lawful, h.covers', h.covers, h.contents.symm, fun e he hek place hplace => ?_⟩
  obtain ⟨d, hd, hde⟩ := exists_of_content h.contents.symm he
  have hdk : d.kind = .interfaceType := (Declaration.content_eq_iff.mp hde).1.trans hek
  rw [← Declaration.interfaceTypes_eq_of_content hde] at hplace
  exact (h.bindAlike d hd hdk place hplace).symm

theorem declaresAlike (hp : p.Includes ds t) (hq : q.Includes es t) : p.DeclaresAlike q t := by
  rw [DeclaresAlike, h.covers.declarationsOf_eq hp, h.covers'.declarationsOf_eq hq]
  split
  · rw [List.map_reverse, List.map_reverse, filter_key_of_content h.contents]
  · rfl

theorem declaredMembers_eq (hp : p.Includes ds t) (hq : q.Includes es t) :
    p.declaredMembers t = q.declaredMembers t := by
  have halike := h.declaresAlike hp hq
  rcases interfaceDeclarations_alike halike with ⟨cause, hcp, hcq⟩ | ⟨hcp, hcq⟩
  · rw [declaredMembers, declaredMembers, hcp, hcq]
  · have hi : p.isInterface t := isInterface_iff.mpr hcp
    rw [declaredMembers, declaredMembers, hcp, hcq]
    refine flatMap_eq_of_content halike fun d hd e _ hde => ?_
    have hbind := h.bindAlike d (hp d hd) (kind_of_mem_declarationsOf hi hd)
    rw [← (Declaration.content_eq_iff.mp hde).2.2.2.2.2.2.2.1]
    exact List.map_congr_left fun m hm => memberOf_eq halike hde hm hbind

theorem bases_eq (hp : p.Includes ds t) (hq : q.Includes es t) : p.bases t = q.bases t := by
  have halike := h.declaresAlike hp hq
  rcases interfaceDeclarations_alike halike with ⟨cause, hcp, hcq⟩ | ⟨hcp, hcq⟩
  · rw [bases, bases, hcp, hcq]
  · have hi : p.isInterface t := isInterface_iff.mpr hcp
    rw [bases, bases, hcp, hcq]
    refine flatMap_eq_of_content halike fun d hd e _ hde => ?_
    have hbind := h.bindAlike d (hp d hd) (kind_of_mem_declarationsOf hi hd)
    rw [← (Declaration.content_eq_iff.mp hde).2.2.2.2.2.2.1, ← Declaration.scope_eq_of_content hde]
    exact List.map_congr_left fun expr hexpr =>
      typeIn_eq halike (hbind (_, expr) (List.mem_append_left _ (List.mem_map_of_mem hexpr)))

/-- What is an interface and included in the one program is an interface in the other. -/
theorem isInterface_of_includes (hi : p.isInterface t) (hp : p.Includes ds t) : q.isInterface t := by
  have hne := (interfaceDeclarations_eq_ok.mp (isInterface_iff.mp hi)).2.1
  obtain ⟨d, hd⟩ := List.exists_mem_of_ne_nil _ hne
  obtain ⟨e, he, hed⟩ := exists_of_content h.contents (hp d hd)
  obtain ⟨hkind, -, hkey⟩ := mem_declarationsOf.mp hd
  have heq : e ∈ q.declarationsOf t :=
    mem_declarationsOf.mpr ⟨hkind, h.covers'.mem e he, (Declaration.key_eq_of_content hed).trans hkey⟩
  have hek : e.kind = .interfaceType :=
    (Declaration.content_eq_iff.mp hed).1.trans (kind_of_mem_declarationsOf hi hd)
  refine isInterface_iff.mpr (interfaceDeclarations_eq_ok.mpr ⟨rfl, List.ne_nil_of_mem heq, fun f hf => ?_⟩)
  obtain ⟨-, hfmem, hfkey⟩ := mem_declarationsOf.mp hf
  exact h.lawful'.kinds e (h.covers'.mem e he) f hfmem
    ((Declaration.key_eq_of_content hed).trans (hkey.trans hfkey.symm)) hek

theorem settled_base (hp : p.Includes ds t) (hq : q.Includes es t) {b : TypeRef} (hb : b ∈ p.bases t) :
    p.Settled q ds es b := by
  have hb' : b ∈ q.bases t := h.bases_eq hp hq ▸ hb
  by_cases hi : p.isInterface b
  · have hinc := h.covers.includes_base h.lawful hp hb hi
    exact .inl ⟨hinc, h.covers'.includes_base h.lawful' hq hb' (h.isInterface_of_includes hi hinc)⟩
  · refine .inr ⟨hi, fun hi' => hi ?_⟩
    exact h.symm.isInterface_of_includes hi' (h.covers'.includes_base h.lawful' hq hb' hi')

/-- **Searches visit the same in programs that mirror one another.** -/
theorem visit_eq : ∀ (depth : Nat) (t : TypeRef) (seen : List TypeRef), p.Settled q ds es t →
    p.visit depth t seen = q.visit depth t seen
  | 0, _, _, _ => rfl
  | depth + 1, t, seen, ht => by
    rw [visit, visit]
    rcases ht with ⟨hp, hq⟩ | ⟨hp, hq⟩
    · rw [isInterface_alike (h.declaresAlike hp hq), ← h.bases_eq hp hq]
      split
      · have hfold := foldlM_view (f := fun seen base => p.visit depth base seen)
          (g := fun seen base => q.visit depth base seen) (v := id) (p.bases t) (seen ++ [t]) fun seen base hbase => by
            rw [Option.map_id, id, id, visit_eq depth base seen (h.settled_base hp hq hbase)]
        rwa [Option.map_id, id, id] at hfold
      · rfl
    · rw [if_neg fun hc => hp hc.1, if_neg fun hc => hq hc.1]

/-- **Included types have the same members in programs that mirror one another.** -/
theorem membersWithin?_eq (hp : p.Includes ds t) (hq : q.Includes es t) (depth : Nat) :
    p.membersWithin? depth t = q.membersWithin? depth t := by
  have hvisit := h.visit_eq depth t [] (.inl ⟨hp, hq⟩)
  have hmembers : ∀ visited, p.visit depth t [] = some visited →
      visited.flatMap p.declaredMembers = visited.flatMap q.declaredMembers := by
    intro visited hv
    have hv' : q.visit depth t [] = some visited := hvisit ▸ hv
    refine List.flatMap_congr fun s hs => ?_
    exact h.declaredMembers_eq (h.covers.includes_of_inherits h.lawful hp ((visit_explores hv).inherits_of_mem hs))
      (h.covers'.includes_of_inherits h.lawful' hq ((visit_explores hv').inherits_of_mem hs))
  rw [Program.membersWithin?_eq, Program.membersWithin?_eq]
  rcases interfaceDeclarations_alike (h.declaresAlike hp hq) with ⟨cause, hcp, hcq⟩ | ⟨hcp, hcq⟩
  · rw [hcp, hcq]
  · rw [hcp, hcq, ← hvisit]
    cases hv : p.visit depth t [] with
    | none => simp only [Option.map_none]
    | some visited => simp only [Option.map_some, hmembers visited hv]

end Mirrors

end Program

end ContractStubs

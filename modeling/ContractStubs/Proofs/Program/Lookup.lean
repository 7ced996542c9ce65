import ContractStubs.Proofs.Inheritance.Search
import ContractStubs.Proofs.Samples
import ContractStubs.Proofs.Text.Joined

/-!
# What a lookup finds

A reference finds all declarations with one key: one namespace, one dotted name and one number of type parameters
(`Program.findsByKey`). All parts of a type have one key. But the key does not have the type parameters of enclosing
types, so what is nested in a type and what is nested in a generic type of the same name are found together
(`Program.parts_found_together`).
-/

namespace ContractStubs

namespace Declaration

variable {d e : Declaration}

/-- The names of the enclosing types and of the type itself, outermost first. -/
def nestedNames (d : Declaration) : List String := d.containers.map (·.name) ++ [d.name]

/-- No name has a dot in it. -/
def HasPlainNames (d : Declaration) : Prop := ∀ name ∈ d.nestedNames, '.' ∉ name.toList

instance (d : Declaration) : Decidable d.HasPlainNames :=
  inferInstanceAs (Decidable (∀ name ∈ d.nestedNames, '.' ∉ name.toList))

/-- Both are declared in one namespace, nested in types of the same names, under one name and with as many type
parameters. -/
structure IsNamedLike (d e : Declaration) : Prop where
  namespaceName? : d.namespaceName?.filter (· ≠ "") = e.namespaceName?.filter (· ≠ "")
  containers : d.containers.map (·.name) = e.containers.map (·.name)
  name : d.name = e.name
  arity : d.typeParameters.length = e.typeParameters.length

/-- Both are parts of one type: they are named alike, and the enclosing types have as many type parameters. -/
structure IsPartWith (d e : Declaration) : Prop extends d.IsNamedLike e where
  arities : d.containers.map (·.typeParameters.length) = e.containers.map (·.typeParameters.length)

theorem IsNamedLike.key_eq (h : d.IsNamedLike e) : d.key = e.key := by
  rw [key, key, nestedName, nestedName, h.namespaceName?, h.containers, h.name, h.arity]

/-- Names without dots are known from the dotted name. -/
theorem nestedNames_eq_of_nestedName (hd : d.HasPlainNames) (he : e.HasPlainNames) (h : d.nestedName = e.nestedName) :
    d.nestedNames = e.nestedNames := by
  have hne : ∀ c : Declaration, c.nestedNames ≠ [] := by simp [nestedNames]
  exact intercalate_inj rfl (hne d) (hne e) hd he h

/-- A key tells what it is made of, if no name has a dot in it. -/
theorem key_eq_iff (hd : d.HasPlainNames) (he : e.HasPlainNames) : d.key = e.key ↔ d.IsNamedLike e := by
  constructor
  · intro h
    rw [key, key, DeclarationKey.mk.injEq] at h
    obtain ⟨hns, hnested, harity⟩ := h
    obtain ⟨hcontainers, hname⟩ := List.append_inj' (nestedNames_eq_of_nestedName hd he hnested) rfl
    exact ⟨hns, hcontainers, (List.cons.inj hname).1, harity⟩
  · exact IsNamedLike.key_eq

end Declaration

namespace Program

variable {p : Program} {r : TypeRef} {d e : Declaration}

/-- What a reference that finds one declaration tells about another one. -/
structure FindsByKey (p : Program) (r : TypeRef) (d e : Declaration) : Prop where
  /-- It is found exactly where it has the same key. -/
  keys : e ∈ p.declarationsOf r ↔ d.key = e.key
  /-- Parts of one type are found together. -/
  parts : d.IsPartWith e → e ∈ p.declarationsOf r
  /-- What is found is named alike, and nothing else is. -/
  names : d.HasPlainNames → e.HasPlainNames → (e ∈ p.declarationsOf r ↔ d.IsNamedLike e)
  /-- What is found is a part of the same type exactly where the enclosing types have as many type parameters. -/
  arities : d.HasPlainNames → e.HasPlainNames → e ∈ p.declarationsOf r →
    (d.IsPartWith e ↔ d.containers.map (·.typeParameters.length) = e.containers.map (·.typeParameters.length))

/-- **A reference finds the declarations with one key.** -/
theorem findsByKey (hd : d ∈ p.declarationsOf r) (he : e ∈ p.model.declarations) : p.FindsByKey r d e := by
  obtain ⟨hkind, -, hkey⟩ := mem_declarationsOf.mp hd
  have hkeys : e ∈ p.declarationsOf r ↔ d.key = e.key := by
    rw [mem_declarationsOf, hkey]
    constructor
    · rintro ⟨-, -, h⟩
      exact h.symm
    · intro h
      exact ⟨hkind, he, h.symm⟩
  refine ⟨hkeys, fun h => hkeys.mpr h.key_eq, fun hdp hep => hkeys.trans (Declaration.key_eq_iff hdp hep), ?_⟩
  intro hdp hep hfound
  have hnamed : d.IsNamedLike e := (Declaration.key_eq_iff hdp hep).mp (hkeys.mp hfound)
  constructor
  · intro h
    exact h.arities
  · intro harities
    exact ⟨hnamed, harities⟩

/-! ## Parts of two types -/

/-- An interface that is nested in a type with some type parameters. -/
def nestedPart (parameters : List String) : Declaration :=
  { interfaceNamed none "IPart" with containers := [⟨"Outer", .classType, parameters⟩] }

/-- An interface in two parts, and one of the same name in a generic type. -/
def nestedParts : Program := .ofModel (.ofList [nestedPart [], nestedPart [], nestedPart ["T"]]) []

/-- The parts of the first interface are found together. -/
theorem parts_found :
    let r : TypeRef := .named none "Outer.IPart" []
    let d : Declaration := nestedPart []
    let e : Declaration := { nestedPart [] with id := 1 }
    d ∈ nestedParts.declarationsOf r ∧ e ∈ nestedParts.model.declarations ∧ d.IsPartWith e ∧
      e ∈ nestedParts.declarationsOf r ∧ nestedParts.FindsByKey r d e := by
  intro r d e
  have hd : d ∈ nestedParts.declarationsOf r := by decide +kernel
  have he : e ∈ nestedParts.model.declarations := by decide +kernel
  have hpart : d.IsPartWith e := ⟨⟨rfl, rfl, rfl, rfl⟩, rfl⟩
  have hfinds : nestedParts.FindsByKey r d e := findsByKey hd he
  exact ⟨hd, he, hpart, hfinds.parts hpart, hfinds⟩

/-- The interface in the generic type is found with them, though it is another one. -/
theorem parts_found_together :
    let r : TypeRef := .named none "Outer.IPart" []
    let found := nestedParts.declarationsOf r
    found.map (·.id) = [0, 1, 2] ∧ ∃ d ∈ found, ∃ e ∈ found, ¬d.IsPartWith e := by
  intro r found
  refine ⟨by decide +kernel, nestedPart [], by decide +kernel, { nestedPart ["T"] with id := 2 }, by decide +kernel, ?_⟩
  intro h
  exact absurd h.arities (by decide)

end Program

end ContractStubs

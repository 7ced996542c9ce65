import ContractStubs.Proofs.Binding.Places
import ContractStubs.Proofs.Lists
import ContractStubs.Proofs.Samples

/-!
# The nearest declaration

A name that is neither a keyword nor a type parameter is looked for under some keys, one after the other
(`Scope.candidates`), and denotes the first that is declared (`Binder.declared?_eq_find?`). So a further declaration is
of no account for a name unless it stands under a key that was passed over; and then it takes the name
(`Binder.nearest_decides`).
-/

namespace ContractStubs

/-- The keys under which a name is looked for, nearest first. Behind a qualifier it is looked for in the namespaces that
the qualifier can mean, then as the name of a nested type. -/
def Scope.candidates (scope : Scope) (name : String) (arity : Nat) : List DeclarationKey :=
  ((splitQualifier? name).elim [] fun (qualifier, simple) =>
      scope.enclosingNamespaces.map fun ns => ⟨some (Binder.qualifiedFrom qualifier ns), simple, arity⟩) ++
    scope.searchedNamespaces.map fun ns => ⟨ns, name, arity⟩

namespace Binder

variable {b c : Binder} {scope : Scope} {name : String} {arity : Nat}

instance : Decidable (IsReserved scope name arity) := inferInstanceAs (Decidable (_ ∧ _ ∧ (_ ∨ _)))

/-- The key is a candidate before the one that wins; all are where none is declared, and none is where the name is a
keyword or a type parameter. -/
def PassesOver (b : Binder) (scope : Scope) (name : String) (arity : Nat) (key : DeclarationKey) : Prop :=
  ¬IsReserved scope name arity ∧ key ∈ (scope.candidates name arity).takeWhile fun k => !b.index.keys.contains k

instance {key : DeclarationKey} : Decidable (b.PassesOver scope name arity key) :=
  inferInstanceAs (Decidable (¬_ ∧ _))

/-! ## One name -/

/-- **A name denotes the first of its candidates that is declared.** -/
theorem declared?_eq_find? : b.declared? scope name arity =
    ((scope.candidates name arity).find? fun k => b.index.keys.contains k).map
      fun k => (k.namespaceName?, k.nestedName) := by
  have hnearest : (b.nearest? scope name arity).map (fun ns => (ns, name)) =
      ((scope.searchedNamespaces.map fun ns => DeclarationKey.mk ns name arity).find?
        fun k => b.index.keys.contains k).map fun k => (k.namespaceName?, k.nestedName) := by
    rw [List.find?_map, Option.map_map]
    rfl
  rw [declared?, Scope.candidates, List.find?_append, hnearest]
  cases splitQualifier? name with
  | none => rfl
  | some parts =>
    obtain ⟨qualifier, simple⟩ := parts
    have hqualified : (b.nearestQualified? scope qualifier simple arity).map (fun ns => (some ns, simple)) =
        ((scope.enclosingNamespaces.map fun ns => DeclarationKey.mk (some (qualifiedFrom qualifier ns)) simple arity).find?
          fun k => b.index.keys.contains k).map fun k => (k.namespaceName?, k.nestedName) := by
      rw [nearestQualified?, List.find?_map, List.find?_map, Option.map_map, Option.map_map]
      rfl
    dsimp only [Option.bind_some, Option.elim_some]
    rw [hqualified]
    cases (scope.enclosingNamespaces.map fun ns =>
      DeclarationKey.mk (some (qualifiedFrom qualifier ns)) simple arity).find? fun k => b.index.keys.contains k <;> rfl

/-- What a name gives that is neither reserved nor declared: a well-known type, or itself. -/
def undeclared (known : KnownTypes) (name : String) (args : List TypeRef) : TypeRef :=
  match splitQualifier? name with
  | some (qualifier, simple) =>
    if known.namespaceOf? simple args.length = some qualifier then .named (some qualifier) simple args
    else .unresolved name args
  | none =>
    match known.namespaceOf? name args.length with
    | some ns => .named (some ns) name args
    | none => .unresolved name args

theorem bindName_eq_undeclared {args : List TypeRef} (hr : ¬IsReserved scope name args.length)
    (h : b.declared? scope name args.length = none) : b.bindName scope name args = undeclared b.known name args := by
  rw [undeclared]
  rcases bindName_of_not_declared? hr h with ⟨known, simple, he, hknown, ⟨hsimple, rfl⟩ | hsplit⟩ | ⟨he, hunknown⟩
  · rw [he, hsimple]
    dsimp only
    rw [hknown]
  · rw [he, hsplit]
    exact (if_pos hknown).symm
  · rw [he]
    rw [IsUnknown] at hunknown
    cases hsplit : splitQualifier? name with
    | none =>
      rw [hsplit] at hunknown
      dsimp only
      rw [hunknown]
    | some parts =>
      rw [hsplit] at hunknown
      exact (if_neg hunknown).symm

/-- What a name gives rests on what it denotes and on the well-known types. -/
theorem bindName_congr {args : List TypeRef} (hknown : b.known = c.known)
    (h : ¬IsReserved scope name args.length → b.declared? scope name args.length = c.declared? scope name args.length) :
    b.bindName scope name args = c.bindName scope name args := by
  by_cases hr : IsReserved scope name args.length
  · rw [bindName_reserved hr, bindName_reserved hr]
  · cases hd : c.declared? scope name args.length with
    | some found => rw [bindName_of_declared? hr ((h hr).trans hd), bindName_of_declared? hr hd]
    | none => rw [bindName_eq_undeclared hr ((h hr).trans hd), bindName_eq_undeclared hr hd, hknown]

/-! ## A further declaration -/

/-- The second looks up names like the first, with one more declared key. -/
structure Adds (b c : Binder) (key : DeclarationKey) : Prop where
  known : c.known = b.known
  keys : ∀ k, c.index.keys.contains k = true ↔ b.index.keys.contains k = true ∨ k = key

variable {key : DeclarationKey}

theorem adds_insert (known : KnownTypes) (before after : List Declaration) (d : Declaration) :
    Adds ⟨.ofList (before ++ after), known⟩ ⟨.ofList (before ++ d :: after), known⟩ d.key where
  known := rfl
  keys k := by
    simp only [DeclarationIndex.ofList, List.contains_iff_mem, List.map_append, List.map_cons, List.mem_append,
      List.mem_cons]
    tauto

namespace Adds

variable (h : Adds b c key)

include h

/-- A key that is not passed over is of no account for the name. -/
theorem bindName_eq {args : List TypeRef} (hkey : ¬b.PassesOver scope name args.length key) :
    c.bindName scope name args = b.bindName scope name args := by
  refine bindName_congr h.known fun hr => ?_
  rw [declared?_eq_find?, declared?_eq_find?, find?_eq_of_not_mem_takeWhile h.keys fun hmem => hkey ⟨hr, hmem⟩]

/-- A key that is passed over takes the name. -/
theorem bindName_eq_named {args : List TypeRef} (hkey : b.PassesOver scope name args.length key) :
    c.bindName scope name args = .named key.namespaceName? key.nestedName args := by
  refine bindName_of_declared? hkey.1 ?_
  rw [declared?_eq_find?, find?_eq_of_mem_takeWhile h.keys hkey.2, Option.map_some]

/-- What is looked up stays as it is where no name passes the key over. -/
theorem bind_eq : ∀ t : TypeExpr, (t.EachName fun name arity => ¬b.PassesOver scope name arity key) →
    c.bind scope t = b.bind scope t :=
  TypeExpr.induction fun t ih hpasses => by
    have hinside : ∀ u ∈ t.children, c.bind scope u = b.bind scope u := fun u hu => ih u hu (hpasses.of_mem hu)
    cases t with
    | verbatim text => rfl
    | named name args suffix =>
      have hargs : c.bindAll scope args = b.bindAll scope args := by
        rw [bindAll_eq_map, bindAll_eq_map]
        exact List.map_congr_left hinside
      have hname : c.bindName scope name (b.bindAll scope args) = b.bindName scope name (b.bindAll scope args) := by
        refine h.bindName_eq ?_
        rw [bindAll_eq_map, List.length_map]
        exact hpasses.root
      rw [bind, bind, hargs, hname]
    | tuple elements suffix =>
      have helements : c.bindElements scope elements = b.bindElements scope elements := by
        rw [bindElements_eq_map, bindElements_eq_map]
        exact List.map_congr_left fun e he => by rw [hinside e.1 (List.mem_map_of_mem he)]
      rw [bind, bind, helements]

end Adds

/-- **Looking up is decided by the nearest declarations: a further one is of no account where no name passes it over;
where one does, the name denotes it.** -/
theorem nearest_decides (known : KnownTypes) (before after : List Declaration) (d : Declaration) (scope : Scope)
    (t : TypeExpr) :
    ((t.EachName fun name arity =>
        ¬(Binder.mk (.ofList (before ++ after)) known).PassesOver scope name arity d.key) →
      (Binder.mk (.ofList (before ++ d :: after)) known).bind scope t =
        (Binder.mk (.ofList (before ++ after)) known).bind scope t) ∧
    ∀ place name args suffix, t.at? place = some (.named name args suffix) →
      (Binder.mk (.ofList (before ++ after)) known).PassesOver scope name args.length d.key →
      ((Binder.mk (.ofList (before ++ d :: after)) known).bind scope t).at? place =
        some ((TypeRef.named d.key.namespaceName? d.key.nestedName
          (args.map ((Binder.mk (.ofList (before ++ d :: after)) known).bind scope))).withSuffix suffix) := by
  have hadds := adds_insert known before after d
  refine ⟨hadds.bind_eq t, fun place name args suffix hat hpasses => ?_⟩
  rw [at?_bind, hat, Option.map_some, bind, bindAll_eq_map, hadds.bindName_eq_named]
  rwa [List.length_map]

/-- A class of this name in a namespace. -/
def customerIn (namespaceName : String) : Declaration :=
  { (default : Declaration) with kind := .classType, name := "Customer", namespaceName? := some namespaceName }

/-- The scope in a generic type of `Shop.Web`, with a using line for `Lib`. -/
def webScope : Scope := ⟨some "Shop.Web", ["Lib"], ["T"]⟩

/-- `(Customer? who, List<T>[])`, looked up where `Shop` has a customer: another one in `Lib` is of no account, and one in
`Shop.Web` is taken. -/
theorem nearest_customer :
    (Binder.mk (.ofList [customerIn "Shop", customerIn "Lib"]) (.withExtra [])).bind webScope customersExpr =
        (Binder.mk (.ofList [customerIn "Shop"]) (.withExtra [])).bind webScope customersExpr ∧
      ((Binder.mk (.ofList [customerIn "Shop", customerIn "Shop.Web"]) (.withExtra [])).bind webScope
        customersExpr).at? [0] = some ((TypeRef.named (some "Shop.Web") "Customer" []).withSuffix "?") := by
  constructor
  · refine (nearest_decides (.withExtra []) [customerIn "Shop"] [] (customerIn "Lib") webScope customersExpr).1 ?_
    rw [customersExpr, TypeExpr.eachName_tuple]
    simp only [List.forall_mem_cons, TypeExpr.eachName_named, List.append_nil, List.not_mem_nil, false_imp_iff,
      implies_true, and_true]
    decide +kernel
  · exact (nearest_decides (.withExtra []) [customerIn "Shop"] [] (customerIn "Shop.Web") webScope customersExpr).2
      [0] "Customer" [] "?" rfl (by decide +kernel)

end Binder

end ContractStubs

import ContractStubs.Proofs.Samples
import ContractStubs.Proofs.Stub.Imports

/-!
# The namespaces of stubs that take a missing one's place

A method whose result is not understood still gets a stub with the declared types, but has no signature that could
record its namespaces. What its types mention is imported exactly where a target, or a method with a signature, mentions
it too (`Provider.fallback_imports`); the namespaces of a target are imported in any case.
-/

namespace ContractStubs

/-- The namespace occurs in the return type of a member, in the types of its parameters or in the interface that declares
it. -/
def InterfaceMember.Mentions (m : InterfaceMember) (ns : String) : Prop :=
  m.declaringInterface.Mentions ns ∨ (∃ t ∈ m.returnType?, t.Mentions ns) ∨ ∃ q ∈ m.parameters, q.type.Mentions ns

/-- A signature mentions what its member does. -/
theorem InterfaceMember.mentions_iff {m : InterfaceMember} {s : Signature} {allow : Bool} {ns : String}
    (h : m.signature allow = .ok s) : m.Mentions ns ↔ s.declaringInterface.Mentions ns ∨ s.returnType.Mentions ns ∨
      ∃ q ∈ s.parameters, q.type.Mentions ns := by
  obtain ⟨hinterface, hreturn, hparameters, -, -⟩ := signature_eq_ok h
  rw [Mentions, hinterface, hreturn, hparameters]
  simp

namespace Provider

variable {p : Provider} {allow : Bool} {r : StubRequest} {outputExtension ns : String}

/-- The signatures of a contract are those of the methods that have one. -/
theorem mem_signatures_iff {i : TypeRef} {c : Contract} {ms : List InterfaceMember} (hms : p.members i = .ok ms)
    (hc : p.contractOf allow i = .ok c) {s : Signature} :
    s ∈ c.signatures ↔ ∃ m ∈ ms, m.isInstanceMethod = true ∧ m.signature allow = .ok s := by
  obtain ⟨ms', hms', rfl⟩ := contractOf_eq_ok.mp hc
  obtain rfl := Except.ok.inj (hms.symm.trans hms')
  rw [Contract.signatures, List.filterMap_map, List.mem_filterMap]
  simp only [Function.comp, List.mem_filter, and_assoc]
  refine exists_congr fun m => and_congr_right fun _ => and_congr_right fun _ => ?_
  rw [InterfaceMember.outcome]
  cases m.signature allow <;> simp [Except.mapError]

/-- The namespace occurs in a target or in the types of a method that has a signature. -/
def Signs (p : Provider) (allow : Bool) (r : StubRequest) (ns : String) : Prop :=
  ∃ i ∈ r.interfaces, i.Mentions ns ∨ ∃ ms, p.members i = .ok ms ∧
    ∃ m ∈ ms, m.isInstanceMethod = true ∧ (∃ s, m.signature allow = .ok s) ∧ m.Mentions ns

/-- Where all targets have contracts, what occurs in these is what targets and methods with signatures mention. -/
theorem occursIn_contractsOf_iff (h : ∀ i ∈ r.interfaces, ∃ c, p.contractOf allow i = .ok c) :
    OccursIn (p.contractsOf allow r) ns ↔ p.Signs allow r ns := by
  constructor
  · rintro ⟨c, hc, hmention⟩
    obtain ⟨i, hi, hc⟩ := mem_contractsOf.mp hc
    obtain ⟨ms, hms, hci⟩ := contractOf_eq_ok.mp hc
    have hinterface : c.interface = i := by rw [hci]
    refine ⟨i, hi, ?_⟩
    rcases hmention with htarget | ⟨s, hs, hmention⟩
    · exact .inl (hinterface ▸ htarget)
    · obtain ⟨m, hm, hinstance, hsignature⟩ := (mem_signatures_iff hms hc).mp hs
      exact .inr ⟨ms, hms, m, hm, hinstance, ⟨s, hsignature⟩, (InterfaceMember.mentions_iff hsignature).mpr hmention⟩
  · rintro ⟨i, hi, hmention⟩
    obtain ⟨c, hc⟩ := h i hi
    obtain ⟨ms, hms, hci⟩ := contractOf_eq_ok.mp hc
    have hinterface : c.interface = i := by rw [hci]
    refine ⟨c, mem_contractsOf.mpr ⟨i, hi, hc⟩, ?_⟩
    rcases hmention with htarget | ⟨ms', hms', m, hm, hinstance, ⟨s, hsignature⟩, hmention⟩
    · exact .inl (hinterface ▸ htarget)
    · obtain rfl := Except.ok.inj (hms.symm.trans hms')
      exact .inr ⟨s, (mem_signatures_iff hms hc).mpr ⟨m, hm, hinstance, hsignature⟩,
        (InterfaceMember.mentions_iff hsignature).mp hmention⟩

/-- A method without a signature that still has a header gets a stub with this header. -/
theorem mem_headersOf_of_fallback {i : TypeRef} {c : Contract} {ms : List InterfaceMember} {m : InterfaceMember}
    {cause : StubError} {header : String} (hi : i ∈ r.interfaces) (hc : p.contractOf allow i = .ok c)
    (hms : p.members i = .ok ms) (hm : m ∈ ms) (hinstance : m.isInstanceMethod = true)
    (hfails : m.signature allow = .error cause) (hheader : m.fallbackStub? = some header) :
    header ∈ p.headersOf allow r := by
  obtain ⟨ms', hms', rfl⟩ := contractOf_eq_ok.mp hc
  obtain rfl := Except.ok.inj (hms.symm.trans hms')
  have hmember : m.outcome allow (introspectFrame i) ∈ (p.contractsOf allow r).flatMap (·.members) :=
    List.mem_flatMap.mpr ⟨_, mem_contractsOf.mpr ⟨i, hi, hc⟩,
      List.mem_map_of_mem (List.mem_filter.mpr ⟨hm, hinstance⟩)⟩
  refine List.mem_filterMap.mpr ⟨_, List.mem_map_of_mem hmember, ?_⟩
  rw [memberHeader?_outcome, InterfaceMember.header?, hfails]
  exact hheader

/-- **The imports of stubs that take a missing one's place.** In a text that is not degenerate, a method without a
signature but with all its types written has a stub with just these types. A namespace that they or the declaring
interface mention has a using line exactly if it also occurs in a target or in a method that has a signature; so it has
one if it occurs in a declaring interface that is a target itself. -/
theorem fallback_imports (h : (p.stubFile allow outputExtension r).isDegenerate = false) :
    ∃ clause names, implementsClause r.interfaces = .ok clause ∧
      (p.stubFile allow outputExtension r).text = "\n".intercalate (["#nullable enable", ""] ++ importLines names ++
        r.bodyLines clause (p.contractsOf allow r)) ++ "\n" ∧
      ∀ i ∈ r.interfaces, ∀ ms, p.members i = .ok ms → ∀ m ∈ ms, m.isInstanceMethod = true →
        ∀ cause, m.signature allow = .error cause → ∀ header, m.fallbackStub? = some header →
          header ∈ p.headersOf allow r ∧
            ∀ ns, isGlobalNamespace ns = false → m.Mentions ns →
              (ns ∈ names ↔ p.Signs allow r ns) ∧
                (m.declaringInterface ∈ r.interfaces → m.declaringInterface.Mentions ns → ns ∈ names) := by
  obtain ⟨hcontracts, -, clause, hclause, hsource⟩ := stubSource_of_not_isDegenerate h
  refine ⟨clause, (usedNamespaces (p.contractsOf allow r)).names, hclause, ?_, ?_⟩
  · rw [stubFile, hsource, StubSource.text_ofContracts, headLines_eq]
  intro i hi ms hms m hm hinstance cause hfails header hheader
  obtain ⟨c, hc⟩ := hcontracts i hi
  refine ⟨mem_headersOf_of_fallback hi hc hms hm hinstance hfails hheader, fun ns hglobal _ => ?_⟩
  have hnames : ns ∈ (usedNamespaces (p.contractsOf allow r)).names ↔ p.Signs allow r ns := by
    rw [mem_usedNamespaces_iff_asksFor, and_iff_right hglobal,
      asksFor_iff_occursIn (fun c hc s hs => isOfTypes_of_mem_contractsOf hc hs) hglobal,
      occursIn_contractsOf_iff hcontracts]
  exact ⟨hnames, fun htarget hmention => hnames.mpr ⟨_, htarget, .inl hmention⟩⟩

end Provider

/-! ## A dictionary that is not waited for -/

namespace Program

/-- The dictionary after its names were looked up. -/
def dictionaryType : TypeRef :=
  .named (some "System.Collections.Generic") "Dictionary" [.bare .keyword "string", .bare .keyword "int"]

/-- The loading method as a member of the store. -/
def loading : InterfaceMember := ⟨"Load", .method, false, [], some dictionaryType, [], store⟩

/-- The namespace of the dictionary is imported for the fetching method, and so serves the loading one. -/
theorem dictionary_imported :
    (((storing [load, fetch]).provider 3).stubFile false ".g.cs" keeping).isDegenerate = false ∧
      ∃ names body, (((storing [load, fetch]).provider 3).stubFile false ".g.cs" keeping).text =
          "\n".intercalate (["#nullable enable", ""] ++ importLines names ++ body) ++ "\n" ∧
        loading.signature false = .error (.ambiguousResult "Load" "Dictionary<string, int>") ∧
        "Dictionary<string, int> IStore.Load()" ∈ ((storing [load, fetch]).provider 3).headersOf false keeping ∧
        "Data" ∈ names ∧ "System.Collections.Generic" ∈ names := by
  have hwhole : (((storing [load, fetch]).provider 3).stubFile false ".g.cs" keeping).isDegenerate = false := by
    decide +kernel
  have hmembers : ∃ fetching, ((storing [load, fetch]).provider 3).members store = .ok [loading, fetching] ∧
      fetching.isInstanceMethod = true ∧ (∃ s, fetching.signature false = .ok s) ∧
      fetching.returnType? = some (.named (some "System.Threading.Tasks") "Task" [dictionaryType]) :=
    ⟨_, rfl, rfl, ⟨_, rfl⟩, rfl⟩
  obtain ⟨fetching, hms, hinstance, hsigned, hreturn⟩ := hmembers
  have hfails : loading.signature false = .error (.ambiguousResult "Load" "Dictionary<string, int>") := by decide +kernel
  have hheader : loading.fallbackStub? = some "Dictionary<string, int> IStore.Load()" := by decide +kernel
  obtain ⟨clause, names, -, htext, hfallback⟩ := Provider.fallback_imports hwhole
  obtain ⟨hwritten, hnames⟩ := hfallback store (List.mem_singleton_self _) _ hms loading List.mem_cons_self rfl _ hfails _
    hheader
  refine ⟨hwhole, names, _, htext, hfails, hwritten, ?_, ?_⟩
  · exact (hnames "Data" (by decide +kernel) (.inl ⟨[], _, rfl, rfl⟩)).2 (List.mem_singleton_self _) ⟨[], _, rfl, rfl⟩
  · refine (hnames _ (by decide +kernel) (.inr (.inl ⟨_, rfl, [], _, rfl, rfl⟩))).1.mpr ?_
    exact ⟨store, List.mem_singleton_self _, .inr ⟨_, hms, fetching, by simp, hinstance, hsigned,
      .inr (.inl ⟨_, hreturn, [0], _, rfl, rfl⟩)⟩⟩

/-- With the loading method alone, the namespace of the dictionary is not imported. -/
theorem dictionary_not_imported :
    keeping ∈ (storing [load]).standardRequests ∧
      (((storing [load]).provider 3).stubFile false ".g.cs" keeping).isDegenerate = false ∧
      ((storing [load]).provider 3).members store = .ok [loading] ∧
      loading.signature false = .error (.ambiguousResult "Load" "Dictionary<string, int>") ∧
      loading.fallbackStub? = some "Dictionary<string, int> IStore.Load()" ∧
      loading.Mentions "System.Collections.Generic" ∧ isGlobalNamespace "System.Collections.Generic" = false ∧
      (((storing [load]).provider 3).stubFile false ".g.cs" keeping).text = "\n".intercalate ["#nullable enable", "",
        "using Data;", "", "namespace Data;", "", "partial class Keeper : IStore", "\x7b", "    /*",
        "    Method Load returns Dictionary<string, int>, which has more than one type argument",
        "       at introspect Data.IStore", "       at synthesize Data.Keeper", "    */",
        "    Dictionary<string, int> IStore.Load()", "    \x7b", "        return;", "    \x7d", "\x7d"] ++ "\n" := by
  have hwhole : (((storing [load]).provider 3).stubFile false ".g.cs" keeping).isDegenerate = false := by decide +kernel
  have hfails : loading.signature false = .error (.ambiguousResult "Load" "Dictionary<string, int>") := by decide +kernel
  refine ⟨by decide +kernel, hwhole, rfl, hfails, by decide +kernel, .inr (.inl ⟨_, rfl, [], _, rfl, rfl⟩),
    by decide +kernel, ?_⟩
  obtain ⟨clause, hclause, htext⟩ := Provider.lines_of_not_isDegenerate hwhole
  have hcontracts : ∃ d, ((storing [load]).provider 3).contractsOf false keeping = [⟨store, [.error d]⟩] :=
    ⟨loading.diagnostic (.ambiguousResult "Load" "Dictionary<string, int>") (introspectFrame store), rfl⟩
  have hnames : ∀ d, usedNamespaces [⟨store, [.error d]⟩] = ⟨["Data"]⟩ := fun d =>
    usedNamespaces_of_one (by decide +kernel) rfl fun s hs => nomatch hs
  have hclause' : clause = " : IStore" := by
    rw [implementsClause_eq_ok hclause]
    decide +kernel
  obtain ⟨d, hcontracts⟩ := hcontracts
  rw [htext, hcontracts, hnames, hclause']
  have hlines : headLines ⟨["Data"]⟩ ++ keeping.namespaceLines ++
      Page.openLines 0 (keeping.outerHeaders ++ [keeping.typeHeader " : IStore"]) ++
      Page.membersLines (keeping.outerHeaders.length + 1) (((storing [load]).provider 3).membersOf false keeping) ++
      Page.closeLines (keeping.outerHeaders.length + 1) = ["#nullable enable", "",
        "using Data;", "", "namespace Data;", "", "partial class Keeper : IStore", "\x7b", "    /*",
        "    Method Load returns Dictionary<string, int>, which has more than one type argument",
        "       at introspect Data.IStore", "       at synthesize Data.Keeper", "    */",
        "    Dictionary<string, int> IStore.Load()", "    \x7b", "        return;", "    \x7d", "\x7d"] := by
    decide +kernel
  rw [hlines]

end Program

end ContractStubs

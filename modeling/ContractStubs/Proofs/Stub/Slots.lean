import ContractStubs.Proofs.Layout.Nesting
import ContractStubs.Proofs.Samples
import ContractStubs.Proofs.Stub.Imports

/-!
# The slots of a text

What a text is written with as one layout (`StubRequest.layout`): in the blocks of the enclosing types and of the type a
slot for each member (`Layout.slot`). So all blocks of a text nest and each is closed once; and where there is no
contract for a target, or no list of base types, the text is the comments about that (`Provider.slot_for_each_member`).
In any other case the methods in the text are those of the members (`Provider.hasMethods_headersOf`).
-/

namespace ContractStubs

/-! ## Slots -/

namespace Layout

/-- The comment about a failure. -/
def comment (d : Diagnostic) : Layout := ofLines d.commentLines

/-- A method of one line. -/
def stub (header body : String) : Layout := block header (line body done) done

/-- The slot of a member: its stub, or the comment about it with the stub that takes the place of the missing one. -/
def slot : Except Diagnostic Signature → Layout
  | .ok s => stub s.stubHeader (if s.result.carriesValue then "return default;" else "return;")
  | .error d =>
    match d.fallbackStub? with
    | some header => (comment d).append (stub header "return;")
    | none => comment d

theorem headers_slot (m : Except Diagnostic Signature) : (slot m).headers = (memberHeader? m).toList := by
  cases m with
  | ok s => rfl
  | error d =>
    simp only [slot, memberHeader?]
    cases d.fallbackStub? with
    | none => simp [comment, headers_ofLines]
    | some header => simp [comment, headers_append, headers_ofLines, stub, headers]

end Layout

namespace Page

variable {α : Type} {f : Page → α → Page} {g : α → Layout}

theorem writeLayout_append (m : Layout) : ∀ (l : Layout) (p : Page),
    p.writeLayout (l.append m) = (p.writeLayout l).writeLayout m
  | .done, _ => rfl
  | .line text rest, p => writeLayout_append m rest (p.write text)
  | .block header inside rest, p => writeLayout_append m rest ((p.openBlock header).writeLayout inside).closeBlock

/-- What is written with an empty line between one and the next, if each comes to a layout. -/
theorem foldl_writeBlank (hf : ∀ p a, f p a = p.writeLayout (g a)) : ∀ (as : List α) (a : α) (p : Page),
    as.foldl (fun p a => f p.writeBlank a) (f p a) = p.writeLayout (.apart ((a :: as).map g))
  | [], a, p => hf p a
  | b :: as, a, p => by
    rw [List.foldl_cons, foldl_writeBlank hf as b, hf p a, List.map_cons, List.map_cons, List.map_cons, Layout.apart,
      writeLayout_append]
    rfl

theorem writeAll_eq_writeLayout : ∀ (texts : List String) (p : Page),
    p.writeAll texts = p.writeLayout (.ofLines texts)
  | [], _ => rfl
  | text :: texts, p => writeAll_eq_writeLayout texts (p.write text)

theorem writeMember_eq_writeLayout (p : Page) (m : Except Diagnostic Signature) :
    p.writeMember m = p.writeLayout (.slot m) := by
  cases m with
  | ok s => rfl
  | error d =>
    simp only [writeMember, Layout.slot, Layout.comment]
    cases d.fallbackStub? with
    | none => exact writeAll_eq_writeLayout d.commentLines p
    | some header =>
      simp only
      rw [writeLayout_append, ← writeAll_eq_writeLayout]
      rfl

theorem writeMembers_eq_writeLayout (p : Page) : ∀ ms : List (Except Diagnostic Signature),
    p.writeMembers ms = p.writeLayout (.apart (ms.map Layout.slot))
  | [] => rfl
  | m :: ms => foldl_writeBlank writeMember_eq_writeLayout ms m p

theorem writeFailures_eq_writeLayout (p : Page) : ∀ ds : List Diagnostic,
    p.writeFailures ds = p.writeLayout (.apart (ds.map Layout.comment))
  | [] => rfl
  | d :: ds => foldl_writeBlank (f := fun p (d : Diagnostic) => p.writeAll d.commentLines)
    (fun p d => writeAll_eq_writeLayout d.commentLines p) ds d p

/-- The lines of members are those of their slots. -/
theorem membersLines_eq (depth : Nat) (ms : List (Except Diagnostic Signature)) :
    membersLines depth ms = [""].intercalate (ms.map fun m => (Layout.slot m).lines depth) := by
  have h := (writeMembers_eq ⟨[], depth⟩ ms).symm.trans (writeMembers_eq_writeLayout ⟨[], depth⟩ ms)
  rw [writeLayout_eq, Layout.lines_apart, List.map_map] at h
  simpa [Function.comp_def] using congrArg lines h

theorem closeBlock_closeBlocks : ∀ (count : Nat) (p : Page),
    (closeBlocks count p).closeBlock = closeBlocks (count + 1) p
  | 0, _ => rfl
  | count + 1, p => closeBlock_closeBlocks count p.closeBlock

theorem writeLayout_inBlocks (l : Layout) : ∀ (hs : List String) (p : Page),
    p.writeLayout (l.inBlocks hs) = closeBlocks hs.length ((hs.foldl openBlock p).writeLayout l)
  | [], _ => rfl
  | header :: hs, p => by
    rw [Layout.inBlocks, writeLayout, writeLayout, writeLayout_inBlocks l hs, closeBlock_closeBlocks]
    rfl

end Page

/-! ## The page of a request -/

namespace StubRequest

variable (r : StubRequest) (clause : String) (contracts : List Contract)

/-- The members of some contracts, as the text for a request gets them. -/
def framedMembers : List (Except Diagnostic Signature) := (contracts.flatMap (·.members)).map r.framed

/-- The slots in the type, inside of the enclosing types. -/
def layout : Layout :=
  (Layout.apart ((r.framedMembers contracts).map Layout.slot)).inBlocks (r.outerHeaders ++ [r.typeHeader clause])

/-- The page of a request. -/
def page : Page :=
  ((⟨r.namespaceLines, 0⟩ : Page).writeLayout (r.layout clause contracts)).prepend
    (headLines (usedNamespaces contracts))

/-- Where the blocks on the page stand. -/
def braces : List Brace :=
  (r.layout clause contracts).braces ((headLines (usedNamespaces contracts)).length + r.namespaceLines.length) 0

theorem foldl_openBlock_eq_openType :
    (r.outerHeaders ++ [r.typeHeader clause]).foldl Page.openBlock ⟨r.namespaceLines, 0⟩ = r.openType clause := by
  rw [openType_eq, Page.foldl_openBlock]
  simp

theorem closeAll_eq_writeLayout : ((r.openType clause).writeMembers (r.framedMembers contracts)).closeAll =
    (⟨r.namespaceLines, 0⟩ : Page).writeLayout (r.layout clause contracts) := by
  rw [layout, Page.writeLayout_inBlocks, foldl_openBlock_eq_openType, ← Page.writeMembers_eq_writeLayout, Page.closeAll]
  congr 1
  rw [Page.writeMembers_eq, openType_eq]
  simp

theorem page_eq : r.page clause contracts =
    (((r.openType clause).writeMembers (r.framedMembers contracts)).closeAll).prepend
      (headLines (usedNamespaces contracts)) := by
  rw [page, closeAll_eq_writeLayout]

/-- The lines of the page: the slots in the blocks, behind the using lines and the namespace. -/
theorem lines_page : (r.page clause contracts).lines =
    headLines (usedNamespaces contracts) ++ r.namespaceLines ++ (r.layout clause contracts).lines 0 := by
  rw [page, Page.writeLayout_eq, Page.prepend, List.append_assoc]

variable {clause contracts} in
theorem isClosedIn_page {b : Brace} (hb : b ∈ r.braces clause contracts) :
    b.IsClosedIn (r.page clause contracts).lines := by
  have hclosed := Layout.isClosedIn_of_mem_braces (r.layout clause contracts)
    (headLines (usedNamespaces contracts) ++ r.namespaceLines) [] List.length_append hb
  rwa [List.append_nil, ← lines_page] at hclosed

end StubRequest

/-! ## Texts -/

namespace StubSource

/-- The text is the comments about some failures, an empty line between one and the next; all are about the type. -/
structure IsRefused (source : StubSource) (failures : List Diagnostic) : Prop where
  nonempty : failures ≠ []
  typeLevel : ∀ d ∈ failures, d.isTypeLevel = true
  text : source.text = "\n".intercalate ([""].intercalate (failures.map Diagnostic.commentLines)) ++ "\n"
  diagnostics : source.diagnostics = failures

/-- The text has a slot for each member of some contracts. -/
structure HasSlots (source : StubSource) (r : StubRequest) (clause : String) (contracts : List Contract) : Prop where
  text : source.text = (r.page clause contracts).toText
  /-- The slots stand between the opening brace of the type and its closing brace, an empty line between one and the
  next. -/
  lines : (r.page clause contracts).lines = headLines (usedNamespaces contracts) ++ r.namespaceLines ++
    Page.openLines 0 (r.outerHeaders ++ [r.typeHeader clause]) ++
    [""].intercalate ((r.framedMembers contracts).map fun m => (Layout.slot m).lines (r.outerHeaders.length + 1)) ++
    Page.closeLines (r.outerHeaders.length + 1)
  /-- The blocks are the enclosing types, the type and the stubs. -/
  headers : (r.braces clause contracts).map (·.header) =
    r.outerHeaders ++ [r.typeHeader clause] ++ (r.framedMembers contracts).filterMap memberHeader?
  closed : ∀ b ∈ r.braces clause contracts, b.IsClosedIn (r.page clause contracts).lines
  /-- No other brace closes a block. -/
  closedOnce : ∀ b ∈ r.braces clause contracts, ∀ closing,
    ({ b with closing := closing } : Brace).IsClosedIn (r.page clause contracts).lines → closing = b.closing
  nested : (r.braces clause contracts).Pairwise Brace.Nests
  diagnostics : source.diagnostics =
    (contracts.flatMap (·.diagnostics)).map fun d => d.withFrame (synthesizeFrame r)

variable (r : StubRequest)

/-- A text that is nothing but comments, line by line. -/
theorem text_ofFailures (failures : List Diagnostic) : (ofFailures failures).text =
    "\n".intercalate ([""].intercalate (failures.map Diagnostic.commentLines)) ++ "\n" := by
  have hlines : ∀ d : Diagnostic, (Layout.comment d).lines 0 = d.commentLines := by
    intro d
    rw [Layout.comment, Layout.lines_ofLines]
    exact List.map_id'' Page.indented_zero _
  rw [ofFailures, Page.writeFailures_eq_writeLayout, Page.writeLayout_eq, Layout.lines_apart, List.map_map]
  simp [Page.toText, Page.empty, Function.comp_def, hlines]

theorem isRefused_ofFailures {failures : List Diagnostic} (hne : failures ≠ [])
    (hlevel : ∀ d ∈ failures, d.isTypeLevel = true) : (ofFailures failures).IsRefused failures :=
  ⟨hne, hlevel, text_ofFailures failures, rfl⟩

theorem hasSlots_ofContracts (clause : String) (contracts : List Contract) :
    (ofContracts r clause contracts).HasSlots r clause contracts where
  text := by
    rw [StubRequest.page_eq]
    rfl
  lines := by
    rw [StubRequest.page_eq, Page.writeMembers_eq, StubRequest.openType_eq, Page.closeAll_eq, Page.prepend,
      Page.membersLines_eq]
    simp only [List.append_assoc]
  headers := by
    rw [StubRequest.braces, Layout.map_header_braces, StubRequest.layout, Layout.headers_inBlocks, Layout.headers_apart,
      List.flatMap_map]
    simp only [Layout.headers_slot, List.filterMap_eq_flatMap_toList]
  closed _ hb := r.isClosedIn_page hb
  closedOnce _ hb _ h := (r.isClosedIn_page hb).closing_eq h
  nested := Layout.pairwise_nests_braces _ _ _
  diagnostics := diagnostics_ofContracts clause contracts

variable {r}

theorem failures_ne_nil {outcomes : List (Except Diagnostic Contract)} {d : Diagnostic} (h : .error d ∈ outcomes) :
    failures r outcomes ≠ [] :=
  List.ne_nil_of_mem (List.mem_filterMap.mpr ⟨.error d, h, rfl⟩)

theorem exists_eq_map_ok : ∀ {outcomes : List (Except Diagnostic Contract)}, (∀ d, .error d ∉ outcomes) →
    ∃ contracts : List Contract, outcomes = contracts.map .ok
  | [], _ => ⟨[], rfl⟩
  | .error d :: _, h => absurd List.mem_cons_self (h d)
  | .ok c :: outcomes, h => by
    obtain ⟨cs, rfl⟩ := exists_eq_map_ok fun d hd => h d (List.mem_cons_of_mem _ hd)
    exact ⟨c :: cs, rfl⟩

end StubSource

namespace Provider

variable (p : Provider) (allow : Bool) (interfaces : List TypeRef) (r : StubRequest)

theorem isTypeLevel_of_mem_failures {d : Diagnostic}
    (h : d ∈ StubSource.failures r (interfaces.map (p.contractOf allow))) : d.isTypeLevel = true := by
  obtain ⟨outcome, houtcome, hd⟩ := List.mem_filterMap.mp h
  obtain ⟨i, -, hi⟩ := List.mem_map.mp houtcome
  cases outcome with
  | ok c => cases hd
  | error e =>
    cases hd
    exact isTypeLevel_of_contractOf (d := e) hi

/-- **Each member of a contract gets one slot.** Where some interface has no contract, the text of a request is the
comments about that; where all have one and the targets cannot stand in a list of base types, it is the comment about
that. In any other case all blocks of the text nest, each closed once, and the type has a slot for each member of the
contracts, in their order; the diagnostics are those of the members, with one more step. -/
theorem slot_for_each_member :
    ((∃ d, .error d ∈ interfaces.map (p.contractOf allow)) →
        (StubSource.ofRequest r (interfaces.map (p.contractOf allow))).IsRefused
          (StubSource.failures r (interfaces.map (p.contractOf allow)))) ∧
      ((∀ d, .error d ∉ interfaces.map (p.contractOf allow)) →
        ∃ contracts : List Contract, interfaces.map (p.contractOf allow) = contracts.map .ok ∧
          (∀ cause, implementsClause r.interfaces = .error cause →
            (StubSource.ofRequest r (interfaces.map (p.contractOf allow))).IsRefused
              [(Diagnostic.ofType cause).withFrame (synthesizeFrame r)]) ∧
          ∀ clause, implementsClause r.interfaces = .ok clause →
            (StubSource.ofRequest r (interfaces.map (p.contractOf allow))).HasSlots r clause contracts) := by
  refine ⟨fun ⟨d, hd⟩ => ?_, fun hok => ?_⟩
  · have hne := StubSource.failures_ne_nil (r := r) hd
    rw [StubSource.ofRequest_of_failures hne]
    exact StubSource.isRefused_ofFailures hne fun d hd => p.isTypeLevel_of_mem_failures allow interfaces r hd
  · obtain ⟨contracts, hcontracts⟩ := StubSource.exists_eq_map_ok hok
    have hsource := (congrArg (StubSource.ofRequest r) hcontracts).trans (StubSource.ofRequest_map_ok r contracts)
    refine ⟨contracts, hcontracts, fun cause hcause => ?_, fun clause hclause => ?_⟩
    · rw [hsource, hcause]
      exact StubSource.isRefused_ofFailures (List.cons_ne_nil _ _) fun d hd => by rw [List.mem_singleton.mp hd]; rfl
    · rw [hsource, hclause]
      exact StubSource.hasSlots_ofContracts r clause contracts

end Provider

/-! ## The methods of a file -/

/-- The text of a file has a type in which methods with these headers stand, one after the other, and beside them nothing
but comments. -/
def StubFile.HasMethods (f : StubFile) (r : StubRequest) (headers : List String) : Prop :=
  ∃ clause contracts, StubSource.HasSlots ⟨f.text, f.diagnostics⟩ r clause contracts ∧
    (r.framedMembers contracts).filterMap memberHeader? = headers

/-- **The text of a file that is not degenerate has the methods of its targets.** -/
theorem Provider.hasMethods_headersOf {p : Provider} {allow : Bool} {r : StubRequest} {outputExtension : String}
    (h : (p.stubFile allow outputExtension r).isDegenerate = false) :
    (p.stubFile allow outputExtension r).HasMethods r (p.headersOf allow r) := by
  obtain ⟨-, -, clause, -, hsource⟩ := stubSource_of_not_isDegenerate h
  refine ⟨clause, p.contractsOf allow r, ?_, rfl⟩
  have hslots := StubSource.hasSlots_ofContracts r clause (p.contractsOf allow r)
  rwa [← hsource] at hslots

namespace Program

/-- The store has a slot for each of its methods, the one with the comment first; and where a second interface is asked
for that nothing declares, the text is the comment about that. -/
theorem store_has_slots :
    let p := (storing [load, fetch]).provider 3
    let textFor (interfaces : List TypeRef) := StubSource.ofRequest keeping (interfaces.map (p.contractOf false))
    (∃ contracts, (textFor [store]).HasSlots keeping " : IStore" contracts ∧
      (keeping.braces " : IStore" contracts).map (·.header) = ["partial class Keeper : IStore",
        "Dictionary<string, int> IStore.Load()", "async Task<Dictionary<string, int>> IStore.Fetch()"]) ∧
      ∃ failure, (textFor [store, .bare .unresolved "ISafe"]).IsRefused [failure] ∧
        failure.message = "Interface ISafe could not be resolved" := by
  intro p textFor
  constructor
  · have hstore : ∃ c, p.contractOf false store = .ok c := ⟨_, rfl⟩
    obtain ⟨c, hc⟩ := hstore
    have hok : ∀ d, .error d ∉ [store].map (p.contractOf false) := by simp [hc]
    obtain ⟨contracts, hcontracts, -, hslots⟩ := (p.slot_for_each_member false [store] keeping).2 hok
    have hclause : implementsClause keeping.interfaces = .ok " : IStore" := by decide +kernel
    refine ⟨contracts, hslots _ hclause, ?_⟩
    have hall : contracts = p.contractsOf false keeping := by
      have htargets : keeping.interfaces = [store] := rfl
      rw [Provider.contractsOf, htargets, hcontracts, List.filterMap_map]
      exact List.filterMap_some.symm
    rw [(hslots _ hclause).headers, hall]
    decide +kernel
  · have hfailures : ∃ failure,
        StubSource.failures keeping ([store, .bare .unresolved "ISafe"].map (p.contractOf false)) = [failure] ∧
          failure.message = "Interface ISafe could not be resolved" := ⟨_, rfl, by decide +kernel⟩
    have hsafe : ∃ d, .error d ∈ [store, .bare .unresolved "ISafe"].map (p.contractOf false) :=
      ⟨_, List.mem_cons_of_mem _ (List.mem_singleton.mpr rfl)⟩
    obtain ⟨failure, hfailure, hmessage⟩ := hfailures
    have hrefused := (p.slot_for_each_member false [store, .bare .unresolved "ISafe"] keeping).1 hsafe
    rw [hfailure] at hrefused
    exact ⟨failure, hrefused, hmessage⟩

end Program

end ContractStubs

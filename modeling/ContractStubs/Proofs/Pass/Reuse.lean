import ContractStubs.Proofs.Fingerprint.Part
import ContractStubs.Proofs.Fingerprint.Request
import ContractStubs.Proofs.Pass.Files
import ContractStubs.Proofs.Samples
import ContractStubs.Proofs.Stub.Rereading

/-!
# Files that are used again

Requests of one name with the same fingerprint parts have one file, provided that what the parts leave out is the same
and that the types in the declarations are looked up alike (`Config.fileIn_eq`). So passes with a cache have the files
that passes without one have (`Config.CanReuse.files_run`). Each proviso is needed: models with the same parts have
different files where the parts do not tell what makes the difference (`Config.parts_confuse`).
-/

namespace ContractStubs

/-! ## What the parts leave out -/

namespace Declaration

/-- What the part of a declaration leaves out is the same: its head, the enclosing types, and what its text says if it
has one. -/
structure Matches (d e : Declaration) : Prop where
  head : d.IsHeadedTheSame e
  containers : d.containers = e.containers
  meaning : d.text ≠ "" ∨ e.text ≠ "" → d.SaysTheSame e

variable {d e : Declaration}

instance : Decidable (d.IsHeadedTheSame e) :=
  decidable_of_iff (d.kind = e.kind ∧ d.name = e.name ∧ d.typeParameters = e.typeParameters ∧ d.malformed = e.malformed)
    ⟨fun ⟨hk, hn, hp, hm⟩ => ⟨hk, hn, hp, hm⟩, fun ⟨hk, hn, hp, hm⟩ => ⟨hk, hn, hp, hm⟩⟩

instance : Decidable (d.SaysTheSame e) :=
  decidable_of_iff (d.members = e.members ∧ d.baseTypes = e.baseTypes ∧ d.attributes = e.attributes)
    ⟨fun ⟨hm, hb, ha⟩ => ⟨hm, hb, ha⟩, fun ⟨hm, hb, ha⟩ => ⟨hm, hb, ha⟩⟩

instance : Decidable (d.Matches e) :=
  decidable_of_iff (d.IsHeadedTheSame e ∧ d.containers = e.containers ∧ (d.text ≠ "" ∨ e.text ≠ "" → d.SaysTheSame e))
    ⟨fun ⟨hh, hc, hs⟩ => ⟨hh, hc, hs⟩, fun ⟨hh, hc, hs⟩ => ⟨hh, hc, hs⟩⟩

theorem content_eq_of_matches (hd : d.IsRead) (he : e.IsRead) (hdn : d.HasSeparableNamespaces)
    (hen : e.HasSeparableNamespaces) (hmatch : d.Matches e) (h : d.fingerprintPart = e.fingerprintPart) :
    d.content = e.content := by
  obtain ⟨hns, husings, hbody⟩ := of_fingerprintPart_eq hdn hen h
  have hsays : d.SaysTheSame e := by
    by_cases htext : d.text ≠ "" ∨ e.text ≠ ""
    · exact hmatch.meaning htext
    · rw [not_or, not_not, not_not] at htext
      exact saysTheSame_of_body_eq hd he htext.1 htext.2 hbody
  exact content_eq_iff.mpr ⟨hmatch.head.kind, hmatch.head.name, hns, hmatch.containers, hmatch.head.typeParameters,
    hsays.attributes, hsays.baseTypes, hsays.members, husings, hmatch.head.malformed⟩

end Declaration

theorem contents_eq_of_matches {ds es : List Declaration} (h : List.Forall₂ Declaration.Matches ds es)
    (hds : ∀ d ∈ ds, d.IsRead ∧ d.HasSeparableNamespaces) (hes : ∀ e ∈ es, e.IsRead ∧ e.HasSeparableNamespaces)
    (hparts : ds.map Declaration.fingerprintPart = es.map Declaration.fingerprintPart) :
    ds.map Declaration.content = es.map Declaration.content := by
  induction h with
  | nil => rfl
  | cons hmatch _ ih =>
    obtain ⟨⟨hd, hdn⟩, hds⟩ := List.forall_mem_cons.mp hds
    obtain ⟨⟨he, hen⟩, hes⟩ := List.forall_mem_cons.mp hes
    obtain ⟨hpart, hparts⟩ := List.cons.inj hparts
    rw [List.map_cons, List.map_cons, Declaration.content_eq_of_matches hd he hdn hen hmatch hpart, ih hds hes hparts]

/-! ## Requests with the same parts -/

namespace Program

/-- Fingerprints say what they are meant to: the program is lawful, its expressions were read, its declarations are
numbered and their namespaces can be told apart. -/
structure IsHashable (p : Program) : Prop where
  lawful : p.IsLawful
  numbered : p.model.IsNumbered
  read : p.model.IsRead
  separable : ∀ d ∈ p.model.declarations, d.HasSeparableNamespaces

/-- What the parts of two requests leave out is the same, and types are looked up alike in their declarations. -/
structure AgreesOn (p q : Program) (marker : Marker) (r s : StubRequest) : Prop where
  matching : List.Forall₂ Declaration.Matches (p.hashed marker r) (q.hashed marker s)
  bindAlike : ∀ d ∈ p.hashed marker r, BindAlike p.binder q.binder (d.consulted marker)

variable {p q : Program} {marker : Marker} {r s : StubRequest}

instance {b c : Binder} {places : List (Scope × TypeExpr)} : Decidable (BindAlike b c places) :=
  inferInstanceAs (Decidable (∀ place ∈ places, b.bind place.1 place.2 = c.bind place.1 place.2))

instance : Decidable (p.AgreesOn q marker r s) :=
  decidable_of_iff (List.Forall₂ Declaration.Matches (p.hashed marker r) (q.hashed marker s) ∧
    ∀ d ∈ p.hashed marker r, BindAlike p.binder q.binder (d.consulted marker))
    ⟨fun ⟨hm, hb⟩ => ⟨hm, hb⟩, fun ⟨hm, hb⟩ => ⟨hm, hb⟩⟩

theorem mem_of_mem_hashed (hp : p.IsHashable) {d : Declaration} (h : d ∈ p.hashed marker r) :
    d ∈ p.model.declarations := by
  rcases List.mem_append.mp h with h | h
  · exact List.mem_of_mem_filter h
  · exact (hp.lawful.covers hp.numbered r.interfaces).1.mem d h

theorem resembles_of_agreesOn (hp : p.IsHashable) (hq : q.IsHashable) (hr : r ∈ p.requests marker)
    (hs : s ∈ q.requests marker) (hname : r.qualifiedName = s.qualifiedName) (hagree : p.AgreesOn q marker r s)
    (hparts : (p.hashed marker r).map Declaration.fingerprintPart = (q.hashed marker s).map Declaration.fingerprintPart) :
    p.Resembles q marker r s := by
  refine ⟨hp.lawful, hq.lawful, hp.numbered, hq.numbered, hr, hs, hname, ?_, hagree.bindAlike⟩
  refine contents_eq_of_matches hagree.matching (fun d hd => ?_) (fun e he => ?_) hparts
  · have hmem := mem_of_mem_hashed hp hd
    exact ⟨hp.read d hmem, hp.separable d hmem⟩
  · have hmem := mem_of_mem_hashed hq he
    exact ⟨hq.read e hmem, hq.separable e hmem⟩

end Program

/-! ## Passes over models -/

namespace Config

/-- The requests of a model. -/
def requestsIn (c : Config) (depth : Nat) (m : Model) : List StubRequest :=
  (c.providerOf depth m).requests c.markerSought ((c.providerOf depth m).candidates c.markerSought)

/-- The parts of the fingerprint of a request. -/
def partsIn (c : Config) (depth : Nat) (m : Model) (r : StubRequest) : List String :=
  (c.providerOf depth m).fingerprintParts c.fingerprintParts r

/-- The file of a request. -/
def fileIn (c : Config) (depth : Nat) (m : Model) (r : StubRequest) : StubFile :=
  (c.providerOf depth m).stubFile c.allowSynchronousMembers c.outputExtension r

variable {c : Config} {depth : Nat} {m n : Model} {r s : StubRequest}

/-- **Requests of one name with the same parts have one file**, if what the parts leave out is the same and types are
looked up alike. -/
theorem fileIn_eq (hm : (c.program m).IsHashable) (hn : (c.program n).IsHashable) (hr : r ∈ c.requestsIn depth m)
    (hs : s ∈ c.requestsIn depth n) (hname : r.qualifiedName = s.qualifiedName)
    (hparts : c.partsIn depth m r = c.partsIn depth n s)
    (hagree : (c.program m).AgreesOn (c.program n) c.markerSought r s) : c.fileIn depth m r = c.fileIn depth n s := by
  rw [requestsIn, providerOf, Program.requests_eq hm.numbered] at hr
  rw [requestsIn, providerOf, Program.requests_eq hn.numbered] at hs
  rw [partsIn, partsIn, providerOf, providerOf, Program.fingerprintParts_eq hm.numbered hr,
    Program.fingerprintParts_eq hn.numbered hs, List.append_cancel_left_eq] at hparts
  exact (Program.resembles_of_agreesOn hm hn hr hs hname hagree hparts).stubFile_eq _ _

/-- The files of some models may be used for one another: requests of one name agree wherever they have the same parts,
and the digest tells the parts apart, which have no character zero. -/
structure CanReuse (c : Config) (depth : Nat) (models : List Model) : Prop where
  hashable : ∀ m ∈ models, (c.program m).IsHashable
  agrees : ∀ m ∈ models, ∀ n ∈ models, ∀ r ∈ c.requestsIn depth m, ∀ s ∈ c.requestsIn depth n,
    r.qualifiedName = s.qualifiedName → c.partsIn depth m r = c.partsIn depth n s →
      (c.program m).AgreesOn (c.program n) c.markerSought r s
  noZero : ∀ m ∈ models, ∀ r ∈ c.requestsIn depth m, ∀ part ∈ c.partsIn depth m r, '\x00' ∉ part.toList
  digest : ∀ m ∈ models, ∀ n ∈ models, ∀ r ∈ c.requestsIn depth m, ∀ s ∈ c.requestsIn depth n,
    md5 (partBytes (c.partsIn depth m r)) = md5 (partBytes (c.partsIn depth n s)) →
      partBytes (c.partsIn depth m r) = partBytes (c.partsIn depth n s)

end Config

namespace Config

variable {c : Config} {depth : Nat} {models : List Model}

/-- The passes over some models that are not stopped, the slots of each reached in some order. -/
def passesOver (c : Config) (depth : Nat) (passes : List (Model × (Nat → List Nat))) : List Pass :=
  passes.map fun pass => ⟨c.providerOf depth pass.1, .never, pass.2⟩

/-- The entry of a file that is made for a request of one of some models. -/
def MadeIn (c : Config) (depth : Nat) (models : List Model) (e : CacheEntry) : Prop :=
  ∃ m ∈ models, ∃ r ∈ c.requestsIn depth m, e = .ofFile (c.fileIn depth m r) (fingerprint (c.partsIn depth m r))

/-- What was made for a request of one model serves every request that finds it. -/
theorem CanReuse.serves (h : c.CanReuse depth models) {cache? : Option StubCache} {m : Model} (hm : m ∈ models)
    {r : StubRequest} (hr : r ∈ c.requestsIn depth m) :
    (⟨c, cache?⟩ : Generator).Serves (c.providerOf depth m) (c.MadeIn depth models) r := by
  rintro e ⟨n, hn, s, hs, rfl⟩ hname hfingerprint
  have hbytes := h.digest n hn m hm s hs r hr hfingerprint
  have hparts := partBytes_inj (h.noZero n hn s hs) (h.noZero m hm r hr) hbytes
  exact fileIn_eq (h.hashable n hn) (h.hashable m hm) hs hr hname hparts (h.agrees n hn m hm s hs r hr hname hparts)

/-- **Passes have the files that are made for their requests**, whatever entries of the same models are in the cache. -/
theorem CanReuse.files_run (h : c.CanReuse depth models) : ∀ {passes : List (Model × (Nat → List Nat))}
    {cache? : Option StubCache} {disk : Disk}, (∀ pass ∈ passes, pass.1 ∈ models ∧ IsOrder pass.2) →
      Generator.Holds (c.MadeIn depth models) cache? →
      ((⟨c, cache?⟩ : Generator).run disk (c.passesOver depth passes)).map (·.files) =
        passes.map fun pass => (c.requestsIn depth pass.1).map (c.fileIn depth pass.1)
  | [], _, _, _, _ => rfl
  | (m, order) :: passes, cache?, disk, hpasses, hcache => by
    obtain ⟨⟨hm, horder⟩, hrest⟩ := List.forall_mem_cons.mp hpasses
    have hserves : ∀ r ∈ c.requestsIn depth m,
        (⟨c, cache?⟩ : Generator).Serves (c.providerOf depth m) (c.MadeIn depth models) r := fun r hr => h.serves hm hr
    have hmade : ∀ r ∈ c.requestsIn depth m,
        c.MadeIn depth models (.ofFile (c.fileIn depth m r) (fingerprint (c.partsIn depth m r))) := fun r hr =>
      ⟨m, hm, r, hr, rfl⟩
    have hpass : ((⟨c, cache?⟩ : Generator).generate (c.providerOf depth m) .never order disk).1.files =
          (c.requestsIn depth m).map (c.fileIn depth m) ∧
        Generator.Holds (c.MadeIn depth models)
          ((⟨c, cache?⟩ : Generator).generate (c.providerOf depth m) .never order disk).2.1.cache? :=
      Generator.files_eq horder hcache hserves hmade
    rw [passesOver, List.map_cons, Generator.run, List.map_cons, List.map_cons]
    refine congrArg₂ List.cons hpass.1 ?_
    rw [Generator.generate_eq.2.2.2] at hpass ⊢
    exact h.files_run hrest hpass.2

/-- **Files may be used again**: requests of one name with the same parts have one file, so passes with a cache whose
entries were made for the same models have the files of passes without one. -/
theorem reuse_is_sound (c : Config) (depth : Nat) :
    (∀ m n, (c.program m).IsHashable → (c.program n).IsHashable →
      ∀ r ∈ c.requestsIn depth m, ∀ s ∈ c.requestsIn depth n, r.qualifiedName = s.qualifiedName →
        c.partsIn depth m r = c.partsIn depth n s → (c.program m).AgreesOn (c.program n) c.markerSought r s →
          c.fileIn depth m r = c.fileIn depth n s) ∧
    ∀ models, c.CanReuse depth models →
      ∀ cache : StubCache, (∀ e ∈ cache.entries, c.MadeIn depth models e) →
        ∀ passes : List (Model × (Nat → List Nat)), (∀ pass ∈ passes, pass.1 ∈ models ∧ IsOrder pass.2) →
          ∀ disk disk' : Disk, ((⟨c, some cache⟩ : Generator).run disk (c.passesOver depth passes)).map (·.files) =
            ((⟨c, none⟩ : Generator).run disk' (c.passesOver depth passes)).map (·.files) := by
  refine ⟨fun m n hm hn r hr s hs hname hparts hagree => fileIn_eq hm hn hr hs hname hparts hagree,
    fun models h cache hcache passes hpasses disk disk' => ?_⟩
  have hwith : Generator.Holds (c.MadeIn depth models) (some cache) := fun _ hsome => Option.some.inj hsome ▸ hcache
  have hwithout : Generator.Holds (c.MadeIn depth models) none := fun _ hsome => by cases hsome
  rw [h.files_run hpasses hwith, h.files_run hpasses hwithout]

/-! ## Two models -/

/-- An interface whose method gives back a type with two arguments. -/
def storeInterface : Declaration :=
  { Program.interfaceNamed (some "Shop") "IStore" with
    members := [⟨"Load", .method, false, [],
      some (.named "Data.Result" [.named "int" [] "", .named "string" [] ""] ""), []⟩]
    text := "interface IStore { Data.Result<int, string> Load(); }" }

/-- A class that wants stubs for it. -/
def storeClass : Declaration :=
  { Program.interfaceNamed (some "Shop") "Store" with
    kind := .classType
    attributes := [⟨"AddImplementation", [.named "IStore" [] ""]⟩]
    text := "[AddImplementation<IStore>]\nclass Store { }" }

/-- A class of some type parameters in another namespace. -/
def dataClass (name : String) (typeParameters : List String) : Declaration :=
  { Program.interfaceNamed (some "Data") name with kind := .classType, typeParameters, text := "class" }

/-- A model with further declarations. -/
def storeWith (others : List Declaration) : Model := .ofList ([storeInterface, storeClass] ++ others)

/-- What the class asks for. -/
def storeRequest : StubRequest :=
  ⟨⟨some "Shop", [], "Store", [], .classType, [1]⟩, [.targeting (.named (some "Shop") "IStore" [])]⟩

theorem requestsIn_storeWith : standard.requestsIn 2 (storeWith []) = [storeRequest] ∧
    standard.requestsIn 2 (storeWith [dataClass "Log" []]) = [storeRequest] :=
  ⟨by decide +kernel, by decide +kernel⟩

theorem isHashable_storeWith :
    (standard.program (storeWith [])).IsHashable ∧ (standard.program (storeWith [dataClass "Log" []])).IsHashable := by
  refine ⟨⟨⟨by decide +kernel, by decide +kernel, by decide +kernel⟩, Model.isNumbered_ofList _,
    Program.isRead_of_parse_toText (by decide +kernel), by decide +kernel⟩,
    ⟨⟨by decide +kernel, by decide +kernel, by decide +kernel⟩, Model.isNumbered_ofList _,
      Program.isRead_of_parse_toText (by decide +kernel), by decide +kernel⟩⟩

/-- The models with and without a log. -/
def logged : List Model := [storeWith [], storeWith [dataClass "Log" []]]

theorem requestsIn_logged : ∀ m ∈ logged, standard.requestsIn 2 m = [storeRequest] := by
  simp only [logged, List.forall_mem_cons, List.not_mem_nil, false_imp_iff, implies_true, and_true]
  exact requestsIn_storeWith

theorem partsIn_logged : ∀ m ∈ logged,
    standard.partsIn 2 m storeRequest = standard.partsIn 2 (storeWith []) storeRequest := by
  decide +kernel

theorem canReuse_logged : standard.CanReuse 2 logged where
  hashable := by
    simp only [logged, List.forall_mem_cons, List.not_mem_nil, false_imp_iff, implies_true, and_true]
    exact isHashable_storeWith
  agrees := by
    intro m hm n hn r hr s hs _ _
    rw [requestsIn_logged m hm, List.mem_singleton] at hr
    rw [requestsIn_logged n hn, List.mem_singleton] at hs
    subst hr hs
    revert m n
    decide +kernel
  noZero := by
    intro m hm r hr
    rw [requestsIn_logged m hm, List.mem_singleton] at hr
    subst hr
    rw [partsIn_logged m hm]
    decide +kernel
  digest := by
    intro m hm n hn r hr s hs _
    rw [requestsIn_logged m hm, List.mem_singleton] at hr
    rw [requestsIn_logged n hn, List.mem_singleton] at hs
    subst hr hs
    rw [partsIn_logged m hm, partsIn_logged n hn]

theorem log_reused :
    standard.fileIn 2 (storeWith []) storeRequest = standard.fileIn 2 (storeWith [dataClass "Log" []]) storeRequest ∧
      standard.CanReuse 2 logged ∧
      ((⟨standard, some (.empty 1 none)⟩ : Generator).run ⟨[], []⟩
          (standard.passesOver 2 (logged.map (·, Generator.inOrder)))).map (·.files) =
        ((⟨standard, none⟩ : Generator).run ⟨[], []⟩
          (standard.passesOver 2 (logged.map (·, Generator.inOrder)))).map (·.files) := by
  obtain ⟨hpairs, hruns⟩ := reuse_is_sound standard 2
  obtain ⟨hfirst, hsecond⟩ := requestsIn_storeWith
  have hparts : standard.partsIn 2 (storeWith []) storeRequest =
      standard.partsIn 2 (storeWith [dataClass "Log" []]) storeRequest := by decide +kernel
  refine ⟨hpairs _ _ isHashable_storeWith.1 isHashable_storeWith.2 _ (hfirst ▸ List.mem_singleton_self _) _
    (hsecond ▸ List.mem_singleton_self _) rfl hparts (by decide +kernel), canReuse_logged, ?_⟩
  refine hruns logged canReuse_logged (.empty 1 none) (fun e he => by cases he) _ (fun pass hpass => ?_) _ _
  obtain ⟨m, hm, rfl⟩ := List.mem_map.mp hpass
  exact ⟨hm, isOrder_inOrder⟩

/-! ## What the parts do not tell -/

/-- Requests of two models that have one name and the same parts, and different files. -/
def Confuses (c : Config) (depth : Nat) (m n : Model) : Prop :=
  ∃ r ∈ c.requestsIn depth m, ∃ s ∈ c.requestsIn depth n, r.qualifiedName = s.qualifiedName ∧
    c.partsIn depth m r = c.partsIn depth n s ∧ c.fileIn depth m r ≠ c.fileIn depth n s

/-- Different diagnostics are enough. -/
theorem Confuses.of_diagnostics (h : ∃ r ∈ c.requestsIn depth m, ∃ s ∈ c.requestsIn depth n,
    r.qualifiedName = s.qualifiedName ∧ c.partsIn depth m r = c.partsIn depth n s ∧
      (c.fileIn depth m r).diagnostics ≠ (c.fileIn depth n s).diagnostics) : c.Confuses depth m n := by
  obtain ⟨r, hr, s, hs, hname, hparts, hdiagnostics⟩ := h
  exact ⟨r, hr, s, hs, hname, hparts, fun hfile => hdiagnostics (congrArg StubFile.diagnostics hfile)⟩

/-- So are different texts. -/
theorem Confuses.of_text (h : ∃ r ∈ c.requestsIn depth m, ∃ s ∈ c.requestsIn depth n,
    r.qualifiedName = s.qualifiedName ∧ c.partsIn depth m r = c.partsIn depth n s ∧
      (c.fileIn depth m r).text ≠ (c.fileIn depth n s).text) : c.Confuses depth m n := by
  obtain ⟨r, hr, s, hs, hname, hparts, htext⟩ := h
  exact ⟨r, hr, s, hs, hname, hparts, fun hfile => htext (congrArg StubFile.text hfile)⟩

/-- A class that is marked in some way. -/
def marked (uses : List (List TypeExpr)) : Declaration :=
  { Program.interfaceNamed none "Worker" with
    kind := .classType
    attributes := uses.map (⟨"AddImplementation", ·⟩) }

/-- An interface with a method that gives back a pair. -/
def pairing (name method : String) : Declaration :=
  { Program.interfaceNamed none name with
    members := [⟨method, .method, false, [], some (.named "Pair" [.named "T" [] "", .named "U" [] ""] ""), []⟩] }

/-- A class that wants stubs for a target, behind other declarations. -/
def workerOn (target : TypeExpr) (others : List Declaration) : Model := .ofList (others ++ [marked [[target]]])

/-- A class that wants stubs for an interface that has a base, behind other declarations. -/
def workerBehind (base : String) (usings : List String) (others : List Declaration) : Model :=
  workerOn (.named "IJob" [] "")
    (others ++ [{ Program.interfaceNamed none "IJob" with baseTypes := [.named base [] ""], usings }])

/-- A class that wants stubs for an interface with a method that gives back its type parameters. -/
def workerOnPairs (typeParameters : List String) : Model :=
  workerOn (.named "IJob" [.named "int" [] "", .named "string" [] ""] "") [{ pairing "IJob" "Run" with typeParameters }]

/-- A class that wants stubs for an interface that has its type argument as a base. -/
def workerOnArgument (method : String) : Model :=
  workerOn (.named "IJob" [.named "IBase" [] ""] "") [pairing "IBase" method,
    { Program.interfaceNamed none "IJob" with typeParameters := ["T"], baseTypes := [.named "T" [] ""] }]

/-- A class that wants stubs for itself, in some parts that were read and some that were not. -/
def workerOnItself (read misread : Nat) : Model :=
  .ofList (.replicate read (marked [[.named "Worker" [] ""]]) ++
    .replicate misread { marked [[.named "Worker" [] ""]] with malformed := true })

/-- Models that differ in what stands around a body, or in what a text means. -/
def differentHeads : List (Model × Model) :=
  [(.ofList [marked [[]]], .ofList [{ marked [[]] with kind := .structType }]),
    (.ofList [{ marked [[]] with containers := [⟨"Outer", .classType, []⟩] }],
      .ofList [{ marked [[]] with containers := [⟨"Outer", .structType, []⟩] }]),
    (workerOnPairs ["T", "U"], workerOnPairs ["U", "T"]),
    (workerOnItself 1 2, workerOnItself 2 0),
    (workerOn (.named "IJob" [] "") [{ pairing "IJob" "Run" with text := "interface" }],
      workerOn (.named "IJob" [] "") [{ pairing "IJob" "Stop" with text := "interface" }])]

/-- Models that differ in bases that are not looked for: a class that is a namesake of the base, a base with a dot in
its name, and one that is a type argument. -/
def differentBases : List (Model × Model) :=
  [(workerBehind "IBase" [] [pairing "IBase" "Run"],
      workerBehind "IBase" [] [pairing "IBase" "Run", { Program.interfaceNamed none "IBase" with kind := .classType }]),
    (workerBehind "Old.IBase" [] [pairing "Old.IBase" "Run"], workerBehind "Old.IBase" [] [pairing "Old.IBase" "Stop"]),
    (workerOnArgument "Run", workerOnArgument "Stop")]

/-- Models that differ in where one namespace ends. -/
def differentNamespaces : List (Model × Model) :=
  [(workerBehind "IBase" ["A,B"] [{ pairing "IBase" "Run" with namespaceName? := some "A" }],
      workerBehind "IBase" ["A", "B"] [{ pairing "IBase" "Run" with namespaceName? := some "A" }]),
    (workerBehind "IBase" ["A"] [{ pairing "IBase" "Run" with namespaceName? := some "A|B" },
        { pairing "IBase" "Stop" with namespaceName? := some "A", usings := ["B|"] }],
      workerBehind "IBase" ["A"] [{ pairing "IBase" "Run" with namespaceName? := some "A", usings := ["B|"] },
        { pairing "IBase" "Stop" with namespaceName? := some "A|B" }])]

/-- A class in one part, whose text has a character zero in it. -/
def inOnePart : Model := .ofList [pairing "IJob" "Run",
  { marked [[.named "IJob" [] ""], [.named "IJob" [] ""]] with text := "class\x00||class" }]

/-- The class in two parts. -/
def inTwoParts : Model := .ofList [pairing "IJob" "Run", { marked [[.named "IJob" [] ""]] with text := "class" },
  { marked [[]] with text := "class" }]

/-- **Requests of one name with the same parts may have different files.** The parts do not tell what a name in a body
stands for, nor what stands around the body, which bases an interface has and where one namespace ends; and the bytes of
the parts do not tell where a part ends. -/
theorem parts_confuse :
    standard.Confuses 2 (storeWith []) (storeWith [dataClass "Result" ["T", "E"]]) ∧
      (∀ pair ∈ differentHeads ++ differentBases ++ differentNamespaces, standard.Confuses 2 pair.1 pair.2) ∧
      ∃ r ∈ standard.requestsIn 2 inOnePart, ∃ s ∈ standard.requestsIn 2 inTwoParts,
        r.qualifiedName = s.qualifiedName ∧
          partBytes (standard.partsIn 2 inOnePart r) = partBytes (standard.partsIn 2 inTwoParts s) ∧
          (standard.fileIn 2 inOnePart r).diagnostics ≠ (standard.fileIn 2 inTwoParts s).diagnostics := by
  refine ⟨.of_diagnostics (by decide +kernel), ?_, by decide +kernel⟩
  simp only [differentHeads, differentBases, differentNamespaces, List.cons_append, List.nil_append,
    List.forall_mem_cons, List.not_mem_nil, false_imp_iff, implies_true, and_true]
  refine ⟨.of_text ?_, .of_text ?_, .of_diagnostics ?_, .of_diagnostics ?_, .of_diagnostics ?_, .of_diagnostics ?_,
    .of_diagnostics ?_, .of_diagnostics ?_, .of_diagnostics ?_, .of_diagnostics ?_⟩
  all_goals decide +kernel

end Config

end ContractStubs

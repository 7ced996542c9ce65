import ContractStubs.Proofs.Stub.Contracts

/-!
# The methods of a text

The body of a text is written member by member (`Page.writeMembers_eq`, `Provider.text_of_not_isDegenerate`), and a
member has one method or none (`memberHeader?`).
-/

namespace ContractStubs

/-! ## Pages -/

/-- The header of the method that is written for a member, if there is one. -/
def memberHeader? : Except Diagnostic Signature → Option String
  | .ok s => some s.stubHeader
  | .error d => d.fallbackStub?

/-- The lines before the method. -/
def memberComment : Except Diagnostic Signature → List String
  | .ok _ => []
  | .error d => d.commentLines

/-- The line in the body of the method. -/
def memberBody : Except Diagnostic Signature → String
  | .ok s => s.stubBody
  | .error _ => "return;"

namespace Page

/-- The lines of a method in so many blocks. -/
def methodLines (depth : Nat) (header body : String) : List String :=
  [indented depth header, indented depth "\x7b", indented (depth + 1) body, indented depth "\x7d"]

/-- The lines of a member in so many blocks. -/
def memberLines (depth : Nat) (m : Except Diagnostic Signature) : List String :=
  (memberComment m).map (indented depth) ++
    (memberHeader? m).elim [] fun header => methodLines depth header (memberBody m)

/-- The lines of members in so many blocks, with an empty line between one and the next. -/
def membersLines (depth : Nat) : List (Except Diagnostic Signature) → List String
  | [] => []
  | m :: ms => memberLines depth m ++ ms.flatMap fun m => "" :: memberLines depth m

theorem writeAll_eq : ∀ (texts : List String) (p : Page),
    p.writeAll texts = ⟨p.lines ++ texts.map (indented p.depth), p.depth⟩
  | [], p => by simp [writeAll]
  | text :: texts, p => by
    have h := writeAll_eq texts (p.write text)
    rw [writeAll] at h ⊢
    rw [List.foldl_cons, h]
    simp [write]

theorem writeMethod_eq (p : Page) (header body : String) :
    p.writeMethod header body = ⟨p.lines ++ methodLines p.depth header body, p.depth⟩ := by
  simp [writeMethod, openBlock, closeBlock, write, methodLines]

theorem writeMember_eq (p : Page) (m : Except Diagnostic Signature) :
    p.writeMember m = ⟨p.lines ++ memberLines p.depth m, p.depth⟩ := by
  cases m with
  | ok s =>
    rw [writeMember, writeMethod_eq]
    rfl
  | error d =>
    rw [writeMember, writeAll_eq, memberLines, memberHeader?]
    cases d.fallbackStub? with
    | none => simp [memberComment]
    | some header => simp [writeMethod_eq, memberComment, memberBody]

/-- **The body of a text is written member by member.** -/
theorem writeMembers_eq (p : Page) (ms : List (Except Diagnostic Signature)) :
    p.writeMembers ms = ⟨p.lines ++ membersLines p.depth ms, p.depth⟩ := by
  have hrest : ∀ (ms : List (Except Diagnostic Signature)) (p : Page),
      ms.foldl (fun p m => p.writeBlank.writeMember m) p =
        ⟨p.lines ++ ms.flatMap (fun m => "" :: memberLines p.depth m), p.depth⟩ := by
    intro ms
    induction ms with
    | nil => simp
    | cons m ms ih =>
      intro p
      rw [List.foldl_cons, ih, writeMember_eq]
      simp [writeBlank, write, indented]
  cases ms with
  | nil => simp [writeMembers, membersLines]
  | cons m ms =>
    rw [writeMembers, hrest, writeMember_eq, membersLines]
    simp

end Page

/-! ## Headers -/

variable {allow : Bool} {r : StubRequest}

/-- The header of the method that is written for a member of an interface, if all its types were written. -/
def InterfaceMember.header? (m : InterfaceMember) (allow : Bool) : Option String :=
  match m.signature allow with
  | .ok s => some s.stubHeader
  | .error _ => m.fallbackStub?

theorem memberHeader?_outcome (m : InterfaceMember) (frame : String) :
    memberHeader? (r.framed (m.outcome allow frame)) = m.header? allow := by
  rw [InterfaceMember.outcome, InterfaceMember.header?]
  cases m.signature allow <;> rfl

namespace Provider

variable {p : Provider}

/-- The members that the text for a request is written with. -/
def membersOf (p : Provider) (allow : Bool) (r : StubRequest) : List (Except Diagnostic Signature) :=
  ((p.contractsOf allow r).flatMap (·.members)).map r.framed

/-- The headers of the methods in the text for a request. -/
def headersOf (p : Provider) (allow : Bool) (r : StubRequest) : List String :=
  (p.membersOf allow r).filterMap memberHeader?

/-- Between its first lines and its last ones, a text that is not degenerate consists of its members. -/
theorem text_of_not_isDegenerate {outputExtension : String}
    (h : (p.stubFile allow outputExtension r).isDegenerate = false) :
    ∃ clause, implementsClause r.interfaces = .ok clause ∧
      (p.stubFile allow outputExtension r).text =
        ((Page.closeAll ⟨(r.openType clause).lines ++ Page.membersLines (r.openType clause).depth (p.membersOf allow r),
          (r.openType clause).depth⟩).prepend (headLines (usedNamespaces (p.contractsOf allow r)))).toText := by
  obtain ⟨-, -, clause, hclause, hsource⟩ := stubSource_of_not_isDegenerate h
  refine ⟨clause, hclause, ?_⟩
  rw [stubFile, hsource, StubSource.ofContracts]
  dsimp only
  rw [Page.writeMembers_eq, membersOf]

end Provider

end ContractStubs

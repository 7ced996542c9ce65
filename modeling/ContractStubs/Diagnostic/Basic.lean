import ContractStubs.Text.Cut

/-!
# Diagnostics

Why a type, or a member of an interface, got no stub. A diagnostic ends up as a comment in the generated text, so
nothing in it may end the comment.
-/

namespace ContractStubs

/-- Why no stub can be written. -/
inductive StubError where
  /-- The result is neither awaitable nor allowed. -/
  | notAwaitable (method : String)
  /-- The awaited result has more than one type argument. -/
  | ambiguousResult (method returnType : String)
  /-- No declaration of the interface is known. -/
  | unresolvedInterface (name : String)
  /-- The type is declared and is no interface. -/
  | notAnInterface (name : String)
  /-- The bases of the interface were not searched to the end. This is no answer: a search without end has none. -/
  | unfinished (name : String)
  /-- Two targets cannot stand in one list of base types. -/
  | invalidImplements (reason : String)
  /-- The member cannot be written. -/
  | invalidMember (member reason : String)
  deriving DecidableEq, Repr, Inhabited

/-- The message of a cause. -/
def StubError.message : StubError → String
  | .notAwaitable method => "Method " ++ method ++ " must have a Task return type"
  | .ambiguousResult method returnType =>
    "Method " ++ method ++ " returns " ++ returnType ++ ", which has more than one type argument"
  | .unresolvedInterface name => "Interface " ++ name ++ " could not be resolved"
  | .notAnInterface name => name ++ " is not an interface"
  | .unfinished name => "The bases of " ++ name ++ " do not come to an end"
  | .invalidImplements reason => "Cannot compose implements clause: " ++ reason
  | .invalidMember member reason => "Cannot render member " ++ member ++ ": " ++ reason

/-- What a diagnostic is about. -/
inductive DiagnosticScope where
  | type
  | member (name : String)
  deriving DecidableEq, Repr, Inhabited

/-- Why something got no stub, and where that was found out. -/
structure Diagnostic where
  scope : DiagnosticScope
  message : String
  /-- The steps that led here, innermost first. -/
  trace : List String
  /-- The header of a stub that takes the place of the missing one. -/
  fallbackStub? : Option String
  deriving DecidableEq, Repr, Inhabited

namespace Diagnostic

/-- A diagnostic about a whole type. -/
def ofType (error : StubError) : Diagnostic := ⟨.type, error.message, [], none⟩

/-- A diagnostic about one member. -/
def ofMember (member : String) (error : StubError) : Diagnostic := ⟨.member member, error.message, [], none⟩

/-- The diagnostic with one more step behind the others. -/
def withFrame (d : Diagnostic) (frame : String) : Diagnostic := { d with trace := d.trace ++ [frame] }

/-- The diagnostic is about a whole type. -/
def isTypeLevel (d : Diagnostic) : Bool := d.scope == .type

/-- The message, behind the member's name where there is one. -/
def toText (d : Diagnostic) : String :=
  match d.scope with
  | .type => d.message
  | .member name => name ++ ": " ++ d.message

/-- The text with the steps that led here, innermost first. -/
def tracedText (d : Diagnostic) : String :=
  if d.trace.isEmpty then d.toText else d.toText ++ " (" ++ " ← ".intercalate d.trace ++ ")"

/-- The text with nothing in it that would end a comment. -/
def commentSafe (text : String) : String := String.ofList (sunder '*' '/' ' ' text.toList)

/-- The lines of the comment for a diagnostic. -/
def commentLines (d : Diagnostic) : List String :=
  ["/*"] ++ (textLines d.message).map commentSafe ++ d.trace.map (fun frame => "   at " ++ commentSafe frame) ++ ["*/"]

end Diagnostic

end ContractStubs

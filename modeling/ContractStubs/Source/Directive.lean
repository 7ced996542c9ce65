import ContractStubs.Source.Token
import ContractStubs.Text.Split

/-!
# Directives

Lines that start with a number sign. Those that tell on which condition a passage counts are read as tokens. The others
are notes and end with their line, except that the text of a directive may go on to the next line: behind a backslash,
and also behind a slash, which never stands alone in it.
-/

namespace ContractStubs

namespace Source

/-- What follows the word of a directive. -/
inductive DirectiveKind where
  | branching (mark : Branching)
  /-- Text, which may be left out where it is not required. -/
  | withText (required : Bool)
  /-- Words and numbers. -/
  | withWords
  deriving DecidableEq, Repr, Inhabited

/-- The words of directives. None that stands behind another one starts with it. -/
def directiveWords : List (String × DirectiveKind) :=
  [("if", .branching .onCondition), ("elif", .branching .orCondition), ("else", .branching .otherwise),
   ("endif", .branching .finished), ("region", .withText false), ("endregion", .withText false),
   ("define", .withText true), ("undef", .withText true), ("error", .withText true), ("warning", .withText true)]

/-- A blank within a line. -/
def isInnerGap (c : Char) : Bool := isGap c && c ≠ '\n'

/-- The kind of a directive and its characters up to the end of its word. -/
def directiveHead (cs : List Char) : DirectiveKind × Split :=
  let indent := (cs.drop 1).takeWhile fun c => c = ' ' || c = '\t'
  let written := cs.drop (1 + indent.length)
  match directiveWords.find? fun entry => entry.1.toList.isPrefixOf written with
  | some (word, kind) => (kind, .behind (1 + indent.length + word.length) cs)
  | none => (.withWords, .behind 1 cs)

/-- Up to the end of a comment. -/
def commentEnd : List Char → Split
  | [] => ⟨[], []⟩
  | '*' :: '/' :: cs => ⟨['*', '/'], cs⟩
  | c :: cs => (commentEnd cs).cons c

/-- What a place in the line of a directive is inside of. -/
inductive LineSpot where
  | words
  | quotes
  /-- A comment up to its mark, which may be on another line. -/
  | comment
  /-- A comment up to the end of the line. -/
  | lastComment
  deriving DecidableEq, Repr, Inhabited

/-- Up to the end of the line, not counting line breaks in comments. -/
def lineEnd : LineSpot → List Char → Split
  | _, [] => ⟨[], []⟩
  | .comment, '*' :: '/' :: cs => ((lineEnd .words cs).cons '/').cons '*'
  | .comment, c :: cs => (lineEnd .comment cs).cons c
  | _, '\n' :: cs => ⟨['\n'], cs⟩
  | .words, '/' :: '*' :: cs => ((lineEnd .comment cs).cons '*').cons '/'
  | .words, '/' :: '/' :: cs => ((lineEnd .lastComment cs).cons '/').cons '/'
  | .words, '"' :: cs => (lineEnd .quotes cs).cons '"'
  | .quotes, '"' :: cs => (lineEnd .words cs).cons '"'
  | spot, c :: cs => (lineEnd spot cs).cons c

/-- Up to the end of the text of a directive, behind its first character. -/
def directiveTextEnd : List Char → Split
  | [] => ⟨[], []⟩
  | '\n' :: cs => ⟨[], '\n' :: cs⟩
  | '\\' :: '\n' :: cs => ((directiveTextEnd cs).cons '\n').cons '\\'
  | '\\' :: '\r' :: '\n' :: cs => (((directiveTextEnd cs).cons '\n').cons '\r').cons '\\'
  | '/' :: '*' :: cs => ⟨[], '/' :: '*' :: cs⟩
  | ['/'] => ⟨[], ['/']⟩
  | '/' :: c :: cs => ((directiveTextEnd cs).cons c).cons '/'
  | c :: cs => (directiveTextEnd cs).cons c

/-- Up to the end of the text of a directive, if there is text. A comment is none. -/
def directiveText (cs : List Char) : Split :=
  match cs with
  | '/' :: '/' :: _ | '/' :: '*' :: _ | '\n' :: _ | [] => ⟨[], cs⟩
  | c :: cs => (directiveTextEnd cs).cons c

/-- A directive that is a note, from the end of its word. -/
def directiveRest (kind : DirectiveKind) (cs : List Char) : Split :=
  match kind with
  | .withText required =>
    let gap := Split.behindRun (if required then isGap else isInnerGap) cs
    let text := directiveText gap.rest
    let ending := lineEnd .words text.rest
    ⟨gap.taken ++ text.taken ++ ending.taken, ending.rest⟩
  | _ => lineEnd .words cs

end Source

end ContractStubs

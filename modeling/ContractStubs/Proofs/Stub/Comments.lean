import ContractStubs.Proofs.Samples
import ContractStubs.Proofs.Stub.Slots
import Mathlib.Data.List.Chain

/-!
# Comments

A comment ends where the first ending stands. The comment about a failure has one ending, its last two characters,
whatever stands in its message and in its steps (`Diagnostic.isComment_commentText`); so a degenerate text has nothing
outside of comments but line breaks (`Provider.comments_are_inert`).
-/

namespace ContractStubs

/-- What stands outside of comments, from within a comment or not; nothing if the last comment has no end. -/
def outsideComments? : (inside : Bool) → List Char → Option (List Char)
  | false, [] => some []
  | true, [] => none
  | false, '/' :: '*' :: cs => outsideComments? true cs
  | true, '*' :: '/' :: cs => outsideComments? false cs
  | false, c :: cs => (outsideComments? false cs).map (c :: ·)
  | true, _ :: cs => outsideComments? true cs

/-! ## Characters that end no comment -/

/-- No two neighbours are the ending of a comment. -/
def Unclosed (cs : List Char) : Prop := cs.IsChain fun c d => ¬(c = '*' ∧ d = '/')

namespace Unclosed

variable {c : Char} {cs ds before after : List Char}

theorem cons (hc : c ≠ '*') (h : Unclosed cs) : Unclosed (c :: cs) :=
  List.isChain_cons.mpr ⟨fun _ _ hcd => hc hcd.1, h⟩

/-- A character that occurs in no ending keeps two texts apart. -/
theorem append (hcs : Unclosed cs) (hstar : c ≠ '*') (hslash : c ≠ '/') (hds : Unclosed ds) :
    Unclosed (cs ++ c :: ds) := by
  refine List.isChain_append.mpr ⟨hcs, hds.cons hstar, fun b _ d hd hend => hslash ?_⟩
  rw [← hend.2]
  simpa using hd

theorem of_star_not_mem : ∀ {cs : List Char}, '*' ∉ cs → Unclosed cs
  | [], _ => .nil
  | _ :: _, h => (of_star_not_mem fun hmem => h (List.mem_cons_of_mem _ hmem)).cons fun he =>
    h (he ▸ List.mem_cons_self)

theorem behind (hcs : '*' ∉ cs) (hds : Unclosed ds) : Unclosed (cs ++ ds) := by
  induction cs with
  | nil => exact hds
  | cons c cs ih =>
    obtain ⟨hc, hcs⟩ := not_or.mp (mt List.mem_cons.mpr hcs)
    exact (ih hcs).cons (Ne.symm hc)

theorem not_ending (h : Unclosed (before ++ '*' :: '/' :: after)) : False := by
  have hboth := (List.isChain_append_cons_cons.mp h).2.1
  exact hboth ⟨rfl, rfl⟩

/-- An ending behind characters without one is the only ending. -/
theorem eq_nil_of_eq (h : Unclosed cs) (he : cs ++ ['*', '/'] = before ++ '*' :: '/' :: after) : after = [] := by
  rcases List.eq_nil_or_concat after with hnil | ⟨rest, last, rfl⟩
  · exact hnil
  · have hstar : Unclosed (cs ++ ['*']) := List.isChain_append.mpr ⟨h, .singleton _, by simp⟩
    have hlast : cs ++ ['*'] ++ ['/'] = before ++ '*' :: '/' :: rest ++ [last] := by simpa using he
    rw [List.append_inj_left' hlast rfl] at hstar
    exact hstar.not_ending.elim

/-- A comment goes on up to the ending. -/
theorem outsideComments?_ending : ∀ {cs : List Char} (rest : List Char), Unclosed cs →
    outsideComments? true (cs ++ '*' :: '/' :: rest) = outsideComments? false rest
  | [], _, _ => rfl
  | [c], rest, _ => by
    rw [List.cons_append, outsideComments?]
    · rfl
    · intro ds _ hds
      simp at hds
  | c :: d :: cs, rest, h => by
    obtain ⟨hcd, htail⟩ := List.isChain_cons_cons.mp h
    rw [List.cons_append, outsideComments?]
    · exact outsideComments?_ending rest htail
    · intro ds hc hd
      exact hcd ⟨hc, (List.cons.inj hd).1⟩

end Unclosed

theorem head?_sunder (left right between : Char) : ∀ cs : List Char, (sunder left right between cs).head? = cs.head?
  | [] => rfl
  | [_] => rfl
  | a :: b :: cs => by
    rw [sunder]
    split <;> rfl

/-- Where all endings were sundered there is none. -/
theorem unclosed_sunder : ∀ cs : List Char, Unclosed (sunder '*' '/' ' ' cs)
  | [] => .nil
  | [_] => .singleton _
  | a :: b :: cs => by
    rw [sunder]
    split
    next h =>
      have hb : b = '/' := by simp at h; exact h.2
      have hrest : Unclosed (b :: sunder '*' '/' ' ' cs) := (unclosed_sunder cs).cons (by simp [hb])
      exact List.isChain_cons_cons.mpr ⟨by simp, hrest.cons (by decide)⟩
    next h =>
      refine List.isChain_cons.mpr ⟨fun d hd hend => h ?_, unclosed_sunder (b :: cs)⟩
      rw [head?_sunder] at hd
      simp only [List.head?_cons, Option.mem_def, Option.some.injEq] at hd
      simp [hend.1, hd, hend.2]

theorem unclosed_commentSafe (text : String) : Unclosed (Diagnostic.commentSafe text).toList := by
  rw [Diagnostic.commentSafe, String.toList_ofList]
  exact unclosed_sunder _

/-! ## The comment about a failure -/

/-- Lines behind one another, a line break before each. -/
def brokenLines (texts : List String) : List Char := texts.flatMap fun text => '\n' :: text.toList

theorem toList_intercalate_cons : ∀ (text : String) (texts : List String),
    ("\n".intercalate (text :: texts)).toList = text.toList ++ brokenLines texts
  | text, [] => by simp [brokenLines]
  | text, next :: texts => by
    rw [String.intercalate_cons_cons, String.toList_append, String.toList_append, toList_intercalate_cons next texts]
    simp [brokenLines]

theorem Unclosed.append_brokenLines : ∀ {texts : List String} {cs : List Char}, Unclosed cs →
    (∀ text ∈ texts, Unclosed text.toList) → Unclosed (cs ++ brokenLines texts)
  | [], _, hcs, _ => by simpa [brokenLines] using hcs
  | _ :: _, _, hcs, htexts =>
    hcs.append (by decide) (by decide) ((htexts _ List.mem_cons_self).append_brokenLines fun text htext =>
      htexts text (List.mem_cons_of_mem _ htext))

/-- The spaces before a line in so many blocks. -/
def spaces (depth : Nat) : List Char := List.replicate (4 * depth) ' '

theorem star_not_mem_spaces (depth : Nat) : '*' ∉ spaces depth := by simp [spaces, List.mem_replicate]

theorem outsideComments?_append_spaces (depth : Nat) (rest : List Char) :
    outsideComments? false (spaces depth ++ rest) = (outsideComments? false rest).map (spaces depth ++ ·) := by
  rw [spaces]
  induction 4 * depth with
  | zero => simp
  | succ n ih =>
    rw [List.replicate_succ, List.cons_append, outsideComments?, ih]
    · simp [Function.comp_def]
    · simp

theorem unclosed_indented {text : String} (depth : Nat) (h : Unclosed text.toList) :
    Unclosed (Page.indented depth text).toList := by
  rw [Page.toList_indented]
  split
  next => exact .nil
  next => exact .behind (star_not_mem_spaces depth) h

/-- A text is one comment behind its indentation: it begins a comment and has one ending, its last two characters. -/
structure IsComment (depth : Nat) (text : String) : Prop where
  begins : ∃ rest, text.toList = spaces depth ++ '/' :: '*' :: rest
  ends : ∃ rest, text.toList = rest ++ ['*', '/']
  once : ∀ before after, text.toList = before ++ '*' :: '/' :: after → after = []
  /-- Outside of the comment there is nothing but the indentation, and whatever follows is outside. -/
  outside : ∀ rest, outsideComments? false (text.toList ++ rest) =
    (outsideComments? false rest).map (spaces depth ++ ·)

namespace Diagnostic

variable (d : Diagnostic) (depth : Nat)

/-- The comment about a failure as it is written in so many blocks. -/
def commentText : String := "\n".intercalate (d.commentLines.map (Page.indented depth))

/-- The lines between the first one and the last one. -/
def innerLines : List String :=
  (textLines d.message).map commentSafe ++ d.trace.map fun frame => "   at " ++ commentSafe frame

/-- What stands between the beginning of the comment and its ending. -/
def innerText : List Char := brokenLines (d.innerLines.map (Page.indented depth)) ++ '\n' :: spaces depth

theorem toList_commentText :
    (d.commentText depth).toList = spaces depth ++ '/' :: '*' :: (d.innerText depth ++ ['*', '/']) := by
  have hlines : d.commentLines = "/*" :: (d.innerLines ++ ["*/"]) := by
    rw [commentLines, innerLines]
    simp
  rw [commentText, hlines, List.map_cons, toList_intercalate_cons, innerText]
  simp [Page.toList_indented, brokenLines, spaces]

theorem unclosed_of_mem_innerLines {text : String} (h : text ∈ d.innerLines) : Unclosed text.toList := by
  rcases List.mem_append.mp h with h | h
  · obtain ⟨line, -, rfl⟩ := List.mem_map.mp h
    exact unclosed_commentSafe line
  · obtain ⟨frame, -, rfl⟩ := List.mem_map.mp h
    rw [String.toList_append]
    exact .behind (by decide) (unclosed_commentSafe frame)

theorem unclosed_append_innerText {cs : List Char} (h : Unclosed cs) : Unclosed (cs ++ d.innerText depth) := by
  rw [innerText, ← List.append_assoc]
  refine .append (h.append_brokenLines fun text htext => ?_) (by decide) (by decide)
    (.of_star_not_mem (star_not_mem_spaces depth))
  obtain ⟨line, hline, rfl⟩ := List.mem_map.mp htext
  exact unclosed_indented depth (d.unclosed_of_mem_innerLines hline)

/-- **The comment about a failure is one comment**, whatever its message and its steps are. -/
theorem isComment_commentText : IsComment depth (d.commentText depth) := by
  have htext := d.toList_commentText depth
  refine ⟨⟨_, htext⟩, ⟨spaces depth ++ '/' :: '*' :: d.innerText depth, ?_⟩, fun before after he => ?_, fun rest => ?_⟩
  · rw [htext]
    simp
  · have hbegin : Unclosed (spaces depth ++ '/' :: ('*' :: d.innerText depth)) :=
      .behind (star_not_mem_spaces depth) (.cons (by decide) (d.unclosed_append_innerText depth (.singleton '*')))
    refine hbegin.eq_nil_of_eq (Eq.trans ?_ he)
    rw [htext]
    simp
  · have hinner := Unclosed.outsideComments?_ending rest (d.unclosed_append_innerText depth .nil)
    rw [htext, List.append_assoc, outsideComments?_append_spaces, List.cons_append, List.cons_append, outsideComments?,
      List.append_assoc]
    exact congrArg _ hinner

end Diagnostic

/-! ## Degenerate texts -/

/-- Lines behind one another, a line break after each. -/
def endedLines (texts : List String) : List Char := texts.flatMap fun text => text.toList ++ ['\n']

theorem toList_endedLines : ∀ {texts : List String}, texts ≠ [] →
    ("\n".intercalate texts ++ "\n").toList = endedLines texts
  | [text], _ => by simp [endedLines]
  | text :: next :: texts, _ => by
    have hrest := toList_endedLines (List.cons_ne_nil next texts)
    rw [String.toList_append] at hrest
    rw [String.intercalate_cons_cons, String.toList_append, String.toList_append, String.toList_append,
      List.append_assoc, hrest]
    simp [endedLines]

theorem endedLines_commentLines (d : Diagnostic) :
    endedLines d.commentLines = (d.commentText 0).toList ++ ['\n'] := by
  have hlines : d.commentLines.map (Page.indented 0) = d.commentLines := List.map_id'' Page.indented_zero _
  have hne : d.commentLines ≠ [] := by simp [Diagnostic.commentLines]
  rw [← toList_endedLines hne, String.toList_append, Diagnostic.commentText, hlines]
  rfl

/-- Outside of comments there is the line break behind each and the empty line between one and the next. -/
theorem outsideComments?_endedLines : ∀ (d : Diagnostic) (ds : List Diagnostic),
    outsideComments? false (endedLines ([""].intercalate ((d :: ds).map Diagnostic.commentLines))) =
      some (List.replicate (2 * ds.length + 1) '\n')
  | d, [] => by
    have hcomment : [""].intercalate ([d].map Diagnostic.commentLines) = d.commentLines := by simp
    rw [hcomment, endedLines_commentLines, (d.isComment_commentText 0).outside]
    rfl
  | d, e :: ds => by
    have hcomment : endedLines ([""].intercalate ((d :: e :: ds).map Diagnostic.commentLines)) =
        (d.commentText 0).toList ++ '\n' :: '\n' ::
          endedLines ([""].intercalate ((e :: ds).map Diagnostic.commentLines)) := by
      have hd := endedLines_commentLines d
      rw [endedLines] at hd ⊢
      simp only [List.map_cons, List.intercalate_cons_cons, List.flatMap_append, hd]
      simp [endedLines]
    have hrest := outsideComments?_endedLines e ds
    rw [hcomment, (d.isComment_commentText 0).outside, outsideComments?, outsideComments?, hrest]
    · simp [spaces, ← List.replicate_succ, Nat.mul_add]
    · simp
    · simp

namespace Provider

/-- **Comments are inert.** Wherever the comment about a failure is written, it is one comment, whatever the message and
the steps are. So a degenerate text has nothing outside of comments but line breaks: one behind each comment, and one
for each empty line. -/
theorem comments_are_inert :
    (∀ (d : Diagnostic) (page : Page), ∃ texts, page.writeAll d.commentLines = ⟨page.lines ++ texts, page.depth⟩ ∧
        IsComment page.depth ("\n".intercalate texts)) ∧
      ∀ (p : Provider) (allow : Bool) (outputExtension : String) (r : StubRequest),
        let file := p.stubFile allow outputExtension r
        file.isDegenerate = true → outsideComments? false file.text.toList =
          some (List.replicate (2 * file.diagnostics.length - 1) '\n') := by
  refine ⟨fun d page => ⟨_, Page.writeAll_eq _ _, d.isComment_commentText page.depth⟩, ?_⟩
  intro p allow outputExtension r file hdegenerate
  obtain ⟨ds, hne, hsource⟩ := stubSource_of_isDegenerate hdegenerate
  obtain ⟨d, ds, rfl⟩ := List.exists_cons_of_ne_nil hne
  have htext : file.text = (StubSource.ofFailures (d :: ds)).text := congrArg StubSource.text hsource
  have hdiagnostics : file.diagnostics = d :: ds := congrArg StubSource.diagnostics hsource
  have hlines : [""].intercalate ((d :: ds).map Diagnostic.commentLines) ≠ [] := by
    cases ds <;> simp [Diagnostic.commentLines, List.intercalate_cons_cons]
  rw [htext, hdiagnostics, StubSource.text_ofFailures, toList_endedLines hlines, outsideComments?_endedLines]
  rfl

end Provider

namespace Program

/-- A failure whose message and steps are full of beginnings and endings of comments is one comment all the same; and
where a target is spelled with an ending in it, the text has the ending of its comment and no other. -/
theorem hostile_comments :
    let d : Diagnostic := ⟨.type, "*/**/\n/*/", ["*/\n*/"], none⟩
    let file := ((storing []).provider 3).stubFile false ".g.cs"
      { keeping with uses := [.targeting (.bare .verbatim "IStore*/")] }
    Page.empty.writeAll d.commentLines = ⟨["/*", "* /** /", "/* /", "   at * /\n* /", "*/"], 0⟩ ∧
      IsComment 0 "/*\n* /** /\n/* /\n   at * /\n* /\n*/" ∧
      file.isDegenerate = true ∧ outsideComments? false file.text.toList = some ['\n'] := by
  intro d file
  have hdegenerate : file.isDegenerate = true := by decide +kernel
  obtain ⟨hcomment, hinert⟩ := Provider.comments_are_inert
  have hwritten : Page.empty.writeAll d.commentLines = ⟨["/*", "* /** /", "/* /", "   at * /\n* /", "*/"], 0⟩ := by
    decide +kernel
  refine ⟨hwritten, ?_, hdegenerate, ?_⟩
  · obtain ⟨texts, htexts, his⟩ := hcomment d .empty
    have hsame : texts = ["/*", "* /** /", "/* /", "   at * /\n* /", "*/"] := by
      simpa [Page.empty] using congrArg Page.lines (htexts.symm.trans hwritten)
    have htext : "/*\n* /** /\n/* /\n   at * /\n* /\n*/" = "\n".intercalate texts := by
      rw [hsame]
      decide +kernel
    rw [htext]
    exact his
  · have hone : file.diagnostics.length = 1 := by decide +kernel
    have houtside := hinert _ _ _ _ hdegenerate
    dsimp only at houtside
    rw [hone] at houtside
    exact houtside

end Program

end ContractStubs

import ContractStubs.Layout.Page

/-!
# Blocks inside of blocks

A layout says what goes on a page: lines, and blocks with a header and a layout inside. The page writes it with its own
operations (`Page.writeLayout`), so each block is opened and closed once. The lines that come of it are as follows.

* **Braces** (`Brace.IsClosedIn`): a brace that opens a block is closed by a brace with the same indentation, and all
  lines between are indented deeper. That is so for every block (`Layout.isClosedIn_of_mem_braces`).
* **One closing brace** (`Brace.IsClosedIn.closing_eq`): no other brace closes the block.
* **Nesting** (`Layout.pairwise_nests_braces`): of two blocks the later one lies inside of the other, or behind it.
-/

namespace ContractStubs

/-- What goes on a page, from some line on. -/
inductive Layout where
  /-- Nothing more. -/
  | done
  /-- A line, then the rest. -/
  | line (text : String) (rest : Layout)
  /-- A block with a header, then the rest. -/
  | block (header : String) (inside rest : Layout)
  deriving DecidableEq, Repr, Inhabited

/-- The page with what a layout says. -/
def Page.writeLayout : Layout → Page → Page
  | .done, p => p
  | .line text rest, p => writeLayout rest (p.write text)
  | .block header inside rest, p => writeLayout rest (writeLayout inside (p.openBlock header)).closeBlock

namespace Layout

/-- The lines of a layout in so many blocks. -/
def lines : (depth : Nat) → Layout → List String
  | _, done => []
  | depth, line text rest => Page.indented depth text :: lines depth rest
  | depth, block header inside rest =>
    Page.indented depth header :: Page.indented depth "\x7b" ::
      (lines (depth + 1) inside ++ Page.indented depth "\x7d" :: lines depth rest)

/-- How many lines a layout has. -/
def size : Layout → Nat
  | done => 0
  | line _ rest => rest.size + 1
  | block _ inside rest => inside.size + rest.size + 3

/-- The headers of all blocks, in their order. -/
def headers : Layout → List String
  | done => []
  | line _ rest => rest.headers
  | block header inside rest => header :: (inside.headers ++ rest.headers)

theorem length_lines : ∀ (l : Layout) (depth : Nat), (l.lines depth).length = l.size
  | done, _ => rfl
  | line _ rest, depth => by simp [lines, size, length_lines rest depth]
  | block _ inside rest, depth => by
    simp [lines, size, length_lines inside (depth + 1), length_lines rest depth]
    omega

/-! ## Layouts that are put together -/

/-- A layout, then another one. -/
def append : Layout → Layout → Layout
  | done, m => m
  | line text rest, m => line text (rest.append m)
  | block header inside rest, m => block header inside (rest.append m)

/-- Lines and no blocks. -/
def ofLines : List String → Layout
  | [] => done
  | text :: texts => line text (ofLines texts)

/-- Layouts with an empty line between one and the next. -/
def apart : List Layout → Layout
  | [] => done
  | [l] => l
  | l :: m :: ls => l.append (line "" (apart (m :: ls)))

/-- A layout in blocks, each inside of the one before. -/
def inBlocks (l : Layout) : (headers : List String) → Layout
  | [] => l
  | header :: headers => block header (l.inBlocks headers) done

theorem lines_append (m : Layout) (depth : Nat) : ∀ l : Layout,
    (l.append m).lines depth = l.lines depth ++ m.lines depth
  | done => rfl
  | line _ rest => by simp [append, lines, lines_append m depth rest]
  | block _ _ rest => by simp [append, lines, lines_append m depth rest]

theorem headers_append (m : Layout) : ∀ l : Layout, (l.append m).headers = l.headers ++ m.headers
  | done => rfl
  | line _ rest => by simp [append, headers, headers_append m rest]
  | block _ _ rest => by simp [append, headers, headers_append m rest]

theorem lines_ofLines (depth : Nat) : ∀ texts : List String,
    (ofLines texts).lines depth = texts.map (Page.indented depth)
  | [] => rfl
  | _ :: texts => by simp [ofLines, lines, lines_ofLines depth texts]

theorem headers_ofLines : ∀ texts : List String, (ofLines texts).headers = []
  | [] => rfl
  | _ :: texts => headers_ofLines texts

theorem lines_apart (depth : Nat) : ∀ ls : List Layout,
    (apart ls).lines depth = [""].intercalate (ls.map (lines depth))
  | [] => rfl
  | [l] => by simp [apart]
  | l :: m :: ls => by
    have hrest := lines_apart depth (m :: ls)
    rw [apart, lines_append, lines, hrest]
    simp [List.intercalate_cons_cons, Page.indented]

theorem headers_apart : ∀ ls : List Layout, (apart ls).headers = ls.flatMap headers
  | [] => rfl
  | [l] => by simp [apart]
  | l :: m :: ls => by simp [apart, headers_append, headers, headers_apart (m :: ls)]

theorem headers_inBlocks (l : Layout) : ∀ hs : List String, (l.inBlocks hs).headers = hs ++ l.headers
  | [] => rfl
  | _ :: hs => by simp [inBlocks, headers, headers_inBlocks l hs]

end Layout

/-! ## What a page writes -/

namespace Page

theorem writeLayout_eq : ∀ (l : Layout) (p : Page), p.writeLayout l = ⟨p.lines ++ l.lines p.depth, p.depth⟩
  | .done, p => by simp [writeLayout, Layout.lines]
  | .line _ rest, p => by simp [writeLayout, Layout.lines, write, writeLayout_eq rest]
  | .block _ inside rest, p => by
    simp [writeLayout, Layout.lines, openBlock, closeBlock, write, writeLayout_eq inside, writeLayout_eq rest]

theorem toList_indented (depth : Nat) (text : String) :
    (indented depth text).toList = if text = "" then [] else List.replicate (4 * depth) ' ' ++ text.toList := by
  unfold indented
  split <;> simp

/-- A sign and a line that is indented deeper are different lines. -/
theorem indented_ne {depth depth' : Nat} {sign text : String} {c : Char} (hsign : sign.toList = [c]) (hc : c ≠ ' ')
    (h : depth < depth') : indented depth sign ≠ indented depth' text := by
  intro he
  have hchars := congrArg String.toList he
  have hne : sign ≠ "" := by rintro rfl; simp at hsign
  rw [toList_indented, toList_indented, if_neg hne, hsign] at hchars
  split at hchars
  next => simp at hchars
  next =>
    have hat := congrArg (·[4 * depth]?) hchars
    simp only [List.length_replicate, Nat.le_refl, List.getElem?_append_right, Nat.sub_self] at hat
    rw [List.getElem?_append_left (by simp; omega), List.getElem?_replicate, if_pos (by omega)] at hat
    exact hc (by simpa using hat)

end Page

/-- The lines of a layout are indented at least as deep as it stands. -/
theorem Layout.exists_of_mem_lines {text : String} : ∀ {l : Layout} {depth : Nat}, text ∈ l.lines depth →
    ∃ depth' text', depth ≤ depth' ∧ text = Page.indented depth' text'
  | line text' rest, depth, h => by
    rcases List.mem_cons.mp h with rfl | h
    · exact ⟨depth, text', Nat.le_refl _, rfl⟩
    · exact exists_of_mem_lines h
  | block header inside rest, depth, h => by
    simp only [lines, List.mem_cons, List.mem_append] at h
    rcases h with rfl | rfl | h | rfl | h
    · exact ⟨depth, header, Nat.le_refl _, rfl⟩
    · exact ⟨depth, "\x7b", Nat.le_refl _, rfl⟩
    · obtain ⟨depth', text', hdepth, htext⟩ := exists_of_mem_lines h
      exact ⟨depth', text', by omega, htext⟩
    · exact ⟨depth, "\x7d", Nat.le_refl _, rfl⟩
    · exact exists_of_mem_lines h

/-! ## Braces -/

/-- Where a block stands: its header, with the opening brace on the next line, and the closing brace. -/
structure Brace where
  header : String
  depth : Nat
  start : Nat
  closing : Nat
  deriving DecidableEq, Repr, Inhabited

/-- Where the blocks of a layout stand, if it begins at a line. -/
def Layout.braces : (start depth : Nat) → Layout → List Brace
  | _, _, done => []
  | start, depth, line _ rest => braces (start + 1) depth rest
  | start, depth, block header inside rest =>
    ⟨header, depth, start, start + 2 + inside.size⟩ ::
      (braces (start + 2) (depth + 1) inside ++ braces (start + 3 + inside.size) depth rest)

theorem Layout.map_header_braces : ∀ (l : Layout) (start depth : Nat),
    (l.braces start depth).map (·.header) = l.headers
  | done, _, _ => rfl
  | line _ rest, start, depth => map_header_braces rest (start + 1) depth
  | block _ inside rest, start, depth => by
    simp [braces, headers, map_header_braces inside, map_header_braces rest]

namespace Brace

/-- A block stands among some lines: behind its header it is opened by a brace and closed by one with the same
indentation, and all lines between are indented deeper. -/
structure IsClosedIn (lines : List String) (b : Brace) : Prop where
  header : lines[b.start]? = some (Page.indented b.depth b.header)
  opening : lines[b.start + 1]? = some (Page.indented b.depth "\x7b")
  closing : lines[b.closing]? = some (Page.indented b.depth "\x7d")
  lt : b.start + 1 < b.closing
  inside : ∀ i, b.start + 1 < i → i < b.closing →
    ∃ depth text, b.depth < depth ∧ lines[i]? = some (Page.indented depth text)

variable {lines : List String} {b : Brace}

/-- Inside of a block no line has a sign with the indentation of its braces, or with less. -/
theorem IsClosedIn.lt_depth (h : b.IsClosedIn lines) {i depth : Nat} {sign : String} {c : Char}
    (hsign : sign.toList = [c]) (hc : c ≠ ' ') (hline : lines[i]? = some (Page.indented depth sign))
    (hstart : b.start + 1 < i) (hclosing : i < b.closing) : b.depth < depth := by
  obtain ⟨depth', text, hdepth, htext⟩ := h.inside i hstart hclosing
  have hsame := Option.some.inj (hline.symm.trans htext)
  by_cases hlt : depth < depth'
  · exact absurd hsame (Page.indented_ne hsign hc hlt)
  · omega

/-- **A block is closed by no other brace.** -/
theorem IsClosedIn.closing_eq (h : b.IsClosedIn lines) {closing : Nat}
    (h' : ({ b with closing := closing } : Brace).IsClosedIn lines) : closing = b.closing := by
  rcases Nat.lt_trichotomy closing b.closing with hlt | heq | hlt
  · have hdepth := h.lt_depth (c := '\x7d') (by simp) (by decide) h'.closing h'.lt hlt
    exact absurd hdepth (Nat.lt_irrefl _)
  · exact heq
  · have hdepth := h'.lt_depth (c := '\x7d') (by simp) (by decide) h.closing h.lt hlt
    exact absurd hdepth (Nat.lt_irrefl _)

/-- The second block begins after the first one began; it lies inside of it, or behind it. -/
def Nests (b c : Brace) : Prop := b.start + 1 < c.start ∧ c.closing < b.closing ∨ b.closing < c.start

end Brace

namespace Layout

theorem bounds_of_mem_braces {b : Brace} : ∀ {l : Layout} {start depth : Nat}, b ∈ l.braces start depth →
    start ≤ b.start ∧ b.start + 1 < b.closing ∧ b.closing < start + l.size
  | line _ rest, start, depth, h => by
    have hrest := bounds_of_mem_braces (l := rest) h
    simp only [size]
    omega
  | block header inside rest, start, depth, h => by
    simp only [braces, List.mem_cons, List.mem_append] at h
    simp only [size]
    rcases h with rfl | h | h
    · dsimp only
      omega
    · have hinside := bounds_of_mem_braces h
      omega
    · have hrest := bounds_of_mem_braces h
      omega

/-- **The blocks of a layout nest**: of two blocks the later one lies inside of the other, or behind it. -/
theorem pairwise_nests_braces : ∀ (l : Layout) (start depth : Nat), (l.braces start depth).Pairwise Brace.Nests
  | done, _, _ => .nil
  | line _ rest, start, depth => pairwise_nests_braces rest (start + 1) depth
  | block header inside rest, start, depth => by
    refine .cons (fun c hc => ?_) (List.pairwise_append.mpr
      ⟨pairwise_nests_braces inside _ _, pairwise_nests_braces rest _ _, fun b hb c hc => ?_⟩)
    · rcases List.mem_append.mp hc with hc | hc
      · have hinside := bounds_of_mem_braces hc
        refine .inl ?_
        dsimp only
        omega
      · have hrest := bounds_of_mem_braces hc
        refine .inr ?_
        dsimp only
        omega
    · have hinside := bounds_of_mem_braces hb
      have hrest := bounds_of_mem_braces hc
      exact .inr (by omega)

/-- **Every block of a layout is closed** among the lines that it comes to, whatever stands before and after. -/
theorem isClosedIn_of_mem_braces {b : Brace} : ∀ (l : Layout) (before after : List String) {start depth : Nat},
    before.length = start → b ∈ l.braces start depth → b.IsClosedIn (before ++ l.lines depth ++ after)
  | done, _, _, _, _, _, hb => by cases hb
  | line text rest, before, after, start, depth, hstart, hb => by
    have hrest := isClosedIn_of_mem_braces rest (before ++ [Page.indented depth text]) after (by simp [hstart]) hb
    simpa [lines] using hrest
  | block header inside rest, before, after, start, depth, hstart, hb => by
    subst hstart
    simp only [braces, List.mem_cons, List.mem_append] at hb
    rcases hb with rfl | hb | hb
    · have hsize := length_lines inside (depth + 1)
      refine ⟨by simp [lines], by simp [lines], ?_, by dsimp only; omega, fun i hi hi' => ?_⟩
      · show (before ++ _ ++ after)[before.length + 2 + inside.size]? = _
        rw [List.append_assoc, List.getElem?_append_right (by omega),
          show before.length + 2 + inside.size - before.length = inside.size + 2 by omega]
        simp [lines, hsize]
      · dsimp only at hi hi'
        obtain ⟨k, rfl⟩ := Nat.exists_eq_add_of_lt hi
        have hk : k < (inside.lines (depth + 1)).length := by omega
        obtain ⟨depth', text, hdepth, htext⟩ := exists_of_mem_lines (List.getElem_mem hk)
        refine ⟨depth', text, hdepth, ?_⟩
        rw [List.append_assoc, List.getElem?_append_right (by omega),
          show before.length + 1 + k + 1 - before.length = k + 2 by omega]
        simp [lines, List.getElem?_append_left, hk, htext]
    · have hinside := isClosedIn_of_mem_braces inside
        (before ++ [Page.indented depth header, Page.indented depth "\x7b"])
        (Page.indented depth "\x7d" :: (rest.lines depth ++ after)) (by simp) hb
      simpa [lines] using hinside
    · have hrest := isClosedIn_of_mem_braces rest
        (before ++ Page.indented depth header :: Page.indented depth "\x7b" ::
          (inside.lines (depth + 1) ++ [Page.indented depth "\x7d"])) after (by simp [length_lines]; omega) hb
      simpa [lines] using hrest

end Layout

end ContractStubs

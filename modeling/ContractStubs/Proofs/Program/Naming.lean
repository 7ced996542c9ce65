import ContractStubs.Program.Basic
import ContractStubs.Proofs.Binding.Names
import ContractStubs.Proofs.Marker.Configured
import ContractStubs.Proofs.Marker.Reading

/-!
# Declared names are written as types

What may be declared is said by the characters of a name, what is read as a type by the tokens of a text. Every declared
name is read as itself: its parts between dots are words (`TypeExpr.isDotted_of_isQualifiedIdentifier`), and a dotted
name is a type, with or without type arguments behind it (`TypeExpr.parse_use_of_isDotted`). So a type whose names are
valid can be referred to, and be the argument of a marker (`Program.declared_names_are_read`).
-/

namespace ContractStubs

/-! ## Qualified identifiers -/

theorem isQualifiedIdentifier_of_isIdentifier {text : String} (h : isIdentifier text = true) :
    isQualifiedIdentifier text = true := by
  have hdot : '.' ∉ text.toList := not_mem_of_isIdentifier (by decide +kernel) (by decide) h
  have hnone : ∀ c ∈ text.toList, decide (c = '.') = false := fun c hc =>
    decide_eq_false fun he => hdot (he ▸ hc)
  rw [isQualifiedIdentifier, piecesAt_of_none hnone, List.all_cons, List.all_nil, Bool.and_true]
  exact h

/-- A dot joins two qualified identifiers to one. -/
theorem isQualifiedIdentifier_append {a b : String} :
    isQualifiedIdentifier (a ++ "." ++ b) = (isQualifiedIdentifier a && isQualifiedIdentifier b) := by
  have hchars : (a ++ "." ++ b).toList = a.toList ++ '.' :: b.toList := by simp
  rw [isQualifiedIdentifier, hchars, piecesAt_append (d := '.') (by simp), List.all_append]
  rfl

/-- Identifiers with dots between them are a qualified one. -/
theorem isQualifiedIdentifier_intercalate : ∀ {names : List String}, names ≠ [] →
    (∀ name ∈ names, isIdentifier name = true) → isQualifiedIdentifier (".".intercalate names) = true
  | [name], _, h => by
    rw [String.intercalate_singleton]
    exact isQualifiedIdentifier_of_isIdentifier (h name List.mem_cons_self)
  | name :: next :: names, _, h => by
    obtain ⟨hname, hrest⟩ := List.forall_mem_cons.mp h
    rw [String.intercalate_cons_cons, isQualifiedIdentifier_append, isQualifiedIdentifier_of_isIdentifier hname,
      isQualifiedIdentifier_intercalate (List.cons_ne_nil _ _) hrest, Bool.and_true]

namespace TypeExpr

variable {text inner : String} {args : List TypeExpr}

/-! ## Dotted names -/

theorem dotted_eq_intercalate (first : String) : ∀ rest : List String,
    dotted first rest = ".".intercalate (first :: rest)
  | [] => String.intercalate_singleton.symm
  | w :: rest => by
    have hih : dotted (first ++ "." ++ w) rest = _ := dotted_eq_intercalate (first ++ "." ++ w) rest
    rw [String.intercalate_cons_append] at hih
    rw [String.intercalate_cons_cons]
    exact hih

/-- The parts of a qualified identifier are words. -/
theorem isDotted_of_isQualifiedIdentifier (h : isQualifiedIdentifier text = true) : IsDotted text := by
  have hwords : ∀ w ∈ textPieces (· = '.') text, IsWord w := fun w hw => by
    obtain ⟨piece, hpiece, rfl⟩ := List.mem_map.mp hw
    refine isWord_of_isIdentifier ?_
    rw [isIdentifier, String.toList_ofList]
    exact List.all_eq_true.mp h piece hpiece
  have hjoined := intercalate_textPieces_dot text
  cases hpieces : textPieces (· = '.') text with
  | nil => exact absurd (List.map_eq_nil_iff.mp hpieces) (piecesAt_ne_nil _)
  | cons first rest =>
    rw [hpieces] at hwords hjoined
    obtain ⟨hfirst, hrest⟩ := List.forall_mem_cons.mp hwords
    exact ⟨first, rest, hfirst, hrest, by rw [dotted_eq_intercalate, hjoined]⟩

/-- The tokens of a dotted name are derived from it. -/
theorem derivesName_of_isDotted (h : IsDotted text) : DerivesName (tokens text) text := by
  obtain ⟨first, rest, hfirst, hrest, rfl⟩ := h
  rw [tokens_dotted hfirst hrest]
  suffices hname : ∀ (rest : List String) {ns : List Token} {name : String}, DerivesName ns name →
      DerivesName (ns ++ dotTokens rest) (dotted name rest) from hname rest (.word first)
  intro rest
  induction rest with
  | nil =>
    intro ns name hname
    simpa [dotTokens, dotted] using hname
  | cons w rest ih =>
    intro ns name hname
    simpa [dotTokens, dotted] using ih (hname.dot w)

theorem derivesType_of_isDotted (h : IsDotted text) : DerivesType (tokens text) (.named text [] "") := by
  simpa using DerivesType.plain (derivesName_of_isDotted h) .nil

/-- A dotted name is read as itself. -/
theorem parse_of_isDotted (h : IsDotted text) : parse text = .named text [] "" := by
  rw [parse, ofTokens?_eq_some_iff.mpr (derivesType_of_isDotted h), Option.getD_some]

/-- With type arguments behind it a dotted name is read as the name with these arguments. -/
theorem parse_use_of_isDotted (h : IsDotted text) (hargs : DerivesArgs (tokens inner) args) :
    parse (Marker.use text inner) = .named text args "" := by
  have hname := derivesName_of_isDotted h
  have hlexes : Lexes text.toList (tokens text) := lexes_iff.mpr ⟨rfl, hasGrammarMarks_of_derivesName hname⟩
  have htype := (derivesType_brackets_iff hname).mpr ⟨args, hargs, rfl⟩
  rw [← Marker.tokens_use hlexes, ← ofTokens?_eq_some_iff] at htype
  rw [parse, htype, Option.getD_some]

end TypeExpr

/-! ## Declarations -/

/-- The name and those of the types around it are identifiers. -/
def Declaration.HasValidNames (d : Declaration) : Prop :=
  isIdentifier d.name = true ∧ ∀ c ∈ d.containers, isIdentifier c.name = true

theorem Declaration.HasValidNames.nestedName {d : Declaration} (h : d.HasValidNames) :
    isQualifiedIdentifier d.nestedName = true := by
  refine isQualifiedIdentifier_intercalate (by simp) fun name hname => ?_
  rcases List.mem_append.mp hname with hname | hname
  · obtain ⟨c, hc, rfl⟩ := List.mem_map.mp hname
    exact h.2 c hc
  · exact List.mem_singleton.mp hname ▸ h.1

open TypeExpr

namespace Program

variable {d : Declaration}

/-- The type that a declaration declares is told by the validity of its names, apart from what else it takes. -/
theorem isSome_targetOf?_iff :
    (targetOf? d).isSome ↔ d.malformed = false ∧ d.kind.acceptsMarker = true ∧ d.HasValidNames := by
  rw [targetOf?, Declaration.HasValidNames]
  cases d.malformed <;> cases d.kind.acceptsMarker <;> cases isIdentifier d.name <;> simp

/-- A dotted name as the argument of a marker asks for the type that it denotes. -/
theorem attributeUses_use {m : Marker} {front name text : String} (hm : m.IsNamedBy front name) (h : IsDotted text)
    (b : Binder) (scope : Scope) :
    attributeUses b scope m (.ofText (Marker.use front text)) = [.targeting (b.bind scope (.named text [] ""))] := by
  rw [Attribute.ofText_use hm (.one (derivesType_of_isDotted h)), attributeUses, hm.isMatch]
  rfl

/-- **Every declared name can be written as a type**: it is read as itself, with type arguments or without, and as the
argument of a marker it asks for what it denotes. The names of a declaration, which have to be valid for its type to be
told, make up such a name, behind a namespace too. -/
theorem declared_names_are_read :
    (∀ text, isQualifiedIdentifier text = true →
      parse text = .named text [] "" ∧
        (∀ inner args, DerivesArgs (tokens inner) args → parse (Marker.use text inner) = .named text args "") ∧
        ∀ (m : Marker) front name, m.IsNamedBy front name → ∀ b scope,
          attributeUses b scope m (.ofText (Marker.use front text)) =
            [.targeting (b.bind scope (.named text [] ""))]) ∧
      ∀ d : Declaration,
        ((targetOf? d).isSome ↔ d.malformed = false ∧ d.kind.acceptsMarker = true ∧ d.HasValidNames) ∧
          (d.HasValidNames → isQualifiedIdentifier d.nestedName = true ∧
            ∀ ns, isQualifiedIdentifier ns = true → isQualifiedIdentifier (ns ++ "." ++ d.nestedName) = true) := by
  refine ⟨fun text h => ?_, fun d => ⟨isSome_targetOf?_iff, fun hd => ⟨hd.nestedName, fun ns hns => ?_⟩⟩⟩
  · have hdotted := isDotted_of_isQualifiedIdentifier h
    exact ⟨parse_of_isDotted hdotted, fun _ _ => parse_use_of_isDotted hdotted,
      fun _ _ _ hm b scope => attributeUses_use hm hdotted b scope⟩
  · rw [isQualifiedIdentifier_append, hns, hd.nestedName, Bool.and_true]

/-- A class inside a class that is named like a keyword. -/
def innerWidget : Declaration :=
  ⟨0, .classType, "Widget", some "global", [⟨"@class", .classType, ["T"]⟩], [], [], [], [], [], "", none, false⟩

/-- A name that starts with the word in front of the global namespace, and has a keyword in it. -/
theorem keyword_names_are_read :
    let name := "global.@class.Widget"
    let marker : Marker := .ofName "Implements"
    isQualifiedIdentifier name = true ∧ parse name = .named name [] "" ∧
      DerivesArgs (tokens "int") [.named "int" [] ""] ∧
      parse (Marker.use name "int") = .named name [.named "int" [] ""] "" ∧
      marker.IsNamedBy "Implements" "Implements" ∧
      (∀ b scope, attributeUses b scope marker (.ofText (Marker.use "Implements" name)) =
        [.targeting (b.bind scope (.named name [] ""))]) ∧
      innerWidget.HasValidNames ∧ isQualifiedIdentifier "global" = true ∧
      isQualifiedIdentifier ("global" ++ "." ++ innerWidget.nestedName) = true := by
  intro name marker
  have hname : isQualifiedIdentifier name = true := by decide +kernel
  have hint : tokens "int" = [.word "int"] := by decide +kernel
  have hargs : DerivesArgs (tokens "int") [.named "int" [] ""] := hint ▸ .one (.plain (.word "int") .nil)
  have hmarker : marker.IsNamedBy "Implements" "Implements" :=
    ⟨[], "Implements", lexes_iff.mpr ⟨by decide +kernel, hasGrammarMarks_word _⟩, .word _, .inl (by decide +kernel)⟩
  have hvalid : innerWidget.HasValidNames := ⟨by decide +kernel, by decide +kernel⟩
  have hglobal : isQualifiedIdentifier "global" = true := by decide +kernel
  obtain ⟨hparse, hgeneric, huse⟩ := declared_names_are_read.1 name hname
  exact ⟨hname, hparse, hargs, hgeneric "int" _ hargs, hmarker, huse marker _ _ hmarker, hvalid, hglobal,
    ((declared_names_are_read.2 innerWidget).2 hvalid).2 "global" hglobal⟩

end Program

end ContractStubs

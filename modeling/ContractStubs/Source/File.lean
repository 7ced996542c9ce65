import ContractStubs.Source.Collect
import ContractStubs.Source.SyntaxTree

/-!
# Source files

A model from the texts of source files. The directives for the whole program of any file hold for the declarations of
all files.
-/

namespace ContractStubs

/-- A source text, and where it came from. -/
structure SourceFile where
  path? : Option String
  text : String
  deriving DecidableEq, Repr, Inhabited

/-- What a source file holds. -/
def SourceFile.collected (file : SourceFile) : Collected :=
  collect file.text file.path? (Source.syntaxTree file.text)

/-- What some files hold, file by file. -/
def mergeCollected (files : List Collected) : Collected :=
  let found := files.foldl Collected.append Collected.empty
  { found with declarations := found.declarations.map (Declaration.addUsings found.globalUsings) }

/-- The model of some source files. -/
def Model.ofFiles (files : List SourceFile) : Model :=
  .ofList (mergeCollected (files.map SourceFile.collected)).declarations

end ContractStubs

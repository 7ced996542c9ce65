import ContractStubs.Inspection.Basic
import ContractStubs.Pass.Report

/-!
# Listings

What the commands print for a reader: a report, the texts that would be written, and an inspection. All lines end with a
line break.
-/

namespace ContractStubs

namespace Console

/-- Some lines as a text. -/
def textOfLines (lines : List String) : String := String.join (lines.map (· ++ "\n"))

/-- The line of a number of things. -/
def inParentheses (r : PassReport) : String :=
  " (" ++ toString r.cacheHits ++ " cached, " ++ toString r.dropped ++ " dropped)"

/-- The report on a pass whose files went to a directory. -/
def reportLines (r : PassReport) (sink : DirectorySink) : List String :=
  r.files.flatMap (fun f =>
      (f.statusMark ++ " " ++ f.identifier) :: f.diagnostics.map fun d => "   • " ++ d.tracedText)
    ++ r.emission.refused.map (fun (name, message) => "❌ " ++ name ++ ": " ++ message)
    ++ ["", "📦 " ++ toString r.files.length ++ " units from " ++ toString r.candidates ++ " candidates"
          ++ inParentheses r,
        "   • " ++ toString sink.written.length ++ " written, " ++ toString sink.unchanged.length ++ " unchanged in "
          ++ sink.root]
    ++ (if r.cancelled then ["   • cancelled before all candidates were processed"] else [])

/-- The text of a file below a line with its name. -/
def fileText (f : StubFile) : String := "// ---- " ++ f.identifier ++ " ----\n" ++ f.text

/-- The texts of some files, an empty line between any two. -/
def filesText (files : List StubFile) : String := "\n".intercalate (files.map fileText)

/-- The inspection of an interface. -/
def interfaceLines (i : InterfaceInspection) : List String :=
  ("   " ++ i.interface) :: i.members.map ("      " ++ ·) ++ i.diagnostics.map ("      ⚠️ " ++ ·)

/-- The inspection of a type. -/
def typeLines (t : TypeInspection) : List String :=
  ("🔍 " ++ t.typeName ++ " → " ++ t.identifier)
    :: (if t.interfaces.isEmpty then ["   (no target interfaces)"] else t.interfaces.flatMap interfaceLines)

/-- The inspections of all types. -/
def inspectionLines (ts : List TypeInspection) : List String :=
  if ts.isEmpty then ["No marked types found"] else ts.flatMap typeLines

/-- What is printed when a configuration was written. -/
def createdLines (path : String) : List String :=
  ["✅ Created config: " ++ path, "", "📌 Mark a type to generate its implementation:",
   "   [AddImplementation<IMyService>]", "   public partial class MyService \x7b \x7d"]

/-- What is printed when there is a configuration. -/
def existsLines (path : String) : List String :=
  ["❌ Config already exists at: " ++ path, "   Use --force to overwrite"]

end Console

end ContractStubs

import SchemaPlan.Cases.TestCase
import SchemaPlan.Files.Load

/-!
# Loading test cases

Test cases from files: from one file, or from all files of a directory in the order of their
names.
-/

namespace SchemaPlan

/-- A file of test cases, with the name that reports call it by. -/
structure TestCaseFile where
  path : String
  name : String
  cases : TestCases

/-- Why files of test cases cannot be read. -/
inductive CaseFilesError
  | read (path : String) (cause : PathFault)
  | malformed (path : String) (cause : TextError)
  deriving DecidableEq, Repr

/-- The wording of a fault in a file of test cases. -/
def CaseFilesError.message : CaseFilesError → String
  | read path cause => "failed to read " ++ path ++ ": " ++ cause.message
  | malformed path cause => "invalid testcase yaml in " ++ path ++ ": " ++ cause.message

namespace FileTree

/-- The test cases in one file. -/
def loadCases (t : FileTree) (format : TextFormat) (path : String) :
    Except CaseFilesError TestCases := do
  let text ← (t.readFile path).mapError (.read path)
  (format.testCases text).mapError (.malformed path)

/-- The test cases of all files in a directory, which has to be there. -/
def loadCaseFiles (t : FileTree) (format : TextFormat) (directory : String) :
    Except CaseFilesError (List TestCaseFile) := do
  let children ← (t.list directory).mapError (.read directory)
  (t.visibleFileNames directory children).mapM fun name => do
    let path := joinPath directory name
    return ⟨path, name, ← t.loadCases format path⟩

end FileTree

end SchemaPlan

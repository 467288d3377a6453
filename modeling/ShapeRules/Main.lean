import ShapeRules.CommandLine.Outcome

/-!
The program: reads the files that its arguments ask for, and writes what comes of them.
-/

namespace ShapeRules.CommandLine

/-- The error of a code of the system, which comes with either sign. -/
def errorOfCode? (code : UInt32) : Option FileError :=
  [(2, FileError.missing), (20, .notDirectory), (21, .isDirectory), (36, .nameTooLong)].findSome?
    fun (known, error) => if code = known ∨ code = 0 - known then some error else none

def readFile (path : String) : IO (Except FileError String) := do
  try
    let bytes ← IO.FS.readBinFile path
    match String.fromUTF8? bytes with
    | some text => return .ok text
    | none => return .error .notText
  catch error =>
    let code? :=
      match error with
      | .noFileOrDirectory _ code _ => some code
      | .inappropriateType _ code _ | .invalidArgument _ code _ => some code
      | _ => none
    return .error ((code?.bind errorOfCode?).getD (.other (toString error)))

/-- Answers arguments and gives the code to end with. -/
def execute (arguments : List String) : IO UInt32 := do
  let environment ← IO.getEnv "SHAPE_LINT_CONFIG"
  let paths :=
    match Request.read arguments with
    | some request => request.paths environment
    | none => []
  let contents ← paths.mapM fun path => return (path, ← readFile path)
  let outcome := answer (FileReader.ofContents contents) environment arguments
  IO.print outcome.output
  IO.eprint outcome.errors
  return outcome.code

end ShapeRules.CommandLine

def main (arguments : List String) : IO UInt32 :=
  ShapeRules.CommandLine.execute arguments

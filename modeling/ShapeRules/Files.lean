/-!
Reading files by their paths.
-/

namespace ShapeRules

inductive FileError where
  | missing
  /-- A path leads on behind a file. -/
  | notDirectory
  | isDirectory
  | nameTooLong
  /-- A path holds the character that ends paths. -/
  | endInPath
  | notText
  /-- Any other error, in the words of the system. -/
  | other (message : String)
  deriving DecidableEq, Repr

namespace FileError

/-- The error in the words of the system. -/
def message : FileError → String
  | missing => "No such file or directory (os error 2)"
  | notDirectory => "Not a directory (os error 20)"
  | isDirectory => "Is a directory (os error 21)"
  | nameTooLong => "File name too long (os error 36)"
  | endInPath => "file name contained an unexpected NUL byte"
  | notText => "stream did not contain valid UTF-8"
  | other message => message

end FileError

/-- What reading a file of some path gives. -/
abbrev FileReader : Type := String → Except FileError String

namespace FileReader

/-- The names on the way to a file. Steps that stay in place are left out. -/
def parts (path : String) : List String :=
  (path.splitOn "/").filter fun part => part ≠ "" ∧ part ≠ "."

/-- The number of bytes that a path may have. -/
def longestPath : Nat := 4095

/-- The number of bytes that a name in a path may have. -/
def longestName : Nat := 255

/-- The directory around a directory, given by the names that lead there from the working one.
Outside of that there are only directories without names. -/
def parent : Option (List String) → Option (List String)
  | none | some [] => none
  | some names => some names.dropLast

/-- Walks on from a directory over files that are given by the names on the way to them. -/
def walk (files : List (List String × String)) (here : Option (List String)) :
    List String → Except FileError String
  | [] => .error .isDirectory
  | step :: steps =>
    if step = "" ∨ step = "." then walk files here steps
    else if step = ".." then walk files (parent here) steps
    else if longestName < step.utf8ByteSize then .error .nameTooLong
    else
      match here with
      | none => .error .missing
      | some names =>
        let place := names ++ [step]
        match files.find? fun (path, _) => path = place with
        | some (_, content) => if steps = [] then .ok content else .error .notDirectory
        | none =>
          if files.any fun (path, _) => place.isPrefixOf path then walk files (some place) steps
          else .error .missing

/-- Reads the files of the working directory, given by their names and contents. -/
def ofEntries (entries : List (String × String)) : FileReader := fun path =>
  if '\x00' ∈ path.toList then .error .endInPath
  else if path = "" then .error .missing
  else if longestPath < path.utf8ByteSize then .error .nameTooLong
  else
    walk (entries.map fun (name, content) => (parts name, content))
      (if path.startsWith "/" then none else some []) (path.splitOn "/")

/-- Gives what reading files by their paths gave before. -/
def ofContents (contents : List (String × Except FileError String)) : FileReader := fun path =>
  match contents.find? fun (name, _) => name = path with
  | some (_, content) => content
  | none => .error .missing

/-- What stands behind the last dot of a file's name, unless it starts the name. -/
def extension? (path : String) : Option String :=
  match (parts path).getLast? with
  | none | some ".." => none
  | some name =>
    match name.toList.reverse.span (· ≠ '.') with
    | (_, []) | (_, [_]) => none
    | (reversed, _) => some (String.ofList reversed.reverse)

end FileReader

end ShapeRules

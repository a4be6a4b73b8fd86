/-!
The files that the checker reads.
-/

namespace GrammarLoader.Checker

inductive FileError
  | notFound
  | isDirectory
  | notDirectory
  | nameTooLong
  | notText
  | other (why : String)
  deriving DecidableEq, Repr

def FileError.message : FileError → String
  | notFound => "No such file or directory (os error 2)"
  | isDirectory => "Is a directory (os error 21)"
  | notDirectory => "Not a directory (os error 20)"
  | nameTooLong => "File name too long (os error 36)"
  | notText => "stream did not contain valid UTF-8"
  | other why => why

inductive Place
  | here
  | elsewhere
  | file (bytes : ByteArray)

def maxName : Nat := 255

def maxPath : Nat := 4095

/--
Follows one more name of a path; `files` are those of the directory that paths start from. An empty
name and `.` stay in a directory, `..` leaves it for the one above.
-/
def Place.follow (files : List (String × ByteArray)) (place : Place) (name : String) :
    Except FileError Place :=
  match place with
  | .file _ => .error .notDirectory
  | .elsewhere =>
    if name ∈ ["", ".", ".."] then .ok .elsewhere
    else if maxName < name.utf8ByteSize then .error .nameTooLong
    else .error .notFound
  | .here =>
    if name ∈ ["", "."] then .ok .here
    else if name = ".." then .ok .elsewhere
    else if maxName < name.utf8ByteSize then .error .nameTooLong
    else
      match files.lookup name with
      | some bytes => .ok (.file bytes)
      | none => .error .notFound

structure Files where
  read : String → Except FileError ByteArray

namespace Files

/-- A directory of files by name. A path that begins with `/` starts from another directory. -/
def ofList (files : List (String × ByteArray)) : Files where
  read path := do
    if maxPath < path.utf8ByteSize then throw .nameTooLong
    if path = "" then throw .notFound
    let start := if path.toList.head? = some '/' then Place.elsewhere else .here
    match ← (path.splitOn "/").foldlM (Place.follow files) start with
    | .file bytes => return bytes
    | .here | .elsewhere => throw .isDirectory

def readText (files : Files) (path : String) : Except FileError String := do
  let bytes ← files.read path
  match String.fromUTF8? bytes with
  | some text => .ok text
  | none => .error .notText

end Files
end GrammarLoader.Checker

import WindowLex.Text.Blank

/-! Files by path, as far as opening them for reading can tell. -/
namespace WindowLex

inductive Obstacle where
  | notFound
  | isFolder
  | notFolder
  | longName
  | other (reason : String)
  deriving DecidableEq, Repr

def Obstacle.reason : Obstacle → String
  | notFound => "No such file or directory"
  | isFolder => "Is a directory"
  | notFolder => "Not a directory"
  | longName => "File name too long"
  | other reason => reason

inductive Entry where
  | file (bytes : List UInt8)
  | folder
  | missing (obstacle : Obstacle)
  deriving DecidableEq, Repr

abbrev Files := String → Entry

def pathParts (path : String) : List String := (Text.fields '/' path.toList).map String.ofList

def plainParts (path : String) : List String :=
  (pathParts path).filter fun part => part ≠ "" ∧ part ≠ "."

/-- What an absolute path starts with; two slashes at the front, and no more, are a root of their own. -/
def pathRoot (path : String) : String :=
  match path.toList with
  | '/' :: '/' :: '/' :: _ => "/"
  | '/' :: '/' :: _ => "//"
  | '/' :: _ => "/"
  | _ => ""

def normalPath (path : String) : String :=
  match pathRoot path ++ "/".intercalate (plainParts path) with
  | "" => "."
  | normal => normal

/-- Files and folders below a working folder, by the parts of their paths. The folders on the way to an
entry exist with it. -/
structure FileTree where
  files : List (List String × List UInt8) := []
  folders : List (List String) := []
  deriving DecidableEq, Repr

namespace FileTree

def addFile (t : FileTree) (path : String) (bytes : List UInt8) : FileTree :=
  { t with files := (plainParts path, bytes) :: t.files }

def addFolder (t : FileTree) (path : String) : FileTree :=
  { t with folders := plainParts path :: t.folders }

def isFolder (t : FileTree) (place : List String) : Bool :=
  place.isEmpty || t.folders.any place.isPrefixOf || t.files.any fun file =>
    place.isPrefixOf file.1 && place.length < file.1.length

inductive Place where
  | inside (parts : List String)
  | above (levels : Nat)
  deriving DecidableEq, Repr

def Place.parent : Place → Place
  | inside [] => above 1
  | inside parts => inside parts.dropLast
  | above levels => above (levels + 1)

def walk (t : FileTree) (place : Place) : List String → Entry
  | [] => .folder
  | part :: rest =>
    if part = "" ∨ part = "." then t.walk place rest
    else if part = ".." then t.walk place.parent rest
    else if 255 < part.utf8ByteSize then .missing .longName
    else match place with
      | .above _ => .missing .notFound
      | .inside parts =>
        let here := parts ++ [part]
        match t.files.find? (·.1 = here) with
        | some (_, bytes) => if rest.isEmpty then .file bytes else .missing .notFolder
        | none =>
          if t.isFolder here then t.walk (.inside here) rest else .missing .notFound

def pathLimit : Nat := 4095

def entry (t : FileTree) (path : String) : Entry :=
  if path = "" then .missing .notFound
  else if pathLimit < path.utf8ByteSize then .missing .longName
  else if path.startsWith "/" then t.walk (.above 0) (pathParts path)
  else t.walk (.inside []) (pathParts path)

end FileTree

end WindowLex

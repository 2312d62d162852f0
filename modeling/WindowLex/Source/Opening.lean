import WindowLex.Files
import WindowLex.Source
import WindowLex.Text.CodePoints
import WindowLex.TextFile

/-! Sources over text in memory, over streams and over files. None of them has read anything yet. -/
namespace WindowLex

inductive OpenIssue where
  | badEncoding
  | badPath
  | unwritablePath (path : CodePoints)
  | cannotOpen (path : String) (obstacle : Obstacle)
  | unknownEncoding (name : String)
  | notReadable (typeName : String)
  deriving DecidableEq, Repr

def OpenIssue.message : OpenIssue → String
  | badEncoding => "embedded null character"
  | badPath => "embedded null byte"
  | unwritablePath path => path.unwritable CodePoint.isLone
  | cannotOpen path obstacle => (Diagnostic.cannotOpen path obstacle.reason).text
  | unknownEncoding name => "unknown encoding " ++ Text.quoted name
  | notReadable typeName => "expected a path or a readable text handle, got " ++ typeName

namespace Source

def ofStream (stream : Stream) (width : Width) (name : String := anonymous) : Source where
  name
  width
  stream

def ofText (text : List Char) (width : Width) (name : String := anonymous) : Source :=
  ofStream (.ofText text) width (sourceName (some name) none)

/-- The source of a file. Its encoding is looked up only when the path can be opened; that either of them
holds a null character is found before that. -/
def ofFile (files : Files) (path encoding : String) (width : Width) (name : Option String := none)
    (layer : TextLayer := .standard) : Except OpenIssue Source :=
  if encoding.toList.contains '\x00' then .error .badEncoding
  else if path.toList.contains '\x00' then .error .badPath
  else match files path with
    | .missing obstacle => .error (.cannotOpen path obstacle)
    | .folder => .error (.cannotOpen path .isFolder)
    | .file bytes =>
      match Encoding.named? encoding with
      | none => .error (.unknownEncoding encoding)
      | some encoding =>
        .ok ((ofStream (.ofBytes encoding bytes width.size layer) width
          (sourceName name (some path))).note (.opened path))

end Source

/-- A path as it is given. Surrogates that stand for bytes of a file name are as good as characters of it. -/
inductive GivenPath where
  | name (path : String)
  | unwritable (path : CodePoints) (lone : path.points.any CodePoint.isLone = true)

def Source.ofPath (files : Files) (path : GivenPath) (encoding : String) (width : Width)
    (name : Option String := none) (layer : TextLayer := .standard) : Except OpenIssue Source :=
  match path with
  | .name path => ofFile files path encoding width name layer
  | .unwritable path _ =>
    if encoding.toList.contains '\x00' then .error .badEncoding else .error (.unwritablePath path)

end WindowLex

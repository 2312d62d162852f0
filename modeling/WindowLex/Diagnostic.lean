import WindowLex.Position

/-! Problems with the configuration, the input or the scanned text, and how each is worded. -/
namespace WindowLex

structure Detail where
  message : String
  location : Option Location := none
  hint : Option String := none
  deriving DecidableEq, Repr

def Detail.text (d : Detail) : String :=
  let head := match d.location with
    | some place => place.text ++ ": error: " ++ d.message
    | none => "error: " ++ d.message
  match d.hint with
  | none | some "" => head
  | some hint => head ++ "\nhint: " ++ hint

def Detail.cannotOpen (path reason : String) : Detail where
  message := "cannot open '" ++ path ++ "': " ++ reason
  hint := some "check that the file exists and is readable"

def Detail.readFailed (reason : String) (location : Option Location) : Detail where
  message := "read failed, input truncated: " ++ reason
  location := location

def Detail.unterminatedString (location : Option Location) : Detail where
  message := "unterminated string literal"
  location := location
  hint := some "add closing '\"' to complete the string"

inductive Diagnostic where
  | general (message : String)
  | config (message : String)
  | summary (report : String)
  | located (detail : Detail)
  | source (detail : Detail)
  | cannotOpen (path reason : String)
  | readFailed (reason : String) (location : Option Location := none)
  | lexical (detail : Detail)
  | unterminatedString (location : Option Location)
  deriving DecidableEq, Repr

namespace Diagnostic

inductive Family where
  | general | config | summary | located | source | cannotOpen | readFailed | lexical
  | unterminatedString
  deriving DecidableEq, Repr

def Family.lineage : Family → List Family
  | .general => [.general]
  | .config => [.config, .general]
  | .summary => [.summary, .general]
  | .located => [.located, .general]
  | .source => [.source, .located, .general]
  | .cannotOpen => [.cannotOpen, .source, .located, .general]
  | .readFailed => [.readFailed, .source, .located, .general]
  | .lexical => [.lexical, .located, .general]
  | .unterminatedString => [.unterminatedString, .lexical, .located, .general]

def family : Diagnostic → Family
  | general _ => .general
  | config _ => .config
  | summary _ => .summary
  | located _ => .located
  | source _ => .source
  | cannotOpen _ _ => .cannotOpen
  | readFailed _ _ => .readFailed
  | lexical _ => .lexical
  | unterminatedString _ => .unterminatedString

def detail? : Diagnostic → Option Detail
  | general _ | config _ | summary _ => none
  | located detail | source detail | lexical detail => some detail
  | cannotOpen path reason => some (.cannotOpen path reason)
  | readFailed reason location => some (.readFailed reason location)
  | unterminatedString location => some (.unterminatedString location)

def path? : Diagnostic → Option String
  | cannotOpen path _ => some path
  | _ => none

def reason? : Diagnostic → Option String
  | cannotOpen _ reason | readFailed reason _ => some reason
  | _ => none

def text : Diagnostic → String
  | general message | config message | summary message => message
  | located detail | source detail | lexical detail => detail.text
  | cannotOpen path reason => (Detail.cannotOpen path reason).text
  | readFailed reason location => (Detail.readFailed reason location).text
  | unterminatedString location => (Detail.unterminatedString location).text

end Diagnostic

end WindowLex

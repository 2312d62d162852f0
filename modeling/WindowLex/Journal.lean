import WindowLex.Text.CodePoints
import WindowLex.Token

/-! What happened during a scan, told as records with a level, a channel and a message. -/
namespace WindowLex

inductive Level where
  | debug | info | warning
  deriving DecidableEq, Repr

def Level.name : Level → String
  | debug => "DEBUG"
  | info => "INFO"
  | warning => "WARNING"

inductive Event where
  | opened (path : String)
  | loaded (count : Nat) (sourceName : String)
  | readFailed (sourceName reason : String)
  | closed (sourceName : String)
  | closeFailed (sourceName reason : String)
  | token (token : Token)
  | unterminated (place : Location)
  | finished (sourceName : String) (tokens diagnostics : Nat)
  | ignoredWidth (value : CodePoints)
  | ignoredEncoding (value : String)
  deriving DecidableEq, Repr

abbrev Journal := Array Event

namespace Event

def level : Event → Level
  | loaded _ _ | closed _ | token _ => .debug
  | opened _ | finished _ _ _ => .info
  | readFailed _ _ | closeFailed _ _ | unterminated _ | ignoredWidth _ | ignoredEncoding _ => .warning

def channel : Event → String
  | opened _ | loaded _ _ | readFailed _ _ | closed _ | closeFailed _ _ => "streamlex.source"
  | token _ | unterminated _ | finished _ _ _ => "streamlex.lexer"
  | ignoredWidth _ | ignoredEncoding _ => "streamlex.config"

def message : Event → String
  | opened path => "Opened " ++ path
  | loaded count name => "Loaded " ++ toString count ++ " characters from " ++ name
  | readFailed name reason =>
    "Read from " ++ name ++ " failed, treating as end of input: " ++ reason
  | closed name => "Closed " ++ name
  | closeFailed name reason => "Error closing " ++ name ++ ": " ++ reason
  | token t => t.display
  | unterminated place => "Unterminated string literal at " ++ place.text
  | finished name tokens diagnostics =>
    "Finished scanning " ++ name ++ ": " ++ toString tokens ++ " tokens, "
      ++ toString diagnostics ++ " diagnostics"
  | ignoredWidth value => "Ignoring invalid STREAMLEX_BUFFER_WIDTH=" ++ value.quoted
  | ignoredEncoding value => "Ignoring unknown STREAMLEX_ENCODING=" ++ Text.quoted value

end Event

end WindowLex

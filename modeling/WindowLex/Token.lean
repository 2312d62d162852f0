import WindowLex.Position
import WindowLex.Text.Quoted

/-! Classified pieces of a text. A token owns its data and points back at nothing. -/
namespace WindowLex

inductive Kind where
  | identifier | number | operator | keyword | stringLiteral | comment | parenthesis | bracket
  | brace | semicolon | comma | endOfInput | unknown
  deriving DecidableEq, Repr

namespace Kind

def all : List Kind := [
  identifier, number, operator, keyword, stringLiteral, comment, parenthesis, bracket, brace,
  semicolon, comma, endOfInput, unknown]

def name : Kind → String
  | identifier => "IDENTIFIER"
  | number => "NUMBER"
  | operator => "OPERATOR"
  | keyword => "KEYWORD"
  | stringLiteral => "STRING_LITERAL"
  | comment => "COMMENT"
  | parenthesis => "PARENTHESIS"
  | bracket => "BRACKET"
  | brace => "BRACE"
  | semicolon => "SEMICOLON"
  | comma => "COMMA"
  | endOfInput => "EOF"
  | unknown => "UNKNOWN"

end Kind

structure Token where
  kind : Kind
  lexeme : String
  position : Position
  sourceName : String
  deriving DecidableEq, Repr

namespace Token

def endLexeme : String := "EOF"

def isEnd (t : Token) : Bool := t.kind = .endOfInput

def location (t : Token) : Location := ⟨t.sourceName, t.position⟩

def display (t : Token) : String :=
  "Token(" ++ t.kind.name ++ ", " ++ Text.quoted t.lexeme ++ ", " ++ t.position.text ++ ")"

def row (t : Token) : String :=
  Text.padLeft 8 t.position.text ++ "  " ++ Text.padRight 15 t.kind.name ++ "  "
    ++ Text.quoted t.lexeme

end Token

end WindowLex

import WindowLex.Config
import WindowLex.Lexical

/-! A lexeme: a piece of text with its kind, without a place. -/
namespace WindowLex

structure Lexeme where
  kind : Kind
  /-- Without the quotation marks of a string literal and the slashes of a comment. -/
  text : List Char
  cutOff : Bool := false
  deriving DecidableEq, Repr

namespace Lexeme

def wordKind (c : Config) (text : List Char) : Kind :=
  if c.keywords.contains (String.ofList text) then .keyword else .identifier

def written (l : Lexeme) : List Char :=
  match l.kind with
  | .stringLiteral => '"' :: l.text ++ if l.cutOff then [] else ['"']
  | .comment => '/' :: '/' :: l.text
  | _ => l.text

end Lexeme

end WindowLex

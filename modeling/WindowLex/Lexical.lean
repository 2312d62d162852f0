import WindowLex.Token

/-! The character classes of the language. Letters and digits are those of ASCII. -/
namespace WindowLex.Lexical

def isGap (c : Char) : Bool :=
  c = ' ' || c = '\t' || c = '\n' || c = '\r' || c = '\x0c' || c = '\x0b'

def isWordStart (c : Char) : Bool := c.isAlpha || c = '_'

def isWordPart (c : Char) : Bool := c.isAlphanum || c = '_'

def isNumberPart (c : Char) : Bool := c.isDigit || c = '.'

def punctuation : Char → Kind
  | '(' | ')' => .parenthesis
  | '[' | ']' => .bracket
  | '\x7b' | '\x7d' => .brace
  | ';' => .semicolon
  | ',' => .comma
  | _ => .unknown

end WindowLex.Lexical

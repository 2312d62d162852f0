/-! Places in a text. A scan counts lines and columns from one; a caller may name any place. -/
namespace WindowLex

structure Position where
  line : Int := 1
  column : Int := 1
  deriving DecidableEq, Repr

def Position.next (p : Position) (c : Char) : Position :=
  if c = '\n' then ⟨p.line + 1, 1⟩ else ⟨p.line, p.column + 1⟩

def Position.after (p : Position) (text : List Char) : Position := text.foldl Position.next p

def Position.text (p : Position) : String := toString p.line ++ ":" ++ toString p.column

structure Location where
  sourceName : String
  position : Position
  deriving DecidableEq, Repr

def Location.text (l : Location) : String := l.sourceName ++ ":" ++ l.position.text

end WindowLex

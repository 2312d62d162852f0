import WindowLex.Position

/-! A cursor over a text that is at hand as a whole. Line and column are counted off the characters
before it. -/
namespace WindowLex.Text

structure Cursor where
  text : List Char
  index : Nat := 0
  deriving DecidableEq, Repr

namespace Cursor

def before (c : Cursor) : List Char := c.text.take c.index

def current (c : Cursor) : Option Char := c.text[c.index]?

def peek (c : Cursor) : Option Char := c.text[c.index + 1]?

def advance (c : Cursor) : Option Char × Cursor :=
  match c.current with
  | none => (none, c)
  | some x => (some x, { c with index := c.index + 1 })

def atEnd (c : Cursor) : Bool := c.index = c.text.length

def line (c : Cursor) : Int := 1 + c.before.count '\n'

def column (c : Cursor) : Int := 1 + (c.before.reverse.takeWhile (· ≠ '\n')).length

def position (c : Cursor) : Position := ⟨c.line, c.column⟩

end Cursor

end WindowLex.Text

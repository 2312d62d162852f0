import WindowLex.Text.Decimal
import WindowLex.Text.Numeral
import WindowLex.Text.Quoted

/-! Values of any shape that a caller may offer for a setting, and how messages show them. A value that holds an
integer with more digits than can be written cannot be shown. -/
namespace WindowLex

inductive Offered where
  | nothing
  | truth (value : Bool)
  | integer (value : Int)
  | decimal (value : Text.Decimal)
  | text (value : String)
  | list (items : List Offered)
  | record (fields : List (String × Offered))
  deriving Repr

namespace Offered

mutual

def shown? : Offered → Option String
  | nothing => some "None"
  | truth true => some "True"
  | truth false => some "False"
  | integer value => if value.natAbs < Nat.pow 10 Text.digitLimit then some (toString value) else none
  | decimal value => some value.text
  | text value => some (Text.quoted value)
  | list items => do return "[" ++ ", ".intercalate (← showItems? items) ++ "]"
  | record fields => do return "\x7b" ++ ", ".intercalate (← showFields? fields) ++ "\x7d"

def showItems? : List Offered → Option (List String)
  | [] => some []
  | item :: rest => do return (← item.shown?) :: (← showItems? rest)

def showFields? : List (String × Offered) → Option (List String)
  | [] => some []
  | (name, value) :: rest => do return (Text.quoted name ++ ": " ++ (← value.shown?)) :: (← showFields? rest)

end

def typeName : Offered → String
  | nothing => "NoneType"
  | truth _ => "bool"
  | integer _ => "int"
  | decimal _ => "float"
  | text _ => "str"
  | list _ => "list"
  | record _ => "dict"

end Offered

end WindowLex

import WindowLex.Text.Printable

/-! Text as it is shown in listings and messages: between delimiters, on one line, every character
that is not printable written as an escape. -/
namespace WindowLex.Text

def hexDigit (n : Nat) : Char :=
  if n < 10 then Char.ofNat (0x30 + n) else Char.ofNat (0x57 + n)

def hexDigits : (places n : Nat) → List Char
  | 0, _ => []
  | places + 1, n => hexDigits places (n / 16) ++ [hexDigit (n % 16)]

def delimiter (text : List Char) : Char :=
  if text.contains '\'' && !text.contains '"' then '"' else '\''

def escape (mark c : Char) : List Char :=
  if c = mark ∨ c = '\\' then ['\\', c]
  else if c = '\t' then ['\\', 't']
  else if c = '\n' then ['\\', 'n']
  else if c = '\r' then ['\\', 'r']
  else if isPrintable c then [c]
  else if c.toNat < 0x100 then '\\' :: 'x' :: hexDigits 2 c.toNat
  else if c.toNat < 0x10000 then '\\' :: 'u' :: hexDigits 4 c.toNat
  else '\\' :: 'U' :: hexDigits 8 c.toNat

def quotedChars (text : List Char) : List Char :=
  let mark := delimiter text
  mark :: text.flatMap (escape mark) ++ [mark]

def quoted (text : String) : String := String.ofList (quotedChars text.toList)

def padLeft (width : Nat) (text : String) : String :=
  String.ofList (text.toList.leftpad width ' ')

def padRight (width : Nat) (text : String) : String :=
  String.ofList (text.toList.rightpad width ' ')

end WindowLex.Text

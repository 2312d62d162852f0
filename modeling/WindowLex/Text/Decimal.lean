/-! Numbers with a fraction as decimal digits, and how they are written: digits on both sides of a
point, or one digit before it and a power of ten. -/
namespace WindowLex.Text

inductive Decimal where
  | finite (negative : Bool) (digits : Nat) (exponent : Int)
  | infinite (negative : Bool)
  | undefined
  deriving DecidableEq, Repr

namespace Decimal

def significant (digits : Nat) : List Char :=
  ((Nat.toDigits 10 digits).reverse.dropWhile (· = '0')).reverse

def pointPlace (digits : Nat) (exponent : Int) : Int :=
  if digits = 0 then 0 else (Nat.toDigits 10 digits).length + exponent

def orZero (digits : List Char) : List Char := if digits.isEmpty then ['0'] else digits

def zeros (count : Int) : List Char := List.replicate count.toNat '0'

def plain (digits : List Char) (point : Int) : List Char :=
  let whole := digits.take point.toNat ++ zeros (point - digits.length)
  let fraction := zeros (-point) ++ digits.drop point.toNat
  orZero whole ++ '.' :: orZero fraction

def scaled (digits : List Char) (point : Int) : List Char :=
  let exponent := point - 1
  let fraction := if (digits.drop 1).isEmpty then [] else '.' :: digits.drop 1
  digits.take 1 ++ fraction ++ 'e' :: (if exponent < 0 then '-' else '+') ::
    (Nat.toDigits 10 exponent.natAbs).leftpad 2 '0'

def isPlain (point : Int) : Bool := -4 < point && point ≤ 16

def signed (negative : Bool) (text : List Char) : String :=
  String.ofList (if negative then '-' :: text else text)

def text : Decimal → String
  | finite negative digits exponent =>
    let point := pointPlace digits exponent
    let write := if isPlain point then plain else scaled
    signed negative (write (significant digits) point)
  | infinite negative => signed negative "inf".toList
  | undefined => "nan"

end Decimal

end WindowLex.Text

import WindowLex.Encoding

/-! Strict decoding of bytes that come in portions. Bytes that may yet become a character are kept; malformed
ones are an error of the whole portion in which that shows, and all its text is lost. -/
namespace WindowLex

structure Decoder where
  State : Type
  start : State
  decode : State → List UInt8 → Except String (List Char × State)
  finish : State → Except String (List Char)

/-- Bytes that stand for no character: the first of them, and the first and last position, counted from the
bytes that were kept before the portion. -/
structure Malformed where
  encoding : String
  byte : UInt8
  first : Nat
  last : Nat
  reason : String
  deriving DecidableEq, Repr

def hexByte (b : UInt8) : String :=
  let digits := Nat.toDigits 16 b.toNat
  "0x" ++ String.ofList (digits.leftpad 2 '0')

def Malformed.message (m : Malformed) : String :=
  let span :=
    if m.first = m.last then "byte " ++ hexByte m.byte ++ " in position " ++ toString m.first
    else "bytes in position " ++ toString m.first ++ "-" ++ toString m.last
  "'" ++ m.encoding ++ "' codec can't decode " ++ span ++ ": " ++ m.reason

namespace Encoding

namespace Utf8

/-- A character of which some bytes have come: the first byte, how many came, the bits so far and the
ranges of the bytes still owed. -/
structure Pending where
  byte : UInt8
  seen : Nat
  bits : Nat
  next : Nat × Nat
  later : List (Nat × Nat)
  deriving DecidableEq, Repr

def trail : Nat × Nat := (0x80, 0xBF)

/-- The state after a first byte above ASCII. The second byte is restricted where the character would
be overlong, a surrogate or beyond the last code point. -/
def lead? (b : UInt8) : Option Pending :=
  let n := b.toNat
  if n < 0xC2 then none
  else if n < 0xE0 then some ⟨b, 1, n % 32, trail, []⟩
  else if n = 0xE0 then some ⟨b, 1, n % 16, (0xA0, 0xBF), [trail]⟩
  else if n = 0xED then some ⟨b, 1, n % 16, (0x80, 0x9F), [trail]⟩
  else if n < 0xF0 then some ⟨b, 1, n % 16, trail, [trail]⟩
  else if n = 0xF0 then some ⟨b, 1, n % 8, (0x90, 0xBF), [trail, trail]⟩
  else if n < 0xF4 then some ⟨b, 1, n % 8, trail, [trail, trail]⟩
  else if n = 0xF4 then some ⟨b, 1, n % 8, (0x80, 0x8F), [trail, trail]⟩
  else none

def Pending.malformed (p : Pending) (first : Nat) (reason : String) : Malformed :=
  ⟨"utf-8", p.byte, first, first + p.seen - 1, reason⟩

def wrongContinuation : String := "invalid continuation byte"

def Pending.startsSurrogate (p : Pending) (b : UInt8) : Bool :=
  p.byte = 0xED && p.seen = 1 && 0xA0 ≤ b && b ≤ 0xBF

inductive State where
  | between
  | inside (pending : Pending)
  /-- Two bytes of a surrogate, which are refused only when the next one comes. -/
  | surrogate
  deriving DecidableEq, Repr

def State.kept : State → Nat
  | between => 0
  | inside p => p.seen
  | surrogate => 2

def surrogateAt (first : Nat) : Malformed := ⟨"utf-8", 0xED, first, first, wrongContinuation⟩

def step (position : Nat) (state : State) (b : UInt8) : Except Malformed (Option Char × State) :=
  match state with
  | .between =>
    if b.toNat < 0x80 then .ok (some (Char.ofNat b.toNat), .between)
    else match lead? b with
      | none => .error ⟨"utf-8", b, position, position, "invalid start byte"⟩
      | some p => .ok (none, .inside p)
  | .inside p =>
    if p.next.1 ≤ b.toNat ∧ b.toNat ≤ p.next.2 then
      let bits := p.bits * 64 + b.toNat % 64
      match p.later with
      | [] => .ok (some (Char.ofNat bits), .between)
      | next :: later => .ok (none, .inside ⟨p.byte, p.seen + 1, bits, next, later⟩)
    else if p.startsSurrogate b then .ok (none, .surrogate)
    else .error (p.malformed (position - p.seen) wrongContinuation)
  | .surrogate => .error (surrogateAt (position - 2))

def decodeFrom (position : Nat) (state : State) (text : List Char) :
    List UInt8 → Except Malformed (List Char × State)
  | [] => .ok (text.reverse, state)
  | b :: rest =>
    match step position state b with
    | .error malformed => .error malformed
    | .ok (c, state) => decodeFrom (position + 1) state (c.toList ++ text) rest

def finish : State → Except Malformed (List Char)
  | .between => .ok []
  | .inside p => .error (p.malformed 0 "unexpected end of data")
  | .surrogate => .error (surrogateAt 0)

def decoder : Decoder where
  State := State
  start := .between
  decode state bytes := (decodeFrom state.kept state [] bytes).mapError Malformed.message
  finish state := (finish state).mapError Malformed.message

inductive MarkedState where
  | front (bytes : List UInt8)
  | behind (state : State)
  deriving DecidableEq, Repr

def mark : List UInt8 := [0xEF, 0xBB, 0xBF]

def decodeMarked : MarkedState → List UInt8 → Except Malformed (List Char × MarkedState)
  | .front kept, bytes =>
    let bytes := kept ++ bytes
    if bytes.length < mark.length ∧ bytes.isPrefixOf mark then .ok ([], .front bytes)
    else
      let bytes := if mark.isPrefixOf bytes then bytes.drop mark.length else bytes
      (decodeFrom 0 .between [] bytes).map fun (text, state) => (text, .behind state)
  | .behind state, bytes =>
    (decodeFrom state.kept state [] bytes).map fun (text, state) => (text, .behind state)

def markedDecoder : Decoder where
  State := MarkedState
  start := .front []
  decode state bytes := (decodeMarked state bytes).mapError Malformed.message
  finish
    | .front _ => .ok []
    | .behind state => (finish state).mapError Malformed.message

end Utf8

namespace Utf16

def codec : String := "utf-16-le"

def isHigh (unit : Nat) : Bool := 0xD800 ≤ unit && unit < 0xDC00

def isLow (unit : Nat) : Bool := 0xDC00 ≤ unit && unit < 0xE000

def unit (low high : UInt8) : Nat := low.toNat + 256 * high.toNat

/-- Yields the bytes to keep along with the text. -/
def decodeFrom (position : Nat) (text : List Char) :
    List UInt8 → Except Malformed (List Char × List UInt8)
  | [] => .ok (text.reverse, [])
  | [b] => .ok (text.reverse, [b])
  | low :: high :: rest =>
    let first := unit low high
    if isLow first then .error ⟨codec, low, position, position + 1, "illegal encoding"⟩
    else if isHigh first then
      match rest with
      | low' :: high' :: rest =>
        let second := unit low' high'
        if isLow second then
          let code := 0x10000 + (first - 0xD800) * 0x400 + (second - 0xDC00)
          decodeFrom (position + 4) (Char.ofNat code :: text) rest
        else .error ⟨codec, low, position, position + 1, "illegal UTF-16 surrogate"⟩
      | short => .ok (text.reverse, low :: high :: short)
    else decodeFrom (position + 2) (Char.ofNat first :: text) rest

def finish : List UInt8 → Except Malformed (List Char)
  | [] => .ok []
  | [b] => .error ⟨codec, b, 0, 0, "truncated data"⟩
  | low :: rest => .error ⟨codec, low, 0, rest.length, "unexpected end of data"⟩

def decoder : Decoder where
  State := List UInt8
  start := []
  decode kept bytes := (decodeFrom 0 [] (kept ++ bytes)).mapError Malformed.message
  finish kept := (finish kept).mapError Malformed.message

end Utf16

def decodeAscii (bytes : List UInt8) : Except Malformed (List Char) :=
  match bytes.findIdx? (0x80 ≤ ·) with
  | none => .ok (bytes.map fun b => Char.ofNat b.toNat)
  | some i => .error ⟨"ascii", bytes.getD i 0, i, i, "ordinal not in range(128)"⟩

end Encoding

def Decoder.ofPortions (decode : List UInt8 → Except String (List Char)) : Decoder where
  State := Unit
  start := ()
  decode _ bytes := (decode bytes).map (·, ())
  finish _ := .ok []

def Encoding.decoder (foreign : String → Decoder) : Encoding → Decoder
  | utf8 => Utf8.decoder
  | utf8Marked => Utf8.markedDecoder
  | utf16le => Utf16.decoder
  | ascii => .ofPortions fun bytes => (decodeAscii bytes).mapError Malformed.message
  | latin1 => .ofPortions fun bytes => .ok (bytes.map fun b => Char.ofNat b.toNat)
  | .foreign codec => foreign codec

end WindowLex

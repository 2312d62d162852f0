import WindowLex.Config.Width
import WindowLex.Encoding.Decoder
import WindowLex.Stream
import WindowLex.Text.LineEnding
import WindowLex.Text.Quoted

/-! The bytes of a text file as a stream of characters with unified line ends. Bytes are read and decoded in
portions, each when the characters that have come of the ones before it do not suffice. -/
namespace WindowLex

def Decoder.absent (codec : String) : Decoder :=
  .ofPortions fun _ => .error ("no decoder for " ++ Text.quoted codec)

structure TextLayer where
  /-- How many bytes are read next when so many characters are missing, and the last portion, of so many bytes,
  made so many characters. -/
  portion : (bytes chars missing : Nat) → Nat
  portionPositive : ∀ bytes chars missing, 0 < portion bytes chars missing
  foreign : String → Decoder

def TextLayer.standard : TextLayer where
  portion bytes chars missing := max 8192 (max missing (bytes * missing / chars))
  portionPositive _ _ _ := Nat.lt_of_lt_of_le (by decide) (Nat.le_max_left ..)
  foreign := .absent

def Text.endsInReturn (text : List Char) : Bool := text.getLast? = some '\r'

def Text.withoutLastReturn (text : List Char) : List Char :=
  if endsInReturn text then text.dropLast else text

structure Reading (d : Decoder) where
  state : d.State := d.start
  /-- A carriage return has come to which a line feed may yet belong. -/
  returned : Bool := false
  given : Nat := 0
  /-- The size of the last portion, and of the text that came of it. -/
  bytes : Nat := 0
  chars : Nat := 0

namespace Reading

variable {d : Decoder}

def kept (r : Reading d) : List Char := if r.returned then ['\r'] else []

def take (r : Reading d) (portion : List UInt8) : Except String (List Char × Reading d) := do
  let (text, state) ← d.decode r.state portion
  let text := r.kept ++ text
  let piece := Text.unifyLineEnds (Text.withoutLastReturn text)
  return (piece, {
    state
    returned := Text.endsInReturn text
    given := r.given + piece.length
    bytes := portion.length
    chars := piece.length })

def finish (r : Reading d) : Except String (List Char) := do
  let text ← d.finish r.state
  return Text.unifyLineEnds (r.kept ++ text)

/-- All text that comes before the end of a file or a portion that cannot be decoded, if windows of this width
are filled one after another: what the one at hand lacks follows from how much has been given. -/
def textFrom (layer : TextLayer) (width : Nat) (r : Reading d) (bytes : List UInt8) :
    List Char × Option String :=
  match bytes with
  | [] =>
    match r.finish with
    | .ok text => (text, none)
    | .error message => ([], some message)
  | b :: rest =>
    let size := layer.portion r.bytes r.chars (width - r.given % width)
    match r.take ((b :: rest).take size) with
    | .error message => ([], some message)
    | .ok (piece, next) =>
      let later := next.textFrom layer width ((b :: rest).drop size)
      (piece ++ later.1, later.2)
  termination_by bytes.length
  decreasing_by
    rw [List.length_drop]
    exact Nat.sub_lt (Nat.succ_pos _) (layer.portionPositive ..)

end Reading

def Encoding.textFrom (e : Encoding) (layer : TextLayer) (bytes : List UInt8) (width : Nat) :
    List Char × Option String :=
  ({} : Reading (e.decoder layer.foreign)).textFrom layer width bytes

/-- The text of a file, for a source with windows of this width. A request that the text before a portion that
cannot be decoded does not serve in full fails. -/
def Stream.ofBytes (encoding : Encoding) (bytes : List UInt8) (width : Nat := Width.standard.size)
    (layer : TextLayer := .standard) : Stream where
  script := match encoding.textFrom layer bytes width with
    | (text, none) => [.piece text]
    | (text, some message) => [.guarded text ⟨.badValue, message⟩]
  limit := some sizeLimit

end WindowLex

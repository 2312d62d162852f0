import WindowLex.Config.Width
import WindowLex.Diagnostic
import WindowLex.Journal
import WindowLex.Stream

/-! A character source that holds at most two windows of its stream. The cursor walks the active window
while the standby window holds what follows, so the character after the cursor is known without a read.
When the cursor leaves a full window the standby window becomes active, and the next stretch of the
stream is read into the other. Every operation yields its answer, or the fault that escaped from it,
together with the source after it. -/
namespace WindowLex

structure Source where
  name : String
  width : Width
  stream : Stream
  active : Array Char := #[]
  standby : Array Char := #[]
  offset : Nat := 0
  exhausted : Bool := false
  closed : Bool := false
  position : Position := {}
  readError : Option Diagnostic := none
  journal : Journal := #[]
  deriving DecidableEq, Repr

def anonymous : String := "<input>"

def sourceName (asked own : Option String) : String :=
  match asked with
  | none | some "" => own.getD anonymous
  | some name => name

namespace Source

def note (s : Source) (e : Event) : Source := { s with journal := s.journal.push e }

def current (s : Source) : Option Char := s.active[s.offset]?

def peek (s : Source) : Option Char :=
  if s.offset + 1 = s.active.size ∧ s.active.size = s.width.size then s.standby[0]?
  else s.active[s.offset + 1]?

def atEnd (s : Source) : Bool := s.current.isNone

def location (s : Source) : Location := ⟨s.name, s.position⟩

def cutBy (s : Source) : Option Fault → Source
  | none => s
  | some fault => note { s with
      readError := some (.readFailed (s.name ++ ": " ++ fault.message)), exhausted := true }
      (.readFailed s.name fault.message)

def loaded (s : Source) (count : Nat) : Source :=
  note { s with exhausted := s.exhausted || count < s.width.size } (.loaded count s.name)

def fill (s : Source) : Except Fault (Array Char) × Source :=
  if s.exhausted || s.closed then (.ok #[], s)
  else match s.stream.gather s.width.size [] with
    | (.error fault, stream) => (.error fault, { s with stream })
    | (.ok (text, cut), stream) =>
      (.ok text.toArray, ({ s with stream }.cutBy cut).loaded text.length)

def prime (s : Source) : Except Fault Unit × Source :=
  match s.fill with
  | (.error fault, s) => (.error fault, s)
  | (.ok active, s) =>
    match { s with active }.fill with
    | (.error fault, s) => (.error fault, s)
    | (.ok standby, s) => (.ok (), { s with standby })

/-- Makes the standby window active and fills the other. A fault that escapes leaves the spent text in
the window that was to be filled. -/
def swap (s : Source) : Except Fault Unit × Source :=
  match { s with active := s.standby, standby := s.active, offset := 0 }.fill with
  | (.error fault, s) => (.error fault, s)
  | (.ok standby, s) => (.ok (), { s with standby })

def pass (s : Source) (c : Char) : Source :=
  { s with position := s.position.next c, offset := s.offset + 1 }

/-- The cursor stands behind a full window. A window of any other length is never left. -/
def isSpent (s : Source) : Bool := s.active.size ≤ s.offset && s.active.size = s.width.size

def advance (s : Source) : Except Fault (Option Char) × Source :=
  match s.current with
  | none => (.ok none, s)
  | some c =>
    if (s.pass c).isSpent then
      match (s.pass c).swap with
      | (.error fault, s) => (.error fault, s)
      | (.ok _, s) => (.ok (some c), s)
    else (.ok (some c), s.pass c)

def close (s : Source) : Source :=
  if s.closed then s
  else
    let (failure, stream) := s.stream.close
    let s := { s with
      stream, active := #[], standby := #[], offset := 0, exhausted := true, closed := true }
    s.note (match failure with
      | none => .closed s.name
      | some reason => .closeFailed s.name reason)

def remaining (s : Source) : Nat := (s.active.size - s.offset) + s.standby.size + s.stream.size

end Source

end WindowLex

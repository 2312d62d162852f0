/-! Character streams as scripts. A stream answers each request for at most so many characters with the
next reply of its script, and keeps count of what was asked of it. Any stream looks like this to one
run, which asks finitely often. -/
namespace WindowLex

inductive FaultKind where
  | system | notFound | denied | badValue | tooLarge | other
  deriving DecidableEq, Repr

structure Fault where
  kind : FaultKind
  message : String
  deriving DecidableEq, Repr

/-- The faults that end the input. All others escape to the caller. -/
def Fault.endsInput (f : Fault) : Bool :=
  match f.kind with
  | .system | .notFound | .denied | .badValue => true
  | .tooLarge | .other => false

/-- The largest size that can be asked of a text or a file. -/
def sizeLimit : Nat := Nat.pow 2 63 - 1

def Fault.sizeLimit : Fault := ⟨.tooLarge, "cannot fit 'int' into an index-sized integer"⟩

inductive Reply where
  | piece (text : List Char)
  | whole (text : List Char)
  | nothing
  | failure (fault : Fault)
  /-- Serves requests in full as long as it can. The first other request fails, and the rest of the
  text is lost with it. -/
  | guarded (text : List Char) (fault : Fault)
  deriving DecidableEq, Repr

def Reply.size : Reply → Nat
  | piece text | whole text | guarded text _ => text.length
  | nothing | failure _ => 0

def Reply.sizeOfAll : List Reply → Nat
  | [] => 0
  | r :: rest => r.size + sizeOfAll rest

structure Stream where
  script : List Reply
  portion : Option Nat := none
  limit : Option Nat := none
  closeFailure : Option String := none
  asked : Array Nat := #[]
  closings : Nat := 0
  deriving DecidableEq, Repr

namespace Stream

def ofText (text : List Char) : Stream where
  script := [.piece text]
  limit := some sizeLimit

def size (s : Stream) : Nat := Reply.sizeOfAll s.script

def answer (portion : Option Nat) (size : Nat) : List Reply → Except Fault (List Char) × List Reply
  | [] => (.ok [], [])
  | .piece text :: rest =>
    match text.splitAt ((portion.map (min size)).getD size) with
    | (given, []) => (.ok given, rest)
    | (given, left) => (.ok given, .piece left :: rest)
  | .whole text :: rest => (.ok text, rest)
  | .nothing :: rest => (.ok [], rest)
  | .failure fault :: rest => (.error fault, rest)
  | .guarded text fault :: rest =>
    if (text.take size).length = size then
      (.ok (text.take size), .guarded (text.drop size) fault :: rest)
    else (.error fault, rest)

def tooLarge (s : Stream) (size : Nat) : Bool := s.limit.any (· < size)

def read (s : Stream) (size : Nat) : Except Fault (List Char) × Stream :=
  let asked := { s with asked := s.asked.push size }
  if s.tooLarge size then (.error .sizeLimit, asked)
  else
    let (given, script) := answer s.portion size s.script
    (given, { asked with script })

def close (s : Stream) : Option String × Stream :=
  (s.closeFailure, { s with closings := s.closings + 1 })

theorem answerSize {portion size script given left}
    (h : answer portion size script = (.ok given, left)) :
    given.length + Reply.sizeOfAll left = Reply.sizeOfAll script := by
  unfold answer at h
  split at h
  · cases h; rfl
  · split at h <;> rename_i split <;> cases h <;>
      obtain ⟨rfl, left⟩ := Prod.mk.injEq .. |>.mp ((List.splitAt_eq ..).symm.trans split)
    · have short := congrArg List.length left
      simp only [List.length_drop, List.length_nil] at short
      simp only [Reply.sizeOfAll, Reply.size, List.length_take]
      omega
    · subst left
      simp only [Reply.sizeOfAll, Reply.size, List.length_take, List.length_drop]
      omega
  · cases h; rfl
  · cases h; simp [Reply.sizeOfAll, Reply.size]
  · cases h
  · split at h <;> cases h
    rename_i full
    simp only [Reply.sizeOfAll, Reply.size, List.length_take, List.length_drop]
    omega

theorem readSize {s : Stream} {n given s'} (h : s.read n = (.ok given, s')) :
    given.length + s'.size = s.size := by
  unfold read at h
  split at h
  · cases h
  · simp only [Prod.mk.injEq] at h
    obtain ⟨hgiven, rfl⟩ := h
    exact answerSize (Prod.ext hgiven rfl)

/-- Asks again until `needed` characters came, nothing came or a request failed. Yields the characters
and the fault that ended the input; a fault that escapes loses the characters. -/
def gather (s : Stream) (needed : Nat) (got : List Char) :
    Except Fault (List Char × Option Fault) × Stream :=
  if needed = 0 then (.ok (got, none), s)
  else match s.read needed with
    | (.ok [], s) => (.ok (got, none), s)
    | (.ok (c :: piece), s) => s.gather (needed - (piece.length + 1)) (got ++ c :: piece)
    | (.error fault, s) => if fault.endsInput then (.ok (got, some fault), s) else (.error fault, s)
  termination_by needed

theorem answerFailureSize {portion size script fault left}
    (h : answer portion size script = (.error fault, left)) :
    Reply.sizeOfAll left ≤ Reply.sizeOfAll script := by
  unfold answer at h
  split at h
  · cases h
  · split at h <;> cases h
  · cases h
  · cases h
  · cases h; exact Nat.le_add_left ..
  · split at h <;> cases h
    exact Nat.le_add_left ..

theorem readFailureSize {s : Stream} {n fault s'} (h : s.read n = (.error fault, s')) :
    s'.size ≤ s.size := by
  unfold read at h
  split at h
  · cases h; exact Nat.le_refl _
  · simp only [Prod.mk.injEq] at h
    obtain ⟨failed, rfl⟩ := h
    exact answerFailureSize (Prod.ext failed rfl)

theorem gatherSize {s : Stream} {needed got text cut s'}
    (h : s.gather needed got = (.ok (text, cut), s')) :
    text.length + s'.size ≤ got.length + s.size := by
  fun_induction gather s needed got with
  | case1 => cases h; exact Nat.le_refl _
  | case2 s needed got _ s'' answered =>
    cases h
    have := readSize answered
    simp only [List.length_nil] at this; omega
  | case3 s needed got _ c piece s'' answered ih =>
    have := readSize answered
    have := ih h
    simp only [List.length_append, List.length_cons] at *; omega
  | case4 s needed got _ fault s'' answered ends =>
    cases h
    have := readFailureSize answered; omega
  | case5 => cases h

end Stream

end WindowLex

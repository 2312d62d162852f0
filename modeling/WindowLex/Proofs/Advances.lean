import WindowLex.Proofs.Requests
import WindowLex.Proofs.Windows
import WindowLex.Source.Scan

/-! Advances over any stream, by a caller who goes on when a fault has escaped. A character that comes from
the stream is held in a window until the cursor passes it. A fault leaves a spent window to be walked again,
and so adds a window to what is held, but it uses up a reply of the stream. -/
namespace WindowLex.Source

structure Supplied (s : Source) (text : Array Char) (t : Source) : Prop where
  kept : s.Kept t
  closed : t.closed = s.closed
  drew : s.stream.Drew s.width.size text.toList t.stream
  short : s.closed = false → text.size < s.width.size → t.exhausted = true
  done : s.exhausted = true → text = #[]

structure Starved (s : Source) (t : Source) : Prop where
  stream : t = { s with stream := t.stream }
  goes : s.exhausted = false
  lost : ∃ text, s.stream.Lost s.width.size text t.stream

variable {s t u : Source} {c : Char} {fault : Fault}

theorem fillSupplied {text : Array Char} (filled : s.fill = (.ok text, t)) : s.Supplied text t := by
  unfold fill at filled
  split at filled
  · rename_i stops
    cases filled
    have none : s.stream.Drew s.width.size [] s.stream := ⟨.nothing, fun moderate => ⟨by simp, moderate⟩⟩
    refine ⟨⟨rfl, rfl, rfl, rfl, rfl, rfl⟩, rfl, none, fun opened _ => ?_, fun _ => rfl⟩
    simpa [opened] using stops
  · rename_i goes
    split at filled
    · cases filled
    · rename_i given cut stream gathered
      cases filled
      obtain ⟨_, rfl, drew⟩ := Stream.gatherDrew gathered
      have streamed := s.gatheredStream stream cut given.length
      refine ⟨s.gatheredKept stream cut given.length, streamed.2, streamed.1.symm ▸ drew, fun _ short => ?_,
        fun done => ?_⟩
      · have less : given.length < s.width.size := by simpa using short
        have exhausted := s.gatheredExhausted stream cut given.length
        rw [decide_eq_true less, Bool.or_true] at exhausted
        exact exhausted
      · simp [done] at goes

theorem fillStarved (escaped : s.fill = (.error fault, t)) : s.Starved t := by
  unfold fill at escaped
  split at escaped
  · cases escaped
  · rename_i goes
    have more : s.exhausted = false := by
      rw [Bool.or_eq_true, not_or] at goes
      exact Bool.eq_false_iff.mpr goes.1
    split at escaped
    · rename_i gathered
      cases escaped
      exact ⟨rfl, more, Stream.gatherLost gathered⟩
    · cases escaped

theorem fillAllowed {text : Array Char} (more : s.exhausted = false) (opened : s.closed = false)
    (filled : s.fill = (.ok text, t)) : s.stream.tooLarge s.width.size = false := by
  refine Bool.eq_false_iff.mpr fun large => ?_
  obtain ⟨stream, gathers⟩ := Stream.gatherTooLarge s.width.sizePositive large []
  simp [fill, more, opened, gathers] at filled

inductive Stepped (s : Source) (c : Char) : Except Fault (Option Char) → Source → Prop where
  | within (more : s.offset + 1 = s.active.size → s.active.size ≠ s.width.size) :
      Stepped s c (.ok (some c)) (s.pass c)
  | turned {text : Array Char} {t : Source} (last : s.offset + 1 = s.active.size)
      (full : s.active.size = s.width.size) (filled : (s.pass c).turned.fill = (.ok text, t)) :
      Stepped s c (.ok (some c)) { t with standby := text }
  | fell {fault : Fault} {t : Source} (last : s.offset + 1 = s.active.size)
      (full : s.active.size = s.width.size) (filled : (s.pass c).turned.fill = (.error fault, t)) :
      Stepped s c (.error fault) t

inductive Advanced (s : Source) (c : Char) : Except Fault (Option Char) → Source → Prop where
  | within (more : s.offset + 1 = s.active.size → s.active.size ≠ s.width.size) :
      Advanced s c (.ok (some c)) (s.pass c)
  | turned {text : Array Char} {t : Source} (last : s.offset + 1 = s.active.size)
      (full : s.active.size = s.width.size) (supplied : (s.pass c).turned.Supplied text t) :
      Advanced s c (.ok (some c)) { t with standby := text }
  | fell {fault : Fault} {t : Source} (last : s.offset + 1 = s.active.size)
      (full : s.active.size = s.width.size) (starved : (s.pass c).turned.Starved t) : Advanced s c (.error fault) t

theorem currentInside (here : s.current = some c) : s.offset < s.active.size :=
  (Array.getElem?_eq_some_iff.mp here).1

theorem passedRest (here : s.current = some c) :
    s.active.toList.drop s.offset = c :: s.active.toList.drop (s.offset + 1) := by
  obtain ⟨inside, found⟩ := Array.getElem?_eq_some_iff.mp here
  rw [List.drop_eq_getElem_cons (by simpa using inside)]
  simp [found]

theorem advanceStays (done : s.current = none) : s.advance = (.ok none, s) := by
  simp only [advance, done]

theorem swapStarved (escaped : s.turned.fill = (.error fault, t)) : s.swap = (.error fault, t) := by
  unfold turned at escaped
  simp only [swap, escaped]

theorem advanceStepped {answer : Except Fault (Option Char)} (here : s.current = some c)
    (advanced : s.advance = (answer, t)) : s.Stepped c answer t := by
  simp only [advance, here] at advanced
  by_cases spent : (s.pass c).isSpent
  · obtain ⟨behind, full⟩ := Bool.and_eq_true_iff.mp spent
    have last : s.offset + 1 = s.active.size := Nat.le_antisymm (currentInside here) (of_decide_eq_true behind)
    have whole : s.active.size = s.width.size := of_decide_eq_true full
    rcases filled : (s.pass c).turned.fill with ⟨fault | text, u⟩
    · rw [if_pos spent, swapStarved filled] at advanced
      cases advanced
      exact .fell last whole filled
    · rw [if_pos spent, swapFilled filled] at advanced
      cases advanced
      exact .turned last whole filled
  · rw [if_neg spent] at advanced
    cases advanced
    refine .within fun last full => spent ?_
    simp [isSpent, pass, last, full]

theorem advanceCases {answer : Except Fault (Option Char)} (here : s.current = some c)
    (advanced : s.advance = (answer, t)) : s.Advanced c answer t := by
  cases advanceStepped here advanced with
  | within more => exact .within more
  | turned last full filled => exact .turned last full (fillSupplied filled)
  | fell last full filled => exact .fell last full (fillStarved filled)

theorem turnedSupplied {text : Array Char} (supplied : (s.pass c).turned.Supplied text t) :
    t.active = s.standby ∧ t.offset = 0 ∧ t.width = s.width :=
  ⟨supplied.kept.active, supplied.kept.offset, supplied.kept.width⟩

theorem turnedStarved (starved : (s.pass c).turned.Starved t) :
    t.active = s.standby ∧ t.standby = s.active ∧ t.offset = 0 ∧ t.width = s.width := by
  rw [starved.stream]
  exact ⟨rfl, rfl, rfl, rfl⟩

/- The windows, whatever the stream does. No swap is due, what follows a window that is not full is empty, and
a closed source holds nothing. -/
structure Framed (s : Source) : Prop where
  inside : s.offset ≤ s.active.size
  unspent : s.offset = s.active.size → s.active.size ≠ s.width.size
  last : s.active.size < s.width.size → s.standby = #[]
  short : s.standby.size < s.width.size → s.exhausted = true
  emptied : s.closed = true → s.active = #[] ∧ s.standby = #[]

theorem framedOpen (framed : s.Framed) (inside : s.offset < s.active.size) : s.closed = false := by
  refine Bool.eq_false_iff.mpr fun closed => ?_
  rw [(framed.emptied closed).1] at inside
  exact absurd inside (Nat.not_lt_zero _)

theorem advancedFramed {answer : Except Fault (Option Char)} (framed : s.Framed)
    (inside : s.offset < s.active.size) (advanced : s.Advanced c answer t) : t.Framed := by
  have positive := s.width.sizePositive
  have opened := framedOpen framed inside
  cases advanced with
  | within more => exact { framed with inside := inside, unspent := more }
  | @turned text t last full supplied =>
    obtain ⟨active, offset, width⟩ := turnedSupplied supplied
    have short : text.size < s.width.size → t.exhausted = true := supplied.short opened
    have closed : t.closed = false := supplied.closed.trans opened
    exact {
      inside := by simp [offset]
      unspent := by simp only [offset, active, width]; omega
      last := by
        simp only [active, width]
        exact fun less => supplied.done (framed.short less)
      short := by simpa only [width] using short
      emptied := by simp [closed] }
  | @fell fault t last full starved =>
    obtain ⟨active, standby, offset, width⟩ := turnedStarved starved
    have more : s.exhausted = false := starved.goes
    have closed : t.closed = false := by rw [starved.stream]; exact opened
    exact {
      inside := by simp [offset]
      unspent := by simp only [offset, active, width]; omega
      last := by
        simp only [active, width]
        exact fun less => absurd (framed.short less) (by simp [more])
      short := by simp only [standby, width]; omega
      emptied := by simp [closed] }

theorem advanceFramed {answer : Except Fault (Option Char)} (framed : s.Framed)
    (advanced : s.advance = (answer, t)) : t.Framed := by
  cases here : s.current with
  | none =>
    rw [advanceStays here] at advanced
    cases advanced
    exact framed
  | some c => exact advancedFramed framed (currentInside here) (advanceCases here advanced)

theorem closeOpen (opened : s.closed = false) : ∃ event, s.close = { s with
    stream := s.stream.close.2, active := #[], standby := #[], offset := 0, exhausted := true, closed := true
    journal := s.journal.push event } := by
  rw [close, if_neg (by simp [opened])]
  exact ⟨_, rfl⟩

theorem closeClosed (closed : s.closed = true) : s.close = s := by
  rw [close, if_pos closed]

theorem closeFramed (framed : s.Framed) : s.close.Framed := by
  cases closed : s.closed with
  | true => rwa [closeClosed closed]
  | false =>
    obtain ⟨event, same⟩ := closeOpen closed
    rw [same]
    exact {
      inside := Nat.le_refl 0
      unspent := fun _ => Nat.ne_of_lt s.width.sizePositive
      last := fun _ => rfl
      short := fun _ => rfl
      emptied := fun _ => ⟨rfl, rfl⟩ }

def raisedBy {α : Type} : Except Fault α → Nat
  | .ok _ => 0
  | .error _ => 1

def held (s : Source) : Nat := s.active.size - s.offset + s.standby.size

structure Settled (s : Source) (consumed raised : Nat) (t : Source) : Prop where
  width : t.width = s.width
  came : ∃ text, s.stream.Gave text t.stream ∧
    consumed + t.held ≤ s.held + text.length + raised * s.width.size
  used : s.stream.tooLarge s.width.size = false →
    raised + t.stream.script.length ≤ s.stream.script.length

theorem settledAllowed {consumed raised : Nat} (settled : s.Settled consumed raised t)
    (allowed : s.stream.tooLarge s.width.size = false) : t.stream.tooLarge t.width.size = false := by
  obtain ⟨text, gave, _⟩ := settled.came
  rwa [Stream.tooLarge, (Stream.gaveKept gave).2.1, settled.width]

theorem settledOn {first second before behind : Nat} (left : s.Settled first before t)
    (right : t.Settled second behind u) : s.Settled (first + second) (before + behind) u := by
  obtain ⟨one, gave, less⟩ := left.came
  obtain ⟨other, gaveToo, lessToo⟩ := right.came
  have width := left.width
  refine ⟨right.width.trans width, ⟨one ++ other, Stream.gaveOn gave gaveToo, ?_⟩, fun allowed => ?_⟩
  · rw [width] at lessToo
    rw [List.length_append, Nat.add_mul]; omega
  · have := left.used allowed
    have := right.used (settledAllowed left allowed)
    omega

theorem advancedSettled {answer : Except Fault (Option Char)} (inside : s.offset < s.active.size)
    (advanced : s.Advanced c answer t) :
    s.Settled 1 (raisedBy answer) t := by
  cases advanced with
  | within more =>
    refine ⟨rfl, ⟨[], .nothing, ?_⟩, fun _ => Nat.le_of_eq (Nat.zero_add _)⟩
    simp only [held, pass, List.length_nil]; omega
  | @turned text t last full supplied =>
    obtain ⟨active, offset, width⟩ := turnedSupplied supplied
    refine ⟨width, ⟨_, supplied.drew.gave, ?_⟩, fun _ => ?_⟩
    · simp only [raisedBy, held, active, offset, Array.length_toList]; omega
    · rw [raisedBy, Nat.zero_add]
      exact (Stream.gaveKept supplied.drew.gave).2.2
  | @fell fault t last full starved =>
    obtain ⟨active, standby, offset, width⟩ := turnedStarved starved
    obtain ⟨text, lost⟩ := starved.lost
    refine ⟨width, ⟨text, lost.gave, ?_⟩, fun allowed => ?_⟩
    · simp only [raisedBy, held, active, standby, offset]; omega
    · have used : t.stream.script.length < s.stream.script.length := lost.used allowed
      rw [raisedBy]; omega

/- Advances one after another: the characters consumed, those included behind which a fault escaped, and how
many faults did. What is noted in between does not matter. -/
inductive Walked : Source → List Char → Nat → Source → Prop where
  | stay {s : Source} : Walked s [] 0 s
  | on {s t u : Source} {c : Char} {answer text raised} (here : s.current = some c)
      (advanced : s.advance = (answer, t)) (rest : Walked t text raised u) :
      Walked s (c :: text) (raisedBy answer + raised) u
  | noted {s t : Source} {event text raised} (rest : Walked (s.note event) text raised t) :
      Walked s text raised t

theorem walkedOn {first second : List Char} {before behind : Nat} (left : s.Walked first before t)
    (right : t.Walked second behind u) : s.Walked (first ++ second) (before + behind) u := by
  induction left with
  | stay => rwa [Nat.zero_add]
  | on here advanced rest ih =>
    rw [Nat.add_assoc]
    exact .on here advanced (ih right)
  | noted rest ih => exact .noted (ih right)

theorem walkedSettled {text : List Char} {raised : Nat} (walk : s.Walked text raised t) :
    s.Settled text.length raised t := by
  induction walk with
  | stay => exact ⟨rfl, ⟨[], .nothing, by simp⟩, fun _ => by simp⟩
  | on here advanced rest ih =>
    have first := advancedSettled (currentInside here) (advanceCases here advanced)
    rw [List.length_cons, Nat.add_comm _ 1]
    exact settledOn first ih
  | noted rest ih => exact ⟨ih.width, ih.came, ih.used⟩

/- How long a caller can still go on, faults of the stream included. -/
def burden (s : Source) : Nat := s.remaining + s.stream.script.length * s.width.size

theorem settledBurden {consumed raised : Nat} (settled : s.Settled consumed raised t)
    (allowed : s.stream.tooLarge s.width.size = false) : consumed + t.burden ≤ s.burden := by
  obtain ⟨text, gave, less⟩ := settled.came
  have size := Stream.gaveSize gave
  have used := Nat.mul_le_mul_right s.width.size (settled.used allowed)
  rw [Nat.add_mul] at used
  rw [burden, burden, settled.width, remaining, remaining, ← held, ← held]; omega

theorem walkedLess {text : List Char} {raised : Nat} (walk : s.Walked text raised t) (some : text ≠ [])
    (allowed : s.stream.tooLarge s.width.size = false) :
    t.burden < s.burden ∧ t.stream.tooLarge t.width.size = false := by
  have settled := walkedSettled walk
  have less := settledBurden settled allowed
  have positive := List.length_pos_iff.mpr some
  exact ⟨by omega, settledAllowed settled allowed⟩

theorem primeFilled (primed : s.prime = (.ok (), t)) : ∃ u v, s.fill = (.ok t.active, u) ∧
    Source.fill { u with active := t.active } = (.ok t.standby, v) ∧ t = { v with standby := t.standby } := by
  unfold prime at primed
  split at primed
  · cases primed
  · rename_i active u filled
    split at primed
    · cases primed
    · rename_i standby v filledToo
      cases primed
      have same : v.active = active := (fillSupplied filledToo).kept.active
      exact ⟨u, v, by rw [same]; exact filled, by rw [same]; exact filledToo, rfl⟩

structure Unmoved (s : Source) : Prop where
  start : s.offset = 0
  opened : s.closed = false

theorem primedFramed (unmoved : s.Unmoved) (primed : s.prime = (.ok (), t)) : t.Framed := by
  obtain ⟨u, v, filled, filledToo, rest⟩ := primeFilled primed
  have first := fillSupplied filled
  have second := fillSupplied filledToo
  have uWidth : u.width = t.width := by rw [rest]; exact second.kept.width.symm
  have sWidth : s.width = t.width := first.kept.width.symm.trans uWidth
  have start : t.offset = 0 := by
    rw [rest]
    exact second.kept.offset.trans (first.kept.offset.trans unmoved.start)
  have closed : t.closed = false := by
    rw [rest]
    exact second.closed.trans (first.closed.trans unmoved.opened)
  have firstShort : t.active.size < s.width.size → u.exhausted = true := first.short unmoved.opened
  have secondShort : t.standby.size < u.width.size → v.exhausted = true :=
    second.short (first.closed.trans unmoved.opened)
  have empty : u.exhausted = true → t.standby = #[] := second.done
  have positive := t.width.sizePositive
  exact {
    inside := by simp [start]
    unspent := by rw [start]; omega
    last := fun less => empty (firstShort (by rwa [sWidth]))
    short := fun less => by
      rw [rest]
      exact secondShort (by rwa [uWidth])
    emptied := by simp [closed] }

structure Opened (stream : Stream) (width : Width) (s : Source) : Prop where
  gave : stream.Gave (s.active.toList ++ s.standby.toList) s.stream
  start : s.offset = 0
  width : s.width = width
  allowed : s.stream.tooLarge s.width.size = false

theorem primedOpened {stream : Stream} {width : Width} {name : String}
    (primed : (ofStream stream width name).prime = (.ok (), t)) : Opened stream width t := by
  obtain ⟨u, v, filled, filledToo, rest⟩ := primeFilled primed
  have first := fillSupplied filled
  have second := fillSupplied filledToo
  have stream : t.stream = v.stream := by rw [rest]
  have start : t.offset = v.offset := by rw [rest]
  have wide : t.width = width := by
    rw [rest]
    exact second.kept.width.trans first.kept.width
  have gave := Stream.gaveOn first.drew.gave second.drew.gave
  have limit := (Stream.gaveKept gave).2.1
  have allowed := fillAllowed rfl rfl filled
  refine ⟨stream ▸ gave, start.trans (second.kept.offset.trans first.kept.offset), wide, ?_⟩
  rwa [Stream.tooLarge, stream, limit, wide]

end WindowLex.Source

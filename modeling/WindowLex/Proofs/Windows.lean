import WindowLex.Proofs.Delivery
import WindowLex.Source.Opening
import WindowLex.Source.Walk

/-! The windows of an open source over a stream that honours sizes. The text ahead of the cursor is the
rest of the active window, the standby window and what the stream still delivers. Filling and swapping
windows leave it as it is, and each operation is told from it alone. -/
namespace WindowLex.Source

structure Ready (s : Source) : Prop where
  honest : s.stream.HonoursSizes
  allowed : s.stream.tooLarge s.width.size = false
  opened : s.closed = false
  whole : s.exhausted = false → s.readError = none

/- No swap is due, and a window that is not full is the last one. -/
structure Sound (s : Source) : Prop extends Ready s where
  inside : s.offset ≤ s.active.size
  unspent : s.offset = s.active.size → s.active.size ≠ s.width.size
  activeFits : s.active.size ≤ s.width.size
  standbyFits : s.standby.size ≤ s.width.size
  last : s.active.size < s.width.size → s.standby = #[]
  short : s.standby.size < s.width.size → s.exhausted = true

def pending (s : Source) : List Char :=
  if s.exhausted then [] else s.stream.delivered s.width.size

def ahead (s : Source) : List Char := s.active.toList.drop s.offset ++ s.standby.toList ++ s.pending

def cutBefore (s : Source) (fault : Fault) : Diagnostic :=
  .readFailed (s.name ++ ": " ++ fault.message)

def ending (s : Source) : Option Diagnostic :=
  if s.exhausted then s.readError else (s.stream.failure s.width.size).map s.cutBefore

theorem pendingDone {s : Source} (done : s.exhausted = true) : s.pending = [] := if_pos done

theorem pendingMore {s : Source} (more : s.exhausted = false) :
    s.pending = s.stream.delivered s.width.size := if_neg (by simp [more])

theorem endingDone {s : Source} (done : s.exhausted = true) : s.ending = s.readError := if_pos done

theorem endingMore {s : Source} (more : s.exhausted = false) :
    s.ending = (s.stream.failure s.width.size).map s.cutBefore := if_neg (by simp [more])

structure Kept (s s' : Source) : Prop where
  name : s'.name = s.name
  width : s'.width = s.width
  active : s'.active = s.active
  standby : s'.standby = s.standby
  offset : s'.offset = s.offset
  position : s'.position = s.position

structure Filled (s : Source) (text : Array Char) (s' : Source) : Prop where
  kept : s.Kept s'
  ready : s'.Ready
  fits : text.size ≤ s.width.size
  short : text.size < s.width.size → s'.exhausted = true
  pending : s.pending = text.toList ++ s'.pending
  ending : s'.ending = s.ending

def gathered (s : Source) (stream : Stream) (cut : Option Fault) (count : Nat) : Source :=
  ({ s with stream }.cutBy cut).loaded count

theorem gatheredKept (s : Source) (stream : Stream) (cut : Option Fault) (count : Nat) :
    s.Kept (s.gathered stream cut count) := by
  cases cut <;> exact ⟨rfl, rfl, rfl, rfl, rfl, rfl⟩

theorem gatheredStream (s : Source) (stream : Stream) (cut : Option Fault) (count : Nat) :
    (s.gathered stream cut count).stream = stream ∧
      (s.gathered stream cut count).closed = s.closed := by
  cases cut <;> exact ⟨rfl, rfl⟩

theorem gatheredExhausted (s : Source) (stream : Stream) (cut : Option Fault) (count : Nat) :
    (s.gathered stream cut count).exhausted =
      (s.exhausted || cut.isSome || decide (count < s.width.size)) := by
  cases cut with
  | none => rw [Option.isSome_none, Bool.or_false]; rfl
  | some fault => rw [Option.isSome_some, Bool.or_true]; rfl

theorem gatheredError (s : Source) (stream : Stream) (cut : Option Fault) (count : Nat) :
    (s.gathered stream cut count).readError = (cut.map s.cutBefore).or s.readError := by
  cases cut <;> rfl

theorem gatheredReady {s : Source} {stream : Stream} {cut : Option Fault} {count : Nat} (ready : s.Ready)
    (honest : stream.HonoursSizes) (limit : stream.limit = s.stream.limit)
    (whole : (s.gathered stream cut count).exhausted = false →
      (s.gathered stream cut count).readError = none) : (s.gathered stream cut count).Ready := by
  have kept := s.gatheredKept stream cut count
  obtain ⟨streamed, opened⟩ := s.gatheredStream stream cut count
  refine ⟨?_, ?_, opened.trans ready.opened, whole⟩
  · rw [streamed]
    exact honest
  · simpa only [Stream.tooLarge, streamed, kept.width, limit] using ready.allowed

section
variable {s : Source} {stream : Stream} {text : List Char} {cut : Option Fault}

theorem fullFilled (ready : s.Ready) (ended : s.exhausted = false) (honest : stream.HonoursSizes)
    (limit : stream.limit = s.stream.limit) (full : text.length = s.width.size)
    (next : s.stream.yieldFrom s.width.size 0 =
      (text ++ stream.delivered s.width.size, stream.failure s.width.size)) :
    s.Filled text.toArray (s.gathered stream none text.length) := by
  have kept := s.gatheredKept stream none text.length
  have streamed := (s.gatheredStream stream none text.length).1
  have more : (s.gathered stream none text.length).exhausted = false := by
    simp [gatheredExhausted, ended, full]
  have clean : (s.gathered stream none text.length).readError = none := by
    simp [gatheredError, ready.whole ended]
  have same : (s.gathered stream none text.length).cutBefore = s.cutBefore := by
    funext fault
    simp only [cutBefore, kept.name]
  refine ⟨kept, gatheredReady ready honest limit fun _ => clean, ?_, ?_, ?_, ?_⟩
  · simp [full]
  · simp [full]
  · rw [pendingMore ended, pendingMore more, streamed, kept.width, Stream.delivered, next]
  · rw [endingMore ended, endingMore more, streamed, kept.width, same, Stream.failure, Stream.failure, next]
    rfl

theorem lastFilled (ready : s.Ready) (ended : s.exhausted = false) (honest : stream.HonoursSizes)
    (limit : stream.limit = s.stream.limit) (less : text.length < s.width.size)
    (next : s.stream.yieldFrom s.width.size 0 = (text, cut)) :
    s.Filled text.toArray (s.gathered stream cut text.length) := by
  have done : (s.gathered stream cut text.length).exhausted = true := by
    simp [gatheredExhausted, less]
  refine ⟨s.gatheredKept stream cut text.length, gatheredReady ready honest limit (by simp [done]), ?_,
    fun _ => done, ?_, ?_⟩
  · simpa using Nat.le_of_lt less
  · rw [pendingMore ended, pendingDone done, List.append_nil, Stream.delivered, next]
  · rw [endingMore ended, endingDone done, gatheredError, ready.whole ended, Option.or_none,
      Stream.failure, next]

end

theorem fillReady {s : Source} (ready : s.Ready) :
    ∃ text s', s.fill = (.ok text, s') ∧ s.Filled text s' := by
  cases ended : s.exhausted with
  | true =>
    exact ⟨#[], s, by simp [fill, ended], ⟨rfl, rfl, rfl, rfl, rfl, rfl⟩, ready, by simp,
      fun _ => ended, by simp, rfl⟩
  | false =>
    obtain ⟨text, cut, stream, gathers, rest⟩ :=
      Stream.gatherYield ready.honest ready.allowed (Nat.le_refl s.width.size) []
    have filled : s.fill = (.ok text.toArray, s.gathered stream cut text.length) := by
      simp [fill, ended, ready.opened, gathers, gathered]
    have stretch := rest.stretch
    rw [Stream.yieldFromWindow] at stretch
    rcases stretch with ⟨full, rfl, next⟩ | ⟨less, next⟩
    · exact ⟨_, _, filled, fullFilled ready ended rest.honest rest.limit full next⟩
    · exact ⟨_, _, filled, lastFilled ready ended rest.honest rest.limit less next⟩

theorem lastWindow {s : Source} (sound : s.Sound) (less : s.active.size < s.width.size) :
    s.standby = #[] ∧ s.exhausted = true := by
  have none := sound.last less
  exact ⟨none, sound.short (by simpa [none] using s.width.sizePositive)⟩

theorem windowDone {s : Source} (sound : s.Sound) (done : s.active.size ≤ s.offset) :
    s.offset = s.active.size ∧ s.active.size < s.width.size := by
  have reached : s.offset = s.active.size := Nat.le_antisymm sound.inside done
  exact ⟨reached, Nat.lt_of_le_of_ne sound.activeFits (sound.unspent reached)⟩

theorem aheadDone {s : Source} (sound : s.Sound) (done : s.active.size ≤ s.offset) :
    s.ahead = [] := by
  obtain ⟨reached, less⟩ := windowDone sound done
  obtain ⟨none, done⟩ := lastWindow sound less
  simp [ahead, none, pendingDone done, reached]

theorem aheadInside {s : Source} (inside : s.offset < s.active.size) :
    s.ahead = s.active[s.offset] ::
      (s.active.toList.drop (s.offset + 1) ++ s.standby.toList ++ s.pending) := by
  have inList : s.offset < s.active.toList.length := by simpa using inside
  rw [ahead, List.drop_eq_getElem_cons inList]
  simp

theorem exhaustedDone {s : Source} (sound : s.Sound) (done : s.ahead = []) : s.exhausted = true := by
  by_cases inside : s.offset < s.active.size
  · rw [aheadInside inside] at done
    contradiction
  · exact (lastWindow sound (windowDone sound (Nat.not_lt.mp inside)).2).2

theorem currentAhead {s : Source} (sound : s.Sound) : s.current = s.ahead.head? := by
  by_cases inside : s.offset < s.active.size
  · rw [aheadInside inside, current, Array.getElem?_eq_getElem inside, List.head?_cons]
  · rw [aheadDone sound (Nat.not_lt.mp inside), current, Array.getElem?_eq_none (Nat.not_lt.mp inside)]
    rfl

theorem peekAhead {s : Source} (sound : s.Sound) : s.peek = s.ahead[1]? := by
  by_cases inside : s.offset < s.active.size
  · rw [aheadInside inside, List.getElem?_cons_succ, List.append_assoc]
    by_cases more : s.offset + 1 < s.active.size
    · have inList : s.offset + 1 < s.active.toList.length := by simpa using more
      rw [peek, if_neg (by omega), List.drop_eq_getElem_cons inList]
      simp [more]
    · have last : s.offset + 1 = s.active.size := by omega
      have spent : s.active.toList.drop (s.offset + 1) = [] := by simpa using Nat.le_of_eq last.symm
      rw [spent, List.nil_append]
      by_cases full : s.active.size = s.width.size
      · rw [peek, if_pos ⟨last, full⟩]
        cases size : s.standby.size with
        | zero =>
          have ended := sound.short (by simpa [size] using s.width.sizePositive)
          have none : s.standby = #[] := Array.eq_empty_of_size_eq_zero size
          simp [none, pendingDone ended]
        | succ n =>
          rw [List.getElem?_append_left (by simp [size])]
          simp [size]
      · obtain ⟨none, done⟩ := lastWindow sound (Nat.lt_of_le_of_ne sound.activeFits full)
        rw [peek, if_neg (by omega), none, pendingDone done, Array.getElem?_eq_none (by omega)]
        rfl
  · have done : s.active.size ≤ s.offset := Nat.not_lt.mp inside
    rw [aheadDone sound done, peek, if_neg (by omega), Array.getElem?_eq_none (by omega)]
    rfl

structure Passed (s : Source) (text : List Char) (s' : Source) : Prop where
  sound : s'.Sound
  ahead : s.ahead = text ++ s'.ahead
  position : s'.position = s.position.after text
  ending : s'.ending = s.ending
  name : s'.name = s.name

theorem passedNothing {s : Source} (sound : s.Sound) : s.Passed [] s :=
  ⟨sound, rfl, rfl, rfl, rfl⟩

theorem passedOn {s t u : Source} {first second : List Char} (left : s.Passed first t)
    (right : t.Passed second u) : s.Passed (first ++ second) u where
  sound := right.sound
  ahead := by rw [left.ahead, right.ahead, List.append_assoc]
  position := by rw [right.position, left.position, Position.after, Position.after, Position.after,
    List.foldl_append]
  ending := right.ending.trans left.ending
  name := right.name.trans left.name

theorem advanceDone {s : Source} (sound : s.Sound) (done : s.ahead = []) :
    s.advance = (.ok none, s) := by
  have none : s.current = none := by rw [currentAhead sound, done]; rfl
  simp only [advance, none]

theorem aheadStep {s : Source} {c : Char} {rest : List Char} (sound : s.Sound)
    (here : s.ahead = c :: rest) : s.offset < s.active.size ∧
      rest = s.active.toList.drop (s.offset + 1) ++ s.standby.toList ++ s.pending := by
  have inside : s.offset < s.active.size := by
    apply Nat.lt_of_not_le
    intro done
    rw [aheadDone sound done] at here
    contradiction
  rw [aheadInside inside] at here
  exact ⟨inside, (List.cons.inj here).2.symm⟩

structure Begun (s s' : Source) : Prop where
  sound : s'.Sound
  ahead : s'.ahead = s.active.toList ++ s.pending
  position : s'.position = s.position
  ending : s'.ending = s.ending
  name : s'.name = s.name

theorem standbyBegun {s : Source} (ready : s.Ready) (start : s.offset = 0)
    (fits : s.active.size ≤ s.width.size)
    (short : s.active.size < s.width.size → s.exhausted = true) :
    ∃ text t, s.fill = (.ok text, t) ∧ s.Begun { t with standby := text } := by
  obtain ⟨text, t, filled, fill⟩ := fillReady ready
  have active := fill.kept.active
  have offset := fill.kept.offset.trans start
  have width := fill.kept.width
  have blank : s.active.size < s.width.size → text = #[] := by
    intro less
    have pending := fill.pending
    rw [pendingDone (short less)] at pending
    simpa using (List.append_eq_nil_iff.mp pending.symm).1
  refine ⟨text, t, filled, ?_, ?_, fill.kept.position, fill.ending, fill.kept.name⟩
  · exact {
      honest := fill.ready.honest
      allowed := fill.ready.allowed
      opened := fill.ready.opened
      whole := fill.ready.whole
      inside := by simp [offset]
      unspent := by
        intro atEnd full
        have positive := s.width.sizePositive
        simp only [offset, active, width] at atEnd full
        omega
      activeFits := by simpa only [active, width] using fits
      standbyFits := by simpa only [width] using fill.fits
      last := by simpa only [active, width] using blank
      short := by simpa only [width] using fill.short }
  · rw [fill.pending]
    simp only [ahead, active, offset, List.drop_zero, List.append_assoc]
    rfl

theorem primePassed {s : Source} (ready : s.Ready) (active : s.active = #[]) (standby : s.standby = #[])
    (start : s.offset = 0) : ∃ s', s.prime = (.ok (), s') ∧ s.Passed [] s' := by
  obtain ⟨first, t, filled, fill⟩ := fillReady ready
  have width := fill.kept.width
  obtain ⟨second, u, filledToo, begun⟩ := standbyBegun (s := { t with active := first })
    ⟨fill.ready.honest, fill.ready.allowed, fill.ready.opened, fill.ready.whole⟩
    (fill.kept.offset.trans start) (by simpa only [width] using fill.fits)
    (by simpa only [width] using fill.short)
  refine ⟨{ u with standby := second }, by simp only [prime, filled, filledToo], begun.sound, ?_,
    begun.position.trans fill.kept.position, begun.ending.trans fill.ending,
    begun.name.trans fill.kept.name⟩
  rw [begun.ahead, ahead, active, standby, start, fill.pending]
  rfl

theorem openedPassed {stream : Stream} {width : Width} {text : List Char}
    (gives : stream.Gives width text) (name : String) :
    ∃ s, (ofStream stream width name).prime = (.ok (), s) ∧ (ofStream stream width name).Passed [] s :=
  primePassed ⟨gives.honest, gives.allowed, rfl, fun _ => rfl⟩ rfl rfl rfl

def turned (s : Source) : Source := { s with active := s.standby, standby := s.active, offset := 0 }

theorem swapFilled {s t : Source} {text : Array Char} (filled : s.turned.fill = (.ok text, t)) :
    s.swap = (.ok (), { t with standby := text }) := by
  unfold turned at filled
  simp only [swap, filled]

theorem swapPassed {s : Source} {c : Char} {rest : List Char} (sound : s.Sound)
    (here : s.ahead = c :: rest) (spent : (s.pass c).isSpent = true) :
    ∃ s', (s.pass c).swap = (.ok (), s') ∧ s.Passed [c] s' := by
  obtain ⟨inside, behind⟩ := aheadStep sound here
  have left : s.active.toList.drop (s.offset + 1) = [] := by
    simp only [isSpent, pass, Bool.and_eq_true] at spent
    simpa using of_decide_eq_true spent.1
  obtain ⟨text, t, filled, begun⟩ := standbyBegun (s := (s.pass c).turned)
    ⟨sound.honest, sound.allowed, sound.opened, sound.whole⟩ rfl sound.standbyFits sound.short
  refine ⟨{ t with standby := text }, swapFilled filled, begun.sound, ?_, begun.position, begun.ending,
    begun.name⟩
  rw [here, behind, left, begun.ahead]
  rfl

theorem advancePassed {s : Source} {c : Char} {rest : List Char} (sound : s.Sound)
    (here : s.ahead = c :: rest) : ∃ s', s.advance = (.ok (some c), s') ∧ s.Passed [c] s' := by
  obtain ⟨inside, behind⟩ := aheadStep sound here
  have current : s.current = some c := by rw [currentAhead sound, here]; rfl
  simp only [advance, current]
  cases spent : (s.pass c).isSpent with
  | true =>
    obtain ⟨s', swapped, passed⟩ := swapPassed sound here spent
    exact ⟨s', by simp [swapped], passed⟩
  | false =>
    have stays : s.offset + 1 = s.active.size → s.active.size ≠ s.width.size := by
      intro left full
      simp [isSpent, pass, left, full] at spent
    have ready : (s.pass c).Ready := ⟨sound.honest, sound.allowed, sound.opened, sound.whole⟩
    refine ⟨s.pass c, by simp, ⟨⟨ready, inside, stays, sound.activeFits, sound.standbyFits,
      sound.last, sound.short⟩, ?_, rfl, rfl, rfl⟩⟩
    rw [here, behind]
    rfl

theorem currentAny {s : Source} (sound : s.Sound) {p : Char → Bool} (more : s.current.any p = true) :
    ∃ c rest, s.ahead = c :: rest ∧ p c = true := by
  rw [currentAhead sound] at more
  cases here : s.ahead with
  | nil => simp [here] at more
  | cons c rest => exact ⟨c, rest, rfl, by simpa [here] using more⟩

theorem takeWhilePassed {s : Source} (sound : s.Sound) (p : Char → Bool) (taken : List Char) :
    ∃ s', s.takeWhile p taken = (.ok (taken.reverse ++ s.ahead.takeWhile p), s') ∧
      s.Passed (s.ahead.takeWhile p) s' := by
  fun_induction takeWhile s p taken with
  | case1 s taken more fault s' failed =>
    obtain ⟨c, rest, here, _⟩ := currentAny sound more
    obtain ⟨t, advanced, _⟩ := advancePassed sound here
    cases failed.symm.trans advanced
  | case2 s taken more s' ended =>
    obtain ⟨c, rest, here, _⟩ := currentAny sound more
    obtain ⟨t, advanced, _⟩ := advancePassed sound here
    cases ended.symm.trans advanced
  | case3 s taken more c s' consumed ih =>
    obtain ⟨d, rest, here, inClass⟩ := currentAny sound more
    obtain ⟨t, advanced, passed⟩ := advancePassed sound here
    cases consumed.symm.trans advanced
    obtain ⟨u, taken', later⟩ := ih passed.sound
    have left : s'.ahead = rest := by simpa [here] using passed.ahead.symm
    have takes : s.ahead.takeWhile p = c :: s'.ahead.takeWhile p := by
      rw [here, left, List.takeWhile_cons_of_pos inClass]
    rw [takes]
    exact ⟨u, by simpa using taken', passedOn passed later⟩
  | case4 s taken stop =>
    have none : s.ahead.takeWhile p = [] := by
      rw [currentAhead sound] at stop
      cases here : s.ahead with
      | nil => rfl
      | cons c rest => exact List.takeWhile_cons_of_neg (by simpa [here] using stop)
    rw [none, List.append_nil]
    exact ⟨s, rfl, passedNothing sound⟩

end WindowLex.Source

import Mathlib.Control.Monad.Basic
import WindowLex.Proofs.Advances

/-! What a fault that escapes from a refill does to the text. The pieces gathered before it are lost, and the
spent window is walked once more. What the calls of a caller who goes on consume is what the stream gave
exactly if no fault has escaped. -/
namespace WindowLex

/- Two windows in turn, the first of them active, from here to the end of the input: what comes from the
stream, what is consumed and how many faults escape. A window is filled when it is spent. If a fault escapes,
what came for it is lost and it holds what it held before. -/
inductive Turns (width : Nat) : List Char → List Char → List Char → List Char → Nat → Prop where
  | last {active} (short : active.length < width) : Turns width active [] [] active 0
  | filled {active standby text came consumed raised} (full : active.length = width)
      (rest : Turns width standby text came consumed raised) :
      Turns width active standby (text ++ came) (active ++ consumed) raised
  | kept {active standby lost came consumed raised} (full : active.length = width)
      (less : lost.length < width) (rest : Turns width standby active came consumed raised) :
      Turns width active standby (lost ++ came) (active ++ consumed) (raised + 1)

variable {width raised : Nat} {active standby came consumed : List Char}

theorem turnsWhole (turns : Turns width active standby came consumed 0) :
    consumed = active ++ standby ++ came := by
  generalize none : 0 = raised at turns
  induction turns with
  | last short => simp
  | filled full rest ih => rw [ih none]; simp
  | kept => contradiction

theorem turnsLonger (turns : Turns width active standby came consumed raised) :
    (active ++ standby ++ came).length + raised ≤ consumed.length := by
  induction turns with
  | last short => simp
  | filled full rest ih =>
    simp only [List.length_append] at ih ⊢; omega
  | kept full less rest ih =>
    simp only [List.length_append] at ih ⊢; omega

theorem turnsExact (turns : Turns width active standby came consumed raised) :
    consumed = active ++ standby ++ came ↔ raised = 0 := by
  constructor
  · rintro rfl
    have longer := turnsLonger turns
    omega
  · rintro rfl
    exact turnsWhole turns

namespace Source

def calls (s : Source) : Nat → List Char × Nat × Source
  | 0 => ([], 0, s)
  | n + 1 =>
    let (text, raised, t) := s.advance.2.calls n
    (s.current.toList ++ text, raisedBy s.advance.1 + raised, t)

variable {s t : Source} {c : Char} {text : List Char}

theorem callsWalked (s : Source) (n : Nat) : s.Walked (s.calls n).1 (s.calls n).2.1 (s.calls n).2.2 := by
  induction n generalizing s with
  | zero => exact .stay
  | succ n ih =>
    cases here : s.current with
    | none =>
      simpa only [calls, here, advanceStays here, raisedBy, Nat.zero_add, Option.toList_none,
        List.nil_append] using ih s
    | some c =>
      simp only [calls, here]
      exact .on here rfl (ih s.advance.2)

theorem callsEnd (s : Source) (allowed : s.stream.tooLarge s.width.size = false) :
    ∃ n, (s.calls n).2.2.atEnd = true := by
  cases here : s.current with
  | none => exact ⟨0, by simp [calls, atEnd, here]⟩
  | some c =>
    obtain ⟨less, still⟩ := walkedLess (.on here rfl .stay) (List.cons_ne_nil c []) allowed
    obtain ⟨n, done⟩ := callsEnd s.advance.2 still
    exact ⟨n + 1, done⟩
  termination_by s.burden

structure Shaped (s : Source) : Prop where
  moderate : s.stream.Moderate
  opened : s.closed = false
  inside : s.offset ≤ s.active.size
  unspent : s.offset = s.active.size → s.active.size ≠ s.width.size
  activeFits : s.active.size ≤ s.width.size
  standbyFits : s.standby.size ≤ s.width.size
  last : s.active.size < s.width.size → s.standby = #[]
  short : s.standby.size < s.width.size → s.exhausted = true

theorem shapedFramed (shaped : s.Shaped) : s.Framed :=
  ⟨shaped.inside, shaped.unspent, shaped.last, shaped.short, by simp [shaped.opened]⟩

theorem advancedShaped {answer : Except Fault (Option Char)} (shaped : s.Shaped)
    (inside : s.offset < s.active.size) (advanced : s.Advanced c answer t) : t.Shaped := by
  have framed := advancedFramed (shapedFramed shaped) inside advanced
  cases advanced with
  | within more => exact { shaped with inside := inside, unspent := more }
  | @turned text t last full supplied =>
    obtain ⟨active, offset, width⟩ := turnedSupplied supplied
    obtain ⟨fits, moderate⟩ : text.toList.length ≤ s.width.size ∧ t.stream.Moderate :=
      supplied.drew.moderate shaped.moderate
    exact {
      framed with
      moderate
      opened := supplied.closed.trans shaped.opened
      activeFits := by simpa only [active, width] using shaped.standbyFits
      standbyFits := by simpa only [width, Array.length_toList] using fits }
  | @fell fault t last full starved =>
    obtain ⟨active, standby, offset, width⟩ := turnedStarved starved
    obtain ⟨lost, escaped⟩ := starved.lost
    exact {
      framed with
      moderate := (escaped.moderate shaped.moderate).2
      opened := by rw [starved.stream]; exact shaped.opened
      activeFits := by simpa only [active, width] using shaped.standbyFits
      standbyFits := by simpa only [standby, width] using shaped.activeFits }

theorem shapedEnd (shaped : s.Shaped) (done : s.atEnd = true) :
    s.active.size ≤ s.offset ∧ s.active.size < s.width.size := by
  have reached : s.active.size ≤ s.offset := by simpa [atEnd, current] using done
  have unspent := shaped.unspent (Nat.le_antisymm shaped.inside reached)
  exact ⟨reached, Nat.lt_of_le_of_ne shaped.activeFits unspent⟩

theorem passedTake (here : s.current = some c) (text : List Char) :
    s.active.toList.take (s.offset + 1) ++ text = s.active.toList.take s.offset ++ c :: text := by
  have found : s.active.toList[s.offset]? = some c := by rw [Array.getElem?_toList]; exact here
  rw [List.take_add_one, found]
  simp

-- The induction is over the advances. Those within a window put off what its turn consumes.
theorem walkedTurns (shaped : s.Shaped) (walk : s.Walked text raised t) (done : t.atEnd = true) :
    ∃ came, s.stream.Gave came t.stream ∧ Turns s.width.size s.active.toList s.standby.toList came
      (s.active.toList.take s.offset ++ text) raised := by
  induction walk with
  | @stay s =>
    obtain ⟨reached, less⟩ := shapedEnd shaped done
    refine ⟨[], .nothing, ?_⟩
    rw [shaped.last less, List.take_of_length_le reached, List.append_nil]
    exact .last less
  | @on s t u c answer text raised here advanced rest ih =>
    have inside := currentInside here
    have step := advanceCases here advanced
    obtain ⟨came, gave, turns⟩ := ih (advancedShaped shaped inside step) done
    have spent : s.offset + 1 = s.active.size →
        s.active.toList.take (s.offset + 1) = s.active.toList :=
      fun last => List.take_of_length_le (Nat.le_of_eq last.symm)
    rw [← passedTake here]
    cases step with
    | within more => exact ⟨came, gave, by simpa [raisedBy, pass] using turns⟩
    | @turned given t last full supplied =>
      obtain ⟨active, offset, width⟩ := turnedSupplied supplied
      refine ⟨given.toList ++ came, Stream.gaveOn supplied.drew.gave gave, ?_⟩
      rw [spent last, raisedBy, Nat.zero_add]
      simp only [active, offset, width, List.take_zero, List.nil_append] at turns
      exact .filled (by simpa using full) turns
    | @fell fault t last full starved =>
      obtain ⟨active, standby, offset, width⟩ := turnedStarved starved
      obtain ⟨lost, escaped⟩ := starved.lost
      have less : lost.length < s.width.size := (escaped.moderate shaped.moderate).1
      refine ⟨lost ++ came, Stream.gaveOn escaped.gave gave, ?_⟩
      rw [spent last, raisedBy, Nat.add_comm]
      simp only [active, standby, offset, width, List.take_zero, List.nil_append] at turns
      exact .kept (by simpa using full) less turns
  | noted rest ih => exact ih { shaped with } done

theorem primedShaped {stream : Stream} {width : Width} {name : String} (moderate : stream.Moderate)
    (primed : (ofStream stream width name).prime = (.ok (), t)) : t.Shaped := by
  have opened := primedOpened primed
  obtain ⟨u, v, filled, filledToo, rest⟩ := primeFilled primed
  have first := fillSupplied filled
  have second := fillSupplied filledToo
  have uWidth : u.width = t.width := first.kept.width.trans opened.width.symm
  obtain ⟨activeFits, between⟩ := first.drew.moderate moderate
  obtain ⟨standbyFits, later⟩ := second.drew.moderate between
  have active : t.active.size ≤ width.size := by rwa [Array.length_toList] at activeFits
  have standby : t.standby.size ≤ u.width.size := by rwa [Array.length_toList] at standbyFits
  have closed : v.closed = false := second.closed.trans first.closed
  exact {
    primedFramed ⟨rfl, rfl⟩ primed with
    moderate := by
      rw [rest]
      exact later
    opened := by rw [rest]; exact closed
    activeFits := by rwa [opened.width]
    standbyFits := by rwa [← uWidth] }

end Source

theorem faultsRepeatWindows {stream : Stream} {width : Width} {name : String} {s : Source}
    (moderate : stream.Moderate) (primed : (Source.ofStream stream width name).prime = (.ok (), s)) :
    ∃ n consumed raised s' came, s.calls n = (consumed, raised, s') ∧ s'.atEnd = true ∧
      stream.Gave (s.active.toList ++ s.standby.toList ++ came) s'.stream ∧
      Turns width.size s.active.toList s.standby.toList came consumed raised ∧
      (consumed = s.active.toList ++ s.standby.toList ++ came ↔ raised = 0) := by
  have opened := Source.primedOpened primed
  obtain ⟨n, done⟩ := Source.callsEnd s opened.allowed
  obtain ⟨came, gave, turns⟩ :=
    Source.walkedTurns (Source.primedShaped moderate primed) (Source.callsWalked s n) done
  rw [opened.start, opened.width, List.take_zero, List.nil_append] at turns
  exact ⟨n, _, _, _, came, rfl, done, Stream.gaveOn opened.gave gave, turns, turnsExact turns⟩

def interruptedStream : Stream where
  script := [.piece ['a', 'b', 'c', 'd'], .piece ['e'], .failure ⟨.other, "boom"⟩, .piece ['f', 'g']]

def pairs : Width := .count 2 (by decide)

theorem interruptedModerate : interruptedStream.Moderate := Stream.scriptModerate (by decide)

theorem interruptedPrimed : (Source.ofStream interruptedStream pairs).prime =
    (.ok (), (Source.ofStream interruptedStream pairs).prime.2) := by
  have primed : (Source.ofStream interruptedStream pairs).prime.1 = .ok () := by decide +kernel
  exact Prod.ext primed rfl

theorem interruptedTurns : interruptedStream.Moderate ∧ ∃ s n consumed raised s' came,
    (Source.ofStream interruptedStream pairs).prime = (.ok (), s) ∧ (s.calls 2).2.1 = 1 ∧
    s.calls n = (consumed, raised, s') ∧ s'.atEnd = true ∧
    interruptedStream.Gave (['a', 'b'] ++ ['c', 'd'] ++ came) s'.stream ∧
    Turns 2 ['a', 'b'] ['c', 'd'] came consumed raised := by
  obtain ⟨n, consumed, raised, s', came, called, done, gave, turns, _⟩ :=
    faultsRepeatWindows interruptedModerate interruptedPrimed
  have active : (Source.ofStream interruptedStream pairs).prime.2.active.toList = ['a', 'b'] := by
    decide +kernel
  have standby : (Source.ofStream interruptedStream pairs).prime.2.standby.toList = ['c', 'd'] := by
    decide +kernel
  rw [active, standby] at gave turns
  exact ⟨interruptedModerate, _, n, consumed, raised, s', came, interruptedPrimed, by decide +kernel, called,
    done, gave, turns⟩

theorem interruptedRepeats : interruptedStream.Moderate ∧ ∃ s s',
    (Source.ofStream interruptedStream pairs).prime = (.ok (), s) ∧
    s.calls 8 = (['a', 'b', 'c', 'd', 'a', 'b', 'f', 'g'], 1, s') ∧ s'.atEnd = true ∧
    interruptedStream.Gave ['a', 'b', 'c', 'd', 'e', 'f', 'g'] s'.stream ∧
    ¬ interruptedStream.Gave ['a', 'b', 'c', 'd', 'a', 'b', 'f', 'g'] s'.stream := by
  have stream : ((Source.ofStream interruptedStream pairs).prime.2.calls 8).2.2.stream =
      interruptedStream.readAll [2, 2, 2, 1, 2, 2] := by decide +kernel
  have gave : interruptedStream.Gave ['a', 'b', 'c', 'd', 'e', 'f', 'g'] _ :=
    Stream.gaveReturned interruptedStream [2, 2, 2, 1, 2, 2]
  rw [← stream] at gave
  refine ⟨interruptedModerate, _, _, interruptedPrimed, Prod.ext ?_ (Prod.ext ?_ rfl), ?_, gave, fun same => ?_⟩
  · decide +kernel
  · decide +kernel
  · decide +kernel
  · exact absurd (Stream.gaveOnce gave same) (by decide)

end WindowLex

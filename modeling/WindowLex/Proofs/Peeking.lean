import WindowLex.Proofs.Refills

/-! What a caller is told about the character behind the cursor. Peeking and advancing each decide on grounds of
their own whether to look into the other window. They agree wherever advances and closings have led, whatever
the stream did on the way, faults that escaped and windows that got more than they can hold included. -/
namespace WindowLex

namespace Source

inductive Reached (s : Source) : Source → Prop where
  | start : Reached s s
  | advanced {t u : Source} {answer : Except Fault (Option Char)} (before : Reached s t)
      (advanced : t.advance = (answer, u)) : Reached s u
  | closed {t : Source} (before : Reached s t) : Reached s t.close

variable {s t : Source} {c : Char} {answer : Except Fault (Option Char)}

theorem reachedFramed (framed : s.Framed) (reached : s.Reached t) : t.Framed := by
  induction reached with
  | start => exact framed
  | advanced before advanced ih => exact advanceFramed ih advanced
  | closed before ih => exact closeFramed ih

theorem currentPast (past : s.active.size ≤ s.offset) : s.current = none := by
  rw [current, Array.getElem?_eq_none past]

theorem peekPast (past : s.active.size ≤ s.offset) : s.peek = none := by
  have behind : ¬(s.offset + 1 = s.active.size ∧ s.active.size = s.width.size) := by omega
  rw [peek, if_neg behind, Array.getElem?_eq_none (by omega)]

theorem endPast (framed : s.Framed) (ended : s.atEnd = true ∨ s.closed = true) :
    s.active.size ≤ s.offset := by
  rcases ended with done | closed
  · simpa [atEnd, current] using done
  · rw [(framed.emptied closed).1]
    exact Nat.zero_le _

/- A window is left exactly where peeking looks into the other one, and that one is not touched by the filling of
the window just left, be it in vain. -/
theorem advancedPeek (advanced : s.Advanced c answer t) : t.current = s.peek := by
  cases advanced with
  | within more =>
    have stays : ¬(s.offset + 1 = s.active.size ∧ s.active.size = s.width.size) := fun both => more both.1 both.2
    rw [peek, if_neg stays]
    rfl
  | @turned text t last full supplied =>
    obtain ⟨active, offset, _⟩ := turnedSupplied supplied
    rw [peek, if_pos ⟨last, full⟩]
    simp only [current, active, offset]
  | fell last full starved =>
    obtain ⟨active, _, offset, _⟩ := turnedStarved starved
    rw [peek, if_pos ⟨last, full⟩, current, active, offset]

theorem advancePeek (advanced : s.advance = (answer, t)) : t.current = s.peek := by
  cases here : s.current with
  | none =>
    have past : s.active.size ≤ s.offset := by simpa [current] using here
    rw [advanceStays here] at advanced
    cases advanced
    rw [here, peekPast past]
  | some c => exact advancedPeek (advanceCases here advanced)

end Source

theorem peekForetells {s start t u : Source} {answer : Except Fault (Option Char)} (unmoved : s.Unmoved)
    (primed : s.prime = (.ok (), start)) (reached : start.Reached t) (advanced : t.advance = (answer, u)) :
    u.current = t.peek ∧
      (t.atEnd = true ∨ t.closed = true → t.current = none ∧ t.peek = none ∧ u.current = none) := by
  have framed := Source.reachedFramed (Source.primedFramed unmoved primed) reached
  have told := Source.advancePeek advanced
  refine ⟨told, fun ended => ?_⟩
  have past := Source.endPast framed ended
  have nothing := Source.peekPast past
  exact ⟨Source.currentPast past, nothing, told.trans nothing⟩

theorem interruptedPeeked : ∃ s t u, (Source.ofStream interruptedStream pairs).Unmoved ∧
    (Source.ofStream interruptedStream pairs).prime = (.ok (), s) ∧ s.Reached t ∧
    t.advance = (.error ⟨.other, "boom"⟩, u) ∧ t.peek = some 'c' ∧ u.current = some 'c' ∧
    s.Reached u.close ∧ u.close.closed = true ∧ u.close.peek = none ∧ u.close.advance.2.current = none := by
  have unmoved : (Source.ofStream interruptedStream pairs).Unmoved := ⟨rfl, rfl⟩
  have reached : (Source.ofStream interruptedStream pairs).prime.2.Reached
      (Source.ofStream interruptedStream pairs).prime.2.advance.2 := .advanced .start (Prod.eta _).symm
  have fell : (Source.ofStream interruptedStream pairs).prime.2.advance.2.advance =
      (.error ⟨.other, "boom"⟩, (Source.ofStream interruptedStream pairs).prime.2.advance.2.advance.2) :=
    Prod.ext (by decide +kernel) rfl
  obtain ⟨told, _⟩ := peekForetells unmoved interruptedPrimed reached fell
  have seen : (Source.ofStream interruptedStream pairs).prime.2.advance.2.peek = some 'c' := by decide +kernel
  have closed := Source.Reached.closed (.advanced reached fell)
  have shut : (Source.ofStream interruptedStream pairs).prime.2.advance.2.advance.2.close.closed = true := by
    decide +kernel
  obtain ⟨_, blank⟩ := peekForetells unmoved interruptedPrimed closed (Prod.eta _).symm
  obtain ⟨_, peek, after⟩ := blank (.inr shut)
  exact ⟨_, _, _, unmoved, interruptedPrimed, reached, fell, seen, told.trans seen, closed, shut, peek, after⟩

end WindowLex

import WindowLex.Proofs.Computations
import WindowLex.Proofs.Peeking

/-! What the two windows look like wherever advances and closings have led, whatever the stream did on the way.
The cursor never stands behind a full window. A window that is not full is the last one: the other is empty, and
the stream is not asked for anything more. -/
namespace WindowLex

namespace Source

variable {s t : Source}

-- An advance at the end of the input and a second closing change nothing, so that two kinds of steps are left.
theorem reachedKeeps {P : Source → Prop} (reached : s.Reached t) (start : P s)
    (advanced : ∀ {t u c answer}, P t → t.current = some c → t.Advanced c answer u → P u)
    (closed : ∀ {t}, P t → t.closed = false → P t.close) : P t := by
  induction reached with
  | start => exact start
  | @advanced t u answer before moved ih =>
    cases here : t.current with
    | none =>
      rw [advanceStays here] at moved
      cases moved
      exact ih
    | some c => exact advanced ih here (advanceCases here moved)
  | @closed t before ih =>
    cases shut : t.closed with
    | true => rwa [closeClosed shut]
    | false => exact closed ih shut

theorem reachedWidth (reached : s.Reached t) : t.width = s.width := by
  refine reachedKeeps (P := fun t => t.width = s.width) reached rfl ?_ ?_
  · intro t u c answer same here step
    exact (advancedMoved step).width.trans same
  · intro t same opened
    obtain ⟨event, closed⟩ := closeOpen opened
    rw [closed]
    exact same

structure Last (s : Source) : Prop where
  framed : s.Framed
  short : s.active.size < s.width.size

theorem reachedLast (last : s.Last) (reached : s.Reached t) :
    t.Last ∧ t.stream.asked = s.stream.asked := by
  refine reachedKeeps (P := fun t => t.Last ∧ t.stream.asked = s.stream.asked) reached ⟨last, rfl⟩ ?_ ?_
  · rintro t u c answer ⟨last, same⟩ here step
    have framed := advancedFramed last.framed (currentInside here) step
    cases step with
    | within more => exact ⟨⟨framed, last.short⟩, same⟩
    | turned _ full | fell _ full => exact absurd full (Nat.ne_of_lt last.short)
  · rintro t ⟨last, same⟩ opened
    have framed := closeFramed last.framed
    obtain ⟨event, closed⟩ := closeOpen opened
    rw [closed] at framed ⊢
    exact ⟨⟨framed, t.width.sizePositive⟩, same⟩

theorem reachedShaped (shaped : s.Shaped) (reached : s.Reached t) (opened : t.closed = false) : t.Shaped := by
  refine reachedKeeps (P := fun t => t.closed = false → t.Shaped) reached (fun _ => shaped) ?_ ?_ opened
  · intro t u c answer before here step opened
    exact advancedShaped (before ((advancedMoved step).closed.symm.trans opened)) (currentInside here) step
  · intro t before opened still
    obtain ⟨event, closed⟩ := closeOpen opened
    rw [closed] at still
    contradiction

theorem callsReached (reached : s.Reached t) (n : Nat) : s.Reached (t.calls n).2.2 := by
  induction n generalizing t with
  | zero => exact reached
  | succ n ih => exact ih (.advanced reached (Prod.eta t.advance).symm)

end Source

theorem windowsRepresented {stream : Stream} {width : Width} {name : String} {s t : Source}
    (primed : (Source.ofStream stream width name).prime = (.ok (), s)) (reached : s.Reached t) :
    t.offset ≤ t.active.size ∧ (t.offset = t.active.size → t.active.size ≠ width.size) ∧ t.isSpent = false ∧
      (t.atEnd = true ↔ t.offset = t.active.size) ∧
      (t.active.size < width.size → t.standby = #[] ∧ t.exhausted = true ∧
        ∀ u, t.Reached u → u.stream.asked = t.stream.asked) ∧
      (stream.Moderate → t.active.size ≤ width.size ∧ t.standby.size ≤ width.size) := by
  have framed := Source.reachedFramed (Source.primedFramed ⟨rfl, rfl⟩ primed) reached
  have wide : t.width = width := (Source.reachedWidth reached).trans (Source.primedOpened primed).width
  have inside := framed.inside
  have unspent := framed.unspent
  have last := framed.last
  rw [wide] at unspent last
  refine ⟨inside, unspent, ?spent, ?ending, fun short => ⟨last short, ?exhausted, fun u later => ?unasked⟩,
    fun moderate => ?fits⟩
  case spent =>
    rw [Source.isSpent, wide, Bool.and_eq_false_iff, decide_eq_false_iff_not, decide_eq_false_iff_not]
    by_cases behind : t.active.size ≤ t.offset
    · exact .inr (unspent (Nat.le_antisymm inside behind))
    · exact .inl behind
  case ending =>
    simp only [Source.atEnd, Source.current, Option.isNone_iff_eq_none, Array.getElem?_eq_none_iff]
    omega
  case exhausted =>
    refine framed.short ?_
    rw [last short]
    exact t.width.sizePositive
  case unasked => exact (Source.reachedLast ⟨framed, wide ▸ short⟩ later).2
  case fits =>
    cases closed : t.closed with
    | true =>
      obtain ⟨active, standby⟩ := framed.emptied closed
      simp [active, standby]
    | false =>
      have shaped := Source.reachedShaped (Source.primedShaped moderate primed) reached closed
      exact wide ▸ ⟨shaped.activeFits, shaped.standbyFits⟩

theorem interruptedRepresented : ∃ s t u, (Source.ofStream interruptedStream pairs).prime = (.ok (), s) ∧
    s.Reached t ∧ t.active = #['c', 'd'] ∧ t.standby = #['a', 'b'] ∧ t.isSpent = false ∧
    interruptedStream.Moderate ∧ t.active.size ≤ pairs.size ∧ t.standby.size ≤ pairs.size ∧
    s.Reached u ∧ u.active = #[] ∧ u.standby = #[] ∧ u.exhausted = true ∧
    ∀ v, u.Reached v → v.stream.asked = #[2, 2, 2, 1, 2, 2] := by
  have reached (n : Nat) := Source.callsReached (.start (s := (Source.ofStream interruptedStream pairs).prime.2)) n
  obtain ⟨_, _, spent, _, _, fits⟩ := windowsRepresented interruptedPrimed (reached 2)
  obtain ⟨_, _, _, _, last, _⟩ := windowsRepresented interruptedPrimed (reached 8)
  obtain ⟨active, standby⟩ := fits interruptedModerate
  have empty : ((Source.ofStream interruptedStream pairs).prime.2.calls 8).2.2.active = #[] := by decide +kernel
  have asked : ((Source.ofStream interruptedStream pairs).prime.2.calls 8).2.2.stream.asked =
      #[2, 2, 2, 1, 2, 2] := by decide +kernel
  obtain ⟨nothing, exhausted, unasked⟩ := last (by rw [empty]; decide)
  exact ⟨_, _, _, interruptedPrimed, reached 2, by decide +kernel, by decide +kernel, spent, interruptedModerate,
    active, standby, reached 8, empty, nothing, exhausted, fun v later => (unasked v later).trans asked⟩

end WindowLex

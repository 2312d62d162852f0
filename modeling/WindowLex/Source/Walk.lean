import WindowLex.Source

/-! Longer walks over a source: a given number of characters, a run of characters of one class, all that
is left. Each ends because an advance that yields a character leaves fewer to come. -/
namespace WindowLex.Source

@[simp] theorem noteActive (s : Source) (e : Event) : (s.note e).active = s.active := rfl
@[simp] theorem noteStandby (s : Source) (e : Event) : (s.note e).standby = s.standby := rfl
@[simp] theorem noteOffset (s : Source) (e : Event) : (s.note e).offset = s.offset := rfl
@[simp] theorem noteStream (s : Source) (e : Event) : (s.note e).stream = s.stream := rfl

theorem fillSize {s : Source} {text s'} (h : s.fill = (.ok text, s')) :
    s'.active = s.active ∧ s'.offset = s.offset ∧
      text.size + s'.stream.size ≤ s.stream.size := by
  unfold fill at h
  split at h
  · cases h; simp
  · split at h
    · cases h
    · rename_i cut _ gathered
      have := Stream.gatherSize gathered
      cases h
      cases cut <;> simp_all [cutBy, loaded]

theorem swapRemaining {s s' : Source} (h : s.swap = (.ok (), s')) :
    s'.remaining ≤ s.standby.size + s.stream.size := by
  unfold swap at h
  split at h
  · cases h
  · rename_i filled
    obtain ⟨active, offset, size⟩ := fillSize filled
    cases h
    simp only [remaining] at *
    simp only [active, offset]
    omega

theorem advanceRemaining {s s' : Source} {c} (h : s.advance = (.ok (some c), s')) :
    s'.remaining < s.remaining := by
  unfold advance at h
  split at h
  · cases h
  · rename_i c here
    have inside : s.offset < s.active.size := (Array.getElem?_eq_some_iff.mp here).1
    split at h
    · split at h
      · cases h
      · rename_i swapped
        cases h
        have := swapRemaining swapped
        simp only [remaining, pass] at *; omega
    · cases h
      simp only [remaining, pass]; omega

theorem advanceNone {s s' : Source} (h : s.advance = (.ok none, s')) : s' = s := by
  unfold advance at h
  split at h
  · cases h; rfl
  · split at h
    · split at h <;> cases h
    · cases h

def advanceBy (s : Source) : Nat → List Char → Except Fault (List Char) × Source
  | 0, taken => (.ok taken.reverse, s)
  | n + 1, taken =>
    match s.advance with
    | (.error fault, s) => (.error fault, s)
    | (.ok none, s) => (.ok taken.reverse, s)
    | (.ok (some c), s) => s.advanceBy n (c :: taken)

def takeWhile (s : Source) (p : Char → Bool) (taken : List Char) :
    Except Fault (List Char) × Source :=
  if s.current.any p then
    match _ : s.advance with
    | (.error fault, s) => (.error fault, s)
    | (.ok none, s) => (.ok taken.reverse, s)
    | (.ok (some c), s') => s'.takeWhile p (c :: taken)
  else (.ok taken.reverse, s)
  termination_by s.remaining
  decreasing_by exact advanceRemaining ‹_›

def drain (s : Source) : Except Fault (List Char) × Source := s.takeWhile (fun _ => true) []

theorem takeWhileRemaining {s : Source} {p taken text s'}
    (h : s.takeWhile p taken = (.ok text, s')) : s'.remaining ≤ s.remaining := by
  fun_induction takeWhile s p taken with
  | case1 => cases h
  | case2 s taken _ s'' ended => cases h; exact Nat.le_of_eq (congrArg remaining (advanceNone ended))
  | case3 s taken _ c s'' consumed ih =>
    have := advanceRemaining consumed
    have := ih h; omega
  | case4 => cases h; exact Nat.le_refl _

end WindowLex.Source

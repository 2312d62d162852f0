import WindowLex.Proofs.Computations
import WindowLex.Proofs.Observation
import WindowLex.Proofs.Refills

/-! How far a source reads ahead over a stream that honours sizes. So many characters have been consumed, so
many windows have been filled: each on its own turn, one of them ahead of the cursor's window, and none after
the first that could not be filled. -/
namespace WindowLex

inductive Fills (width : Nat) : List (List Exchange) → Bool → Prop where
  | none : Fills width [] false
  | full {fills fill} (before : Fills width fills false) (filling : Filling width fill)
      (whole : (givenByAll fill).length = width) : Fills width (fills ++ [fill]) false
  | last {fills fill} (before : Fills width fills false) (filling : Filling width fill)
      (less : (givenByAll fill).length < width) : Fills width (fills ++ [fill]) true

variable {width : Nat} {fills : List (List Exchange)} {ended : Bool}

theorem fillsFilling (filled : Fills width fills ended) : ∀ fill ∈ fills, Filling width fill := by
  induction filled with
  | none => simp
  | full before filling whole ih | last before filling less ih =>
    intro fill member
    rcases List.mem_append.mp member with early | late
    · exact ih fill early
    · rwa [List.mem_singleton.mp late]

theorem fillsLength (filled : Fills width fills ended) :
    (ended = false → (givenByAll fills.flatten).length = fills.length * width) ∧
      (ended = true → ∃ n, fills.length = n + 1 ∧ n * width ≤ (givenByAll fills.flatten).length ∧
        (givenByAll fills.flatten).length < (n + 1) * width) := by
  induction filled with
  | none => simp [givenByAll]
  | @full fills fill before filling whole ih =>
    refine ⟨fun _ => ?_, fun done => absurd done Bool.false_ne_true⟩
    rw [List.flatten_concat, givenOn, List.length_append, ih.1 rfl, whole, List.length_append, Nat.add_mul]
    simp
  | @last fills fill before filling less ih =>
    refine ⟨fun goes => absurd goes.symm Bool.false_ne_true, fun _ => ⟨fills.length, by simp, ?_⟩⟩
    rw [List.flatten_concat, givenOn, List.length_append, ih.1 rfl, Nat.add_mul]
    omega

theorem fillsGiven (filled : Fills width fills ended) (goes : ended = false) :
    ∀ e ∈ fills.flatten, e.given ≠ [] := by
  induction filled with
  | none => simp
  | @full fills fill before filling whole ih =>
    intro e member
    rw [List.flatten_concat] at member
    rcases List.mem_append.mp member with early | late
    · exact ih rfl e early
    · exact fillingFull filling (Nat.le_of_eq whole.symm) e late
  | last => contradiction

theorem fillsEnded {before after : List Exchange} {e : Exchange} (filled : Fills width fills ended)
    (split : fills.flatten = before ++ e :: after) (nothing : e.given = []) : after = [] := by
  have given : ended = false → False := fun goes =>
    fillsGiven filled goes e (by simp [split]) nothing
  cases filled with
  | none => exact (given rfl).elim
  | full => exact (given rfl).elim
  | @last fills fill early filling less =>
    rw [List.flatten_concat] at split
    rcases List.append_eq_append_iff.mp split with ⟨between, _, inside⟩ | ⟨between, inside, rest⟩
    · exact fillingEnded filling inside nothing
    · cases between with
      | nil => exact fillingEnded filling (rest.symm.trans (List.nil_append _).symm) nothing
      | cons b between =>
        have member : e ∈ fills.flatten := by
          cases rest
          simp [inside]
        exact absurd nothing (fillsGiven early rfl e member)

namespace Source

variable {stream : Stream} {whole text : List Char} {s t : Source} {c : Char}

theorem fillFills {given : Array Char} (filled : Fills s.width.size fills s.exhausted) (opened : s.closed = false)
    (fits : given.size ≤ s.width.size) (supplied : s.fill = (.ok given, t)) :
    ∃ more, Fills s.width.size (fills ++ more) t.exhausted ∧ s.stream.Heard more.flatten t.stream ∧
      givenByAll more.flatten = given.toList ∧ more.length ≤ 1 ∧
      (t.exhausted = false → s.exhausted = false ∧ more.length = 1) := by
  obtain ⟨heard, asked⟩ := fillAsked supplied
  cases done : s.exhausted with
  | true =>
    have same : s.fill = (.ok #[], s) := by simp [fill, done]
    cases supplied.symm.trans same
    exact ⟨[], by simpa using filled, .nothing, rfl, Nat.zero_le 1, by simp [done]⟩
  | false =>
    rw [done] at filled
    have filling := asked.filling done opened
    have came := asked.came given rfl
    have size : (givenByAll heard).length = given.size := by rw [← came, Array.length_toList]
    refine ⟨[heard], ?_, by simpa using asked.asks, by simp [came], Nat.le_refl 1, fun _ => ⟨rfl, rfl⟩⟩
    cases ended : t.exhausted with
    | true => exact .last filled filling (by rw [size]; exact asked.short given rfl done opened ended)
    | false =>
      have full : ¬ given.size < s.width.size := fun less => by
        rw [(fillSupplied supplied).short opened less] at ended
        contradiction
      exact .full filled filling (by omega)

structure Fetched (stream : Stream) (whole text : List Char) (fills : List (List Exchange)) (s : Source) : Prop where
  sound : s.Sound
  filled : Fills s.width.size fills s.exhausted
  heard : stream.Heard fills.flatten s.stream
  came : givenByAll fills.flatten = text ++ s.active.toList.drop s.offset ++ s.standby.toList
  left : whole = text ++ s.ahead
  turns : ∃ n, text.length = n * s.width.size + s.offset ∧ fills.length ≤ n + 2 ∧
    (s.exhausted = false → fills.length = n + 2)

theorem primedFetched {width : Width} (gives : stream.Gives width whole) (name : String) :
    ∃ s fills, (ofStream stream width name).prime = (.ok (), s) ∧ s.width = width ∧
      Fetched stream whole [] fills s := by
  obtain ⟨s, primed, passed⟩ := openedPassed gives name
  obtain ⟨u, v, filled, filledToo, rest⟩ := primeFilled primed
  have opened := primedOpened primed
  have kept := fillSupplied filled
  have wide : u.width = width := kept.kept.width
  have active : s.active.size ≤ width.size := by
    rw [← opened.width]
    exact passed.sound.activeFits
  have standby : s.standby.size ≤ u.width.size := by
    rw [wide, ← opened.width]
    exact passed.sound.standbyFits
  obtain ⟨first, fills, asks, came, one, goes⟩ := fillFills .none rfl active filled
  have between : Fills u.width.size first u.exhausted := by rwa [wide]
  obtain ⟨second, fillsToo, asksToo, cameToo, oneToo, goesToo⟩ :=
    fillFills (s := { u with active := s.active }) between kept.closed standby filledToo
  have exhausted : s.exhausted = v.exhausted := by rw [rest]
  have streamed : s.stream = v.stream := by rw [rest]
  refine ⟨s, first ++ second, primed, opened.width, passed.sound, ?_, ?_, ?_, ?_, 0, ?_, ?_, ?_⟩
  · rw [exhausted, opened.width, ← wide]
    exact fillsToo
  · rw [List.flatten_append, streamed]
    exact Stream.heardOn asks asksToo
  · rw [List.flatten_append, givenOn, came, cameToo, opened.start]
    rfl
  · exact gives.whole.symm.trans passed.ahead
  · simp [opened.start]
  · rw [List.length_append]
    omega
  · intro ended
    obtain ⟨before, exact⟩ := goesToo (exhausted.symm.trans ended)
    rw [List.length_append, (goes before).2, exact]

theorem advanceFetched (fetched : Fetched stream whole text fills s) (here : s.current = some c) :
    ∃ t more, s.advance = (.ok (some c), t) ∧ t.width = s.width ∧
      Fetched stream whole (text ++ [c]) (fills ++ more) t := by
  have sound := fetched.sound
  have left := fetched.left
  rw [currentAhead sound] at here
  obtain ⟨rest, ahead⟩ := List.head?_eq_some_iff.mp here
  obtain ⟨t, advanced, passed⟩ := advancePassed sound ahead
  rw [← currentAhead sound] at here
  obtain ⟨n, length, few, goes⟩ := fetched.turns
  have came := fetched.came
  have inside := currentInside here
  rw [passedRest here] at came
  rw [passed.ahead, ← List.append_assoc] at left
  cases advanceStepped here advanced with
  | within more =>
    refine ⟨s.pass c, [], advanced, rfl, passed.sound, ?_, ?_, ?_, left, n, ?_, ?_, ?_⟩
    · simpa [pass] using fetched.filled
    · simpa [pass] using fetched.heard
    · simpa [pass] using came
    · simp [pass, length, Nat.add_assoc]
    · simpa using few
    · simpa [pass] using goes
  | @turned given u last full filled =>
    have kept := fillSupplied filled
    obtain ⟨active, offset, width⟩ := turnedSupplied kept
    have fits : given.size ≤ s.width.size := by
      rw [← width]
      exact passed.sound.standbyFits
    obtain ⟨more, fills, asks, cameToo, one, goesToo⟩ :=
      fillFills (s := (s.pass c).turned) fetched.filled sound.opened fits filled
    have spent : s.active.toList.drop (s.offset + 1) = [] := by simpa using Nat.le_of_eq last.symm
    refine ⟨_, more, advanced, width, passed.sound, ?_, ?_, ?_, left, n + 1, ?_, ?_, ?_⟩
    · rw [width]
      exact fills
    · rw [List.flatten_append]
      exact Stream.heardOn fetched.heard asks
    · rw [List.flatten_append, givenOn, came, cameToo, spent]
      simp [active, offset]
    · simp only [width, offset, List.length_append, length, List.length_singleton, Nat.add_mul]
      omega
    · rw [List.length_append]
      omega
    · intro ended
      obtain ⟨before, exact⟩ := goesToo ended
      rw [List.length_append, goes before, exact]

theorem throughFetched (questions : List Question) (fetched : Fetched stream whole text fills s) :
    ∃ more, (s.through questions).2.width = s.width ∧
      Fetched stream whole (text ++ (s.through questions).1) (fills ++ more) (s.through questions).2 := by
  induction questions generalizing text fills s with
  | nil => exact ⟨[], rfl, by simpa [through] using fetched⟩
  | cons question rest ih =>
    cases question with
    | advance =>
      cases here : s.current with
      | none =>
        have asked : (s.ask .advance).2 = s := by simp only [ask, advanceStays here]
        simpa [through, here, asked] using ih fetched
      | some c =>
        obtain ⟨t, more, advanced, width, next⟩ := advanceFetched fetched here
        have asked : (s.ask .advance).2 = t := by simp only [ask, advanced]
        obtain ⟨later, still, last⟩ := ih next
        refine ⟨more ++ later, ?_, ?_⟩
        · simpa [through, asked] using still.trans width
        · simpa [through, here, asked] using last
    | _ => exact ih fetched

theorem fetchedCount (fetched : Fetched stream whole text fills s) :
    fills.length = min (whole.length / s.width.size + 1) (text.length / s.width.size + 2) := by
  have sound := fetched.sound
  have positive := s.width.sizePositive
  obtain ⟨n, length, few, goes⟩ := fetched.turns
  have within : s.offset < s.width.size := by
    have inside := sound.inside
    have fits := sound.activeFits
    have unspent := sound.unspent
    omega
  have turns : text.length / s.width.size = n := by
    refine Nat.div_eq_of_lt_le ?_ ?_
    · omega
    · rw [length, Nat.add_mul]; omega
  have all : whole.length = (givenByAll fills.flatten).length + s.pending.length := by
    have left := congrArg List.length fetched.left
    have came := congrArg List.length fetched.came
    simp only [ahead, List.length_append] at left came
    omega
  obtain ⟨going, shut⟩ := fillsLength fetched.filled
  cases ended : s.exhausted with
  | false =>
    have many : n + 2 ≤ whole.length / s.width.size := by
      rw [Nat.le_div_iff_mul_le positive, ← goes ended, ← going ended]
      omega
    rw [turns, goes ended]
    omega
  | true =>
    obtain ⟨m, count, low, high⟩ := shut ended
    rw [pendingDone ended] at all
    have last : whole.length / s.width.size = m := by
      refine Nat.div_eq_of_lt_le ?_ ?_ <;> simpa [all]
    rw [turns, last, count]
    omega

theorem fetchedBound (fetched : Fetched stream whole text fills s) :
    (givenByAll fills.flatten).length ≤ text.length + 2 * s.width.size := by
  have active := fetched.sound.activeFits
  have standby := fetched.sound.standbyFits
  rw [fetched.came]
  simp only [List.length_append, List.length_drop, Array.length_toList]
  omega

end Source

theorem readAheadExact {stream : Stream} {width : Width} {text : List Char} (gives : stream.Gives width text)
    (name : String) : ∃ s, (Source.ofStream stream width name).prime = (.ok (), s) ∧
      ∀ questions consumed t, s.through questions = (consumed, t) →
        (∀ question, question ≠ .advance → (t.ask question).2 = t) ∧
        ∃ fills : List (List Exchange), stream.Heard fills.flatten t.stream ∧
          fills.length = min (text.length / width.size + 1) (consumed.length / width.size + 2) ∧
          (givenByAll fills.flatten).length ≤ consumed.length + 2 * width.size ∧
          (∀ fill ∈ fills, fill ≠ [] ∧ ∀ before e after, fill = before ++ e :: after →
            e.size + (givenByAll before).length = width.size ∧ 1 ≤ e.size ∧ e.size ≤ width.size) ∧
          ∀ before e after, fills.flatten = before ++ e :: after → e.given = [] → after = [] := by
  obtain ⟨s, first, primed, wide, start⟩ := Source.primedFetched gives name
  refine ⟨s, primed, fun questions consumed t run => ⟨fun question other => ?_, ?_⟩⟩
  · cases question with
    | advance => contradiction
    | _ => rfl
  obtain ⟨more, still, fetched⟩ := Source.throughFetched questions start
  rw [run] at still fetched
  have same : t.width = width := still.trans wide
  have count := Source.fetchedCount fetched
  have bound := Source.fetchedBound fetched
  rw [List.nil_append] at count bound
  have filling : ∀ fill ∈ first ++ more, Filling width.size fill := by
    rw [← same]
    exact fillsFilling fetched.filled
  rw [same] at count bound
  refine ⟨first ++ more, fetched.heard, count, bound, fun fill member => ⟨?_, ?_⟩,
    fun before e after split nothing => fillsEnded fetched.filled split nothing⟩
  · rintro rfl
    have positive := width.sizePositive
    have empty := filling [] member
    generalize width.size = missing at empty positive
    cases empty
    contradiction
  · intro before e after split
    have asked := fillingAsked (filling fill member) split
    obtain ⟨some, within⟩ := fillingSizes (filling fill member) e (by simp [split])
    omega

theorem haltingStreamAsked : haltingStream.Gives pairs ['a', 'b', '\n', 'c', 'd'] ∧ ∃ s t fills,
    (Source.ofStream haltingStream pairs "f").prime = (.ok (), s) ∧ s.stream.asked = #[2, 2, 1] ∧
    s.through [.peek, .advance, .advance, .column, .advance] = (['a', 'b', '\n'], t) ∧
    t.stream.asked = #[2, 2, 1, 2, 1] ∧ haltingStream.Heard (List.flatten fills) t.stream ∧ fills.length = 3 ∧
    (givenByAll fills.flatten).length ≤ 7 := by
  have gives : haltingStream.Gives pairs ['a', 'b', '\n', 'c', 'd'] := haltingStreamGives
  obtain ⟨s, primed, reads⟩ := readAheadExact gives "f"
  obtain rfl : (Source.ofStream haltingStream pairs "f").prime.2 = s := congrArg Prod.snd primed
  rcases run : (Source.ofStream haltingStream pairs "f").prime.2.through
    [.peek, .advance, .advance, .column, .advance] with ⟨text, t⟩
  have consumed : text = ['a', 'b', '\n'] := by
    rw [show text = _ from (congrArg Prod.fst run).symm]
    decide +kernel
  have asked : t.stream.asked = #[2, 2, 1, 2, 1] := by
    rw [show t = _ from (congrArg Prod.snd run).symm]
    decide +kernel
  obtain ⟨_, fills, asks, count, bound, _, _⟩ := reads _ text t run
  rw [consumed] at run count bound
  exact ⟨gives, _, t, fills, primed, by decide +kernel, run, asked, asks, count, bound⟩

end WindowLex

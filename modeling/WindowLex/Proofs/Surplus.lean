import WindowLex.Proofs.Computations
import WindowLex.Proofs.Observation
import WindowLex.Proofs.Refills

/-! What becomes of all that a stream gives, whether or not it honours sizes. It is consumed in order or still
held. A window that got more than it can hold is never left, so that what follows it is held back for good. -/
namespace WindowLex

namespace Source

variable {stream : Stream} {width : Width} {text : List Char} {s t : Source} {c : Char}

structure Accounted (stream : Stream) (width : Width) (text : List Char) (s : Source) : Prop where
  framed : s.Framed
  wide : s.width = width
  opened : s.closed = false
  came : ∃ heard, stream.Heard heard s.stream ∧ (∀ e ∈ heard, e.Within width.size) ∧
    givenByAll heard = text ++ s.active.toList.drop s.offset ++ s.standby.toList
  moderate : stream.Moderate → s.Shaped

theorem accountedContained (contained : stream.Contained width.size) (accounted : Accounted stream width text s) :
    s.stream.Contained s.width.size := by
  obtain ⟨heard, asks, within, _⟩ := accounted.came
  rw [accounted.wide]
  exact Stream.containedLater contained asks within

theorem fillContained (contained : s.stream.Contained s.width.size) :
    ∃ text t heard, s.fill = (.ok text, t) ∧ s.Asked (.ok text) t heard := by
  rcases filled : s.fill with ⟨answer, t⟩
  obtain ⟨heard, asked⟩ := fillAsked filled
  cases answer with
  | error fault =>
    have none := escapeContained asked.escape (contained heard _ asked.asks (askedWithin asked))
    contradiction
  | ok text => exact ⟨text, t, heard, rfl, asked⟩

theorem primedAccounted (contained : stream.Contained width.size) (name : String) :
    ∃ s, (ofStream stream width name).prime = (.ok (), s) ∧ Accounted stream width [] s := by
  obtain ⟨active, u, _, filled, asked⟩ := fillContained (s := ofStream stream width name) contained
  have wide : u.width = width := (fillSupplied filled).kept.width
  have between : u.stream.Contained u.width.size := by
    rw [wide]
    exact Stream.containedLater contained asked.asks (askedWithin asked)
  obtain ⟨standby, v, _, filledToo, _⟩ := fillContained (s := { u with active }) between
  have primed : (ofStream stream width name).prime = (.ok (), { v with standby }) := by
    simp only [prime, filled, filledToo]
  obtain ⟨opened, heard, asks, within, came⟩ := primedHeard primed
  have fresh := primedOpened primed
  refine ⟨_, primed, primedFramed ⟨rfl, rfl⟩ primed, fresh.width, opened, ⟨heard, asks, within, ?_⟩,
    fun moderate => primedShaped moderate primed⟩
  rw [came, fresh.start]
  rfl

theorem advanceAccounted (contained : stream.Contained width.size) (accounted : Accounted stream width text s)
    (here : s.current = some c) : Accounted stream width (text ++ [c]) s.advance.2 := by
  have inside := currentInside here
  have advanced := advanceCases here (Prod.eta s.advance).symm
  have stepped := advanceStepped here (Prod.eta s.advance).symm
  have framed := advancedFramed accounted.framed inside advanced
  have moved := advancedMoved advanced
  obtain ⟨heard, asks, within, came⟩ := accounted.came
  refine ⟨framed, moved.width.trans accounted.wide, moved.closed.trans accounted.opened, ?_,
    fun moderate => advancedShaped (accounted.moderate moderate) inside advanced⟩
  rw [passedRest here] at came
  generalize s.advance = r at stepped
  obtain ⟨answer, t⟩ := r
  cases stepped with
  | within more => exact ⟨heard, asks, within, by rw [came]; simp⟩
  | @turned given t last full filled =>
    obtain ⟨later, asked⟩ := fillAsked filled
    have withinToo : ∀ e ∈ later, e.Within s.width.size := askedWithin (s := (s.pass c).turned) asked
    obtain ⟨active, offset, _⟩ := turnedSupplied (fillSupplied filled)
    have spent : s.active.toList.drop (s.offset + 1) = [] := by simpa using Nat.le_of_eq last.symm
    refine ⟨heard ++ later, Stream.heardOn asks asked.asks, ?_, ?_⟩
    · exact List.forall_mem_append.mpr ⟨within, accounted.wide ▸ withinToo⟩
    · rw [givenOn, came, spent, ← asked.came given rfl]
      simp [active, offset]
  | @fell fault t last full filled =>
    have still := accountedContained contained accounted
    obtain ⟨_, _, _, same, _⟩ := fillContained (s := (s.pass c).turned) still
    cases filled.symm.trans same

theorem throughAccounted (contained : stream.Contained width.size) (questions : List Question)
    (accounted : Accounted stream width text s) :
    Accounted stream width (text ++ (s.through questions).1) (s.through questions).2 := by
  induction questions generalizing text s with
  | nil => simpa [through] using accounted
  | cons question rest ih =>
    cases question with
    | advance =>
      have asked : (s.ask .advance).2 = s.advance.2 := by
        rcases advanced : s.advance with ⟨fault | c, t⟩ <;> simp only [ask, advanced]
      cases here : s.current with
      | none =>
        rw [advanceStays here] at asked
        simpa [through, here, asked] using ih accounted
      | some c =>
        have next := ih (advanceAccounted contained accounted here)
        simpa [through, here, asked] using next
    | _ => exact ih accounted

end Source

theorem endWithholdsStandby {stream : Stream} {width : Width} (contained : stream.Contained width.size)
    (name : String) :
    ∃ s, (Source.ofStream stream width name).prime = (.ok (), s) ∧
      ∀ questions text t, s.through questions = (text, t) → t.atEnd = true →
        ∃ heard, stream.Heard heard t.stream ∧ givenByAll heard = text ++ t.standby.toList ∧
          (givenByAll heard = text ↔ t.standby = #[]) ∧ (t.standby ≠ #[] → width.size < t.active.size) ∧
          (stream.Moderate → givenByAll heard = text) := by
  obtain ⟨s, primed, start⟩ := Source.primedAccounted contained name
  refine ⟨s, primed, fun questions text t run done => ?_⟩
  have accounted : Source.Accounted stream width text t := by
    have all := Source.throughAccounted contained questions start
    rwa [run] at all
  have framed := accounted.framed
  have reached : t.active.size ≤ t.offset := by simpa [Source.atEnd, Source.current] using done
  have unspent := framed.unspent (Nat.le_antisymm framed.inside reached)
  obtain ⟨heard, asks, _, came⟩ := accounted.came
  have spent : t.active.toList.drop t.offset = [] := by simpa using reached
  rw [spent, List.append_nil] at came
  refine ⟨heard, asks, came, ?_, fun more => ?_, fun moderate => ?_⟩
  · simp [came]
  · have full : ¬ t.active.size < t.width.size := fun less => more (framed.last less)
    rw [← accounted.wide]; omega
  · have short := Source.shapedEnd (accounted.moderate moderate) done
    rw [came, framed.last short.2, Array.toList_empty, List.append_nil]

def surplusStream : Stream where
  script := [.whole ['a', 'b', 'c'], .piece ['d', 'e']]

theorem surplusContained : surplusStream.Contained pairs.size :=
  Stream.scriptContained rfl (by simp [surplusStream, Reply.faults])

theorem surplusWithheld : surplusStream.Contained pairs.size ∧ ∃ s t heard,
    (Source.ofStream surplusStream pairs).prime = (.ok (), s) ∧
    s.through [.advance, .advance, .advance] = (['a', 'b', 'c'], t) ∧ t.atEnd = true ∧
    t.standby = #['d', 'e'] ∧ surplusStream.Heard heard t.stream ∧
    givenByAll heard = ['a', 'b', 'c'] ++ t.standby.toList ∧ pairs.size < t.active.size := by
  obtain ⟨s, primed, ends⟩ := endWithholdsStandby surplusContained anonymous
  obtain rfl : (Source.ofStream surplusStream pairs).prime.2 = s := congrArg Prod.snd primed
  rcases run : (Source.ofStream surplusStream pairs).prime.2.through [.advance, .advance, .advance] with ⟨text, t⟩
  have consumed : text = ['a', 'b', 'c'] := by
    rw [show text = _ from (congrArg Prod.fst run).symm]
    decide +kernel
  have done : t.atEnd = true := by
    rw [show t = _ from (congrArg Prod.snd run).symm]
    decide +kernel
  have standby : t.standby = #['d', 'e'] := by
    rw [show t = _ from (congrArg Prod.snd run).symm]
    decide +kernel
  obtain ⟨heard, asks, came, _, more, _⟩ := ends _ text t run done
  rw [consumed] at run came
  exact ⟨surplusContained, _, t, heard, primed, run, done, standby, asks, came, more (by simp [standby])⟩

theorem surplusUndelivered : (∀ heard t, surplusStream.Heard heard t → ∀ e ∈ heard, ∃ text, e.answer = .ok text) ∧
    ∃ s t, (Source.ofStream surplusStream pairs).prime = (.ok (), s) ∧
      s.through [.advance, .advance, .advance] = (['a', 'b', 'c'], t) ∧ t.atEnd = true ∧ t.closed = false ∧
      t.readError = none ∧
      surplusStream.Heard [⟨2, .ok ['a', 'b', 'c']⟩, ⟨2, .ok ['d', 'e']⟩] t.stream := by
  have stream : ((Source.ofStream surplusStream pairs).prime.2.through [.advance, .advance, .advance]).2.stream =
      ((surplusStream.read 2).2.read 2).2 := by decide +kernel
  refine ⟨fun heard t asks e member => ?_, _, _, Prod.ext ?_ rfl, Prod.ext ?_ rfl, ?_, ?_, ?_, ?_⟩
  · cases answer : e.answer with
    | error fault =>
      have member := Stream.heardFault asks (fun _ _ => rfl) e member fault answer
      simp [surplusStream, Reply.faults] at member
    | ok text => exact ⟨text, rfl⟩
  · decide +kernel
  · decide +kernel
  · decide +kernel
  · decide +kernel
  · decide +kernel
  · rw [stream]
    exact .next rfl (.next rfl .nothing)

end WindowLex

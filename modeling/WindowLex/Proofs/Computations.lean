import WindowLex.Lexer
import WindowLex.Proofs.Advances
import WindowLex.Proofs.Exchanges

/-! Computations over a source. Walks, the scan of a lexeme and pulls move it in one way only: by advances, up
to the first from which a fault escapes. What one advance keeps, and what it asks of the stream, is therefore
told for all of them at once. -/
namespace WindowLex

namespace Source
open Lexical

/- Advances one after another and what they consume. The fault that has escaped from one ends them. -/
inductive Paced : Source → List Char → Option Fault → Source → Prop where
  | stay {s : Source} : Paced s [] none s
  | on {s t u : Source} {c : Char} {text f} (here : s.current = some c) (advanced : s.advance = (.ok (some c), t))
      (rest : Paced t text f u) : Paced s (c :: text) f u
  | fell {s t : Source} {c : Char} {fault : Fault} (here : s.current = some c)
      (advanced : s.advance = (.error fault, t)) : Paced s [c] (some fault) t
  | noted {s t : Source} {event text f} (rest : Paced (s.note event) text f t) : Paced s text f t

def Computed {α : Type} (s : Source) (r : Except Fault α × Source) : Prop :=
  ∃ text, s.Paced text (faultOf r.1) r.2

variable {s t u : Source} {first second text : List Char} {f : Option Fault} {α β : Type}

theorem pacedOn (left : s.Paced first none t) (right : t.Paced second f u) : s.Paced (first ++ second) f u := by
  generalize none : (none : Option Fault) = g at left
  induction left with
  | stay => exact right
  | on here advanced rest ih => exact .on here advanced (ih right none)
  | fell => contradiction
  | noted rest ih => exact .noted (ih right none)

theorem pacedNoted (paced : s.Paced text none t) (event : Event) : s.Paced text none (t.note event) := by
  have noted : t.Paced [] none (t.note event) := .noted .stay
  have both := pacedOn paced noted
  rwa [List.append_nil] at both

theorem pacedWalked (paced : s.Paced text f t) :
    s.Walked text f.toList.length t ∧ (f ≠ none → text ≠ []) := by
  induction paced with
  | stay => exact ⟨.stay, nofun⟩
  | on here advanced rest ih =>
    have walk := Walked.on here advanced ih.1
    rw [raisedBy, Nat.zero_add] at walk
    exact ⟨walk, fun _ => by simp⟩
  | fell here advanced => exact ⟨.on here advanced .stay, fun _ => by simp⟩
  | noted rest ih => exact ⟨.noted ih.1, ih.2⟩

theorem computedStay (s : Source) (a : α) : s.Computed (.ok a, s) := ⟨[], .stay⟩

theorem computedOn {r : Except Fault α × Source} (paced : s.Paced first none t) (rest : t.Computed r) :
    s.Computed r := by
  obtain ⟨second, more⟩ := rest
  exact ⟨first ++ second, pacedOn paced more⟩

theorem advanceComputed (s : Source) : s.Computed s.advance := by
  cases here : s.current with
  | none =>
    rw [advanceStays here]
    exact computedStay s none
  | some c =>
    rcases advanced : s.advance with ⟨fault | d, t⟩
    · exact ⟨[c], .fell here advanced⟩
    · cases advanceYields here advanced
      exact ⟨[c], .on here advanced .stay⟩

/- Relations between sources, and the fault that ends the way from one to the other. They hold of every single
advance, and of ways that are put together. -/
structure Composes (R : Source → Option Fault → Source → Prop) : Prop where
  stay : ∀ s, R s none s
  advance : ∀ s, R s (faultOf s.advance.1) s.advance.2
  on : ∀ {s t u f}, R s none t → R t f u → R s f u

section
variable {R : Source → Option Fault → Source → Prop} (composes : Composes R)
include composes

theorem andThenComposes {step : Except Fault α × Source} {next : α → Source → Except Fault β × Source}
    (first : R s (faultOf step.1) step.2) (rest : ∀ a t, R t (faultOf (next a t).1) (next a t).2) :
    R s (faultOf (andThen step next).1) (andThen step next).2 := by
  obtain ⟨answer, t⟩ := step
  cases answer with
  | error fault => exact first
  | ok a => exact composes.on first (rest a t)

theorem takeWhileComposes (s : Source) (p : Char → Bool) (taken : List Char) :
    R s (faultOf (s.takeWhile p taken).1) (s.takeWhile p taken).2 := by
  fun_induction takeWhile s p taken with
  | case1 s taken more fault t advanced | case2 s taken more t advanced =>
    have step := composes.advance s
    rwa [advanced] at step
  | case3 s taken more c t advanced ih =>
    have step := composes.advance s
    rw [advanced] at step
    exact composes.on step ih
  | case4 s taken stop => exact composes.stay s

theorem scanComposes (s : Source) (c : Config) (first : Char) :
    R s (faultOf (s.scan c first).1) (s.scan c first).2 := by
  have stay {α : Type} (s : Source) (a : α) : R s (faultOf (.ok a : Except Fault α)) s := composes.stay s
  unfold scan
  split
  · exact andThenComposes composes (takeWhileComposes composes ..) fun _ t => stay t _
  split
  · exact andThenComposes composes (takeWhileComposes composes ..) fun _ t => stay t _
  split
  · refine andThenComposes composes (composes.advance s) fun _ t =>
      andThenComposes composes (takeWhileComposes composes t ..) fun _ u => ?_
    split
    · exact stay u _
    · exact andThenComposes composes (composes.advance u) fun _ v => stay v _
  split
  · exact andThenComposes composes (composes.advance s) fun _ t =>
      andThenComposes composes (composes.advance t) fun _ u =>
      andThenComposes composes (takeWhileComposes composes u ..) fun _ v => stay v _
  split
  · refine andThenComposes composes (composes.advance s) fun _ t => ?_
    split
    · exact andThenComposes composes (composes.advance t) fun _ u => stay u _
    · exact stay t _
  · exact andThenComposes composes (composes.advance s) fun _ t => stay t _

end

theorem pacedComposes : Composes fun s f t => ∃ text, s.Paced text f t where
  stay s := ⟨[], .stay⟩
  advance := advanceComputed
  on := by
    rintro s t u f ⟨text, left⟩ ⟨more, right⟩
    exact ⟨text ++ more, pacedOn left right⟩

theorem takeWhileComputed (s : Source) (p : Char → Bool) (taken : List Char) :
    s.Computed (s.takeWhile p taken) := takeWhileComposes pacedComposes s p taken

theorem scanComputed (s : Source) (c : Config) (first : Char) : s.Computed (s.scan c first) :=
  scanComposes pacedComposes s c first

structure Asked (s : Source) (answer : Except Fault (Array Char)) (t : Source) (heard : List Exchange) : Prop where
  asks : s.stream.Heard heard t.stream
  escape : Escape heard (faultOf answer)
  idle : s.exhausted = true ∨ s.closed = true → heard = []
  filling : s.exhausted = false → s.closed = false → Filling s.width.size heard
  came : ∀ text, answer = .ok text → text.toList = givenByAll heard
  short : ∀ text, answer = .ok text → s.exhausted = false → s.closed = false → t.exhausted = true →
    text.size < s.width.size

theorem fillAsked {answer : Except Fault (Array Char)} (filled : s.fill = (answer, t)) :
    ∃ heard, s.Asked answer t heard := by
  unfold fill at filled
  split at filled
  · rename_i stops
    cases filled
    refine ⟨[], .nothing, .none (List.forall_mem_nil _), fun _ => rfl, fun more opened => ?_, ?_,
      fun _ _ more opened => ?_⟩
    · simp [more, opened] at stops
    · simp [givenByAll]
    · simp [more, opened] at stops
  · rename_i goes
    obtain ⟨more, opened⟩ : s.exhausted = false ∧ s.closed = false := by simpa using goes
    have busy : ¬(s.exhausted = true ∨ s.closed = true) := by simp [more, opened]
    split at filled
    · rename_i gathered
      cases filled
      obtain ⟨heard, asks, filling, escape, _⟩ := Stream.gatherObtained gathered
      exact ⟨heard, asks, escape, fun idle => absurd idle busy, fun _ _ => filling, by simp, by simp⟩
    · rename_i given cut stream gathered
      cases filled
      obtain ⟨heard, asks, filling, escape, came⟩ := Stream.gatherObtained gathered
      obtain ⟨whole, cuts⟩ := came given cut rfl
      have streamed : (s.gathered stream cut given.length).stream = stream := (s.gatheredStream ..).1
      have exhausted := s.gatheredExhausted stream cut given.length
      rw [List.nil_append] at whole
      refine ⟨heard, streamed.symm ▸ asks, escape, fun idle => absurd idle busy, fun _ _ => filling, ?_, ?_⟩
      · intro text same
        cases same
        exact whole
      · intro text same _ _ done
        cases same
        rw [show (s.gathered stream cut given.length).exhausted = true from done, more] at exhausted
        cases cut with
        | none => simpa using exhausted
        | some fault => simpa [whole] using cuts (by simp)

theorem askedWithin {answer : Except Fault (Array Char)} {heard : List Exchange}
    (asked : s.Asked answer t heard) : ∀ e ∈ heard, e.Within s.width.size := by
  cases done : s.exhausted with
  | true => simp [asked.idle (.inl done)]
  | false =>
    cases closed : s.closed with
    | true => simp [asked.idle (.inr closed)]
    | false => exact fillingSizes (asked.filling done closed)

structure Moved (s : Source) (t : Source) : Prop where
  width : t.width = s.width
  closed : t.closed = s.closed

theorem steppedAsked {c : Char} {answer : Except Fault (Option Char)} (stepped : s.Stepped c answer t) :
    ∃ heard, s.stream.Heard heard t.stream ∧ Escape heard (faultOf answer) ∧
      (∀ e ∈ heard, e.Within s.width.size) ∧
      (s.closed = true → heard = []) := by
  cases stepped with
  | within more => exact ⟨[], .nothing, .none nofun, nofun, fun _ => rfl⟩
  | turned last full filled =>
    obtain ⟨heard, asked⟩ := fillAsked filled
    exact ⟨heard, asked.asks, asked.escape, askedWithin (s := (s.pass c).turned) asked,
      fun closed => asked.idle (.inr closed)⟩
  | fell last full filled =>
    obtain ⟨heard, asked⟩ := fillAsked filled
    exact ⟨heard, asked.asks, asked.escape, askedWithin (s := (s.pass c).turned) asked,
      fun closed => asked.idle (.inr closed)⟩

theorem advancedMoved {c : Char} {answer : Except Fault (Option Char)} (advanced : s.Advanced c answer t) :
    s.Moved t := by
  cases advanced with
  | within more => exact ⟨rfl, rfl⟩
  | turned last full supplied => exact ⟨supplied.kept.width, supplied.closed⟩
  | fell last full starved =>
    rw [starved.stream]
    exact ⟨rfl, rfl⟩

theorem pacedMoved (paced : s.Paced text f t) : s.Moved t := by
  induction paced with
  | stay => exact ⟨rfl, rfl⟩
  | on here advanced rest ih =>
    have step := advancedMoved (advanceCases here advanced)
    exact ⟨ih.width.trans step.width, ih.closed.trans step.closed⟩
  | fell here advanced => exact advancedMoved (advanceCases here advanced)
  | noted rest ih => exact ⟨ih.width, ih.closed⟩

/- The requests of a computation. The fault that has escaped from it is the answer to the last of them. -/
theorem pacedHeard (paced : s.Paced text f t) : ∃ heard, s.stream.Heard heard t.stream ∧ Escape heard f ∧
    (∀ e ∈ heard, e.Within s.width.size) ∧ (s.closed = true → heard = []) := by
  induction paced with
  | stay => exact ⟨[], .nothing, .none nofun, nofun, fun _ => rfl⟩
  | on here advanced rest ih =>
    have moved := advancedMoved (advanceCases here advanced)
    obtain ⟨first, asks, contained, within, idle⟩ := steppedAsked (advanceStepped here advanced)
    obtain ⟨later, asksToo, escape, withinToo, idleToo⟩ := ih
    rw [moved.width] at withinToo
    refine ⟨first ++ later, Stream.heardOn asks asksToo, escapeOn (escapeNone contained) escape,
      List.forall_mem_append.mpr ⟨within, withinToo⟩, fun done => ?_⟩
    rw [idle done, idleToo (moved.closed.trans done), List.nil_append]
  | fell here advanced => exact steppedAsked (advanceStepped here advanced)
  | noted rest ih => exact ih

theorem pacedFramed (framed : s.Framed) (paced : s.Paced text f t) : t.Framed := by
  induction paced with
  | stay => exact framed
  | on here advanced rest ih => exact ih (advancedFramed framed (currentInside here) (advanceCases here advanced))
  | fell here advanced => exact advancedFramed framed (currentInside here) (advanceCases here advanced)
  | noted rest ih => exact ih { framed with }

theorem primedHeard {stream : Stream} {width : Width} {name : String}
    (primed : (ofStream stream width name).prime = (.ok (), t)) : t.closed = false ∧ ∃ heard,
      stream.Heard heard t.stream ∧ (∀ e ∈ heard, e.Within width.size) ∧
      givenByAll heard = t.active.toList ++ t.standby.toList := by
  obtain ⟨u, v, filled, filledToo, rest⟩ := primeFilled primed
  obtain ⟨first, asked⟩ := fillAsked filled
  obtain ⟨second, askedToo⟩ := fillAsked filledToo
  have kept := fillSupplied filled
  have keptToo := fillSupplied filledToo
  have wide : u.width = width := kept.kept.width
  have within : ∀ e ∈ second, e.Within u.width.size := askedWithin (s := { u with active := t.active }) askedToo
  have closed : t.closed = v.closed := by rw [rest]
  have stream : t.stream = v.stream := by rw [rest]
  refine ⟨closed.trans (keptToo.closed.trans kept.closed), first ++ second, ?_, ?_, ?_⟩
  · rw [stream]
    exact Stream.heardOn asked.asks askedToo.asks
  · exact List.forall_mem_append.mpr ⟨askedWithin asked, wide ▸ within⟩
  · rw [givenOn, ← asked.came t.active rfl, ← askedToo.came t.standby rfl]

end Source

namespace Lexer

variable {l : Lexer} {s : Source} {text : List Char}

theorem recordCutPaced (paced : s.Paced text none l.source) (lexeme : Lexeme) (start : Position) :
    s.Paced text none (l.recordCut lexeme start).source := by
  unfold recordCut
  split
  · exact Source.pacedNoted paced _
  · exact paced

theorem reachEndPaced (paced : s.Paced text none l.source) : s.Paced text none l.reachEnd.source := by
  unfold reachEnd
  split
  · exact paced
  · exact Source.pacedNoted paced _

theorem nextComputed (l : Lexer) : l.source.Computed (l.next.1, l.next.2.source) := by
  have gap := Source.takeWhileComputed l.source Lexical.isGap []
  unfold next
  split
  · rename_i skipped
    rw [skipped] at gap
    exact gap
  · rename_i text s skipped
    rw [skipped] at gap
    obtain ⟨before, paced⟩ := gap
    split
    · exact ⟨before, Source.pacedNoted (reachEndPaced (l := { l with source := s }) paced) _⟩
    · rename_i first here
      have lexeme := Source.computedOn paced (Source.scanComputed s l.config first)
      split
      · rename_i scanned
        rw [scanned] at lexeme
        exact lexeme
      · rename_i rest scanned
        rw [scanned] at lexeme
        obtain ⟨all, through⟩ := lexeme
        exact ⟨all, Source.pacedNoted (recordCutPaced (l := { l with source := rest }) through ..) _⟩

theorem nextFellSource {fault : Fault} (fell : l.next.1 = .error fault) :
    l.next.2 = { l with source := l.next.2.source } := by
  unfold next at fell ⊢
  split at fell
  · rfl
  · split at fell
    · cases fell
    · split at fell
      · rfl
      · cases fell

theorem tokensFromComputed (l : Lexer) (taken : List Token) :
    l.source.Computed ((l.tokensFrom taken).1, (l.tokensFrom taken).2.source) := by
  fun_induction tokensFrom l taken with
  | case1 l taken fault m pulled =>
    have computed := nextComputed l
    rwa [pulled] at computed
  | case2 l taken token m pulled isEnd =>
    have computed := nextComputed l
    rwa [pulled] at computed
  | case3 l taken token m pulled goes ih =>
    have computed := nextComputed l
    rw [pulled] at computed
    obtain ⟨text, paced⟩ := computed
    exact Source.computedOn paced ih

theorem takeFromComputed (l : Lexer) (taken : List Token) (more : Nat) :
    l.source.Computed ((l.takeFrom taken more).1, (l.takeFrom taken more).2.source) := by
  induction more generalizing l taken with
  | zero =>
    have computed := nextComputed l
    rcases pulled : l.next with ⟨fault | token, m⟩
    all_goals
      rw [pulled] at computed
      simp only [takeFrom, pulled]
      exact computed
  | succ more ih =>
    have computed := nextComputed l
    rcases pulled : l.next with ⟨fault | token, m⟩
    · rw [pulled] at computed
      simp only [takeFrom, pulled]
      exact computed
    · rw [pulled] at computed
      obtain ⟨text, paced⟩ := computed
      simp only [takeFrom, pulled]
      split
      · exact ⟨text, paced⟩
      · exact Source.computedOn paced (ih m (token :: taken))

end Lexer

end WindowLex

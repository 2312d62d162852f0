import WindowLex.Proofs.Ownership

/-! Faults that escape from a pull. Only the stream raises them, and only in a request made for that very pull;
the books of the lexer are then as they were before. -/
namespace WindowLex

namespace Source

variable {stream : Stream} {width : Width} {s : Source}

theorem pacedContained {t : Source} {text : List Char} {f : Option Fault} (owned : Owned stream width s)
    (contained : stream.Contained width.size) (paced : s.Paced text f t) : f = none := by
  obtain ⟨heard, asks, escape, within, idle⟩ := pacedHeard paced
  refine escapeContained escape ?_
  cases closed : s.closed with
  | true => simp [idle closed]
  | false =>
    obtain ⟨before, asksBefore, withinBefore⟩ := owned.asked closed
    rw [owned.wide] at within
    exact Stream.containedLater contained asksBefore withinBefore heard _ asks within

theorem computedContained {α : Type} {r : Except Fault α × Source} (owned : Owned stream width s)
    (contained : stream.Contained width.size) (computed : s.Computed r) : ∃ a, r.1 = .ok a := by
  obtain ⟨text, paced⟩ := computed
  have none := pacedContained owned contained paced
  rcases r with ⟨fault | a, t⟩
  · contradiction
  · exact ⟨a, rfl⟩

end Source

theorem pullsFailWithStream {stream : Stream} {width : Width} {name : String} {c : Config} {l : Lexer}
    (started : Lexer.start (.ofStream stream width name) c = (.ok (), l)) (operations : List Operation) :
    ∃ outcomes s, Session.perform { lexer := l } operations = (outcomes, s) ∧
      (∃ heard, s.lexer.source.stream.Heard heard s.lexer.next.2.source.stream ∧
        ∀ fault, s.lexer.next.1 = .error fault ↔
          fault.endsInput = false ∧ ∃ e ∈ heard, e.answer = .error fault) ∧
      (∀ fault, s.lexer.next.1 = .error fault →
        s.lexer.next.2 = { s.lexer with source := s.lexer.next.2.source } ∧
        s.lexer.next.2.source.closed = false ∧ s.lexer.next.2.source.stream.closings = stream.closings) ∧
      (stream.Contained width.size → (∃ token, s.lexer.next.1 = .ok token) ∧
        ∀ action, ∃ given, (s.act action).1 = .ok given) := by
  have owned := (Session.startedOwned started operations).1
  rcases performed : Session.perform { lexer := l } operations with ⟨outcomes, s⟩
  rw [performed] at owned
  obtain ⟨text, paced⟩ := Lexer.nextComputed s.lexer
  obtain ⟨heard, asks, escape, _, idle⟩ := Source.pacedHeard paced
  have later := Source.pacedOwned owned paced
  have exact : ∀ fault, s.lexer.next.1 = .error fault ↔
      fault.endsInput = false ∧ ∃ e ∈ heard, e.answer = .error fault := by
    intro fault
    rw [← escapeExact escape fault]
    cases s.lexer.next.1 <;> simp [faultOf]
  refine ⟨outcomes, s, rfl, ⟨heard, asks, exact⟩, fun fault fell => ⟨Lexer.nextFellSource fell, ?_⟩,
    fun contained => ⟨?_, fun action => ?_⟩⟩
  · have opened : s.lexer.source.closed = false := by
      refine Bool.eq_false_iff.mpr fun closed => ?_
      obtain ⟨_, e, member, _⟩ := (exact fault).mp fell
      rw [idle closed] at member
      contradiction
    have still : s.lexer.next.2.source.closed = false := (Source.pacedMoved paced).closed.trans opened
    have closings := later.closings
    simp only [still] at closings
    exact ⟨still, closings⟩
  · exact Source.computedContained owned contained (Lexer.nextComputed s.lexer)
  · exact Source.computedContained owned contained (Session.actComputed s action)

theorem brokenContained : brokenStream.Contained Config.narrow.width.size :=
  Stream.scriptContained rfl (by decide)

theorem stubbornStreamFails :
    (∃ l s heard, Lexer.start (.ofStream stubbornStream Config.narrow.width "f") .narrow = (.ok (), l) ∧
      Session.perform { lexer := l } [.act .clear, .ask .peek] =
        ([.tokens (.ok []), .answer (.character (some ')'))], s) ∧
      s.lexer.next.1 = .error ⟨.other, "boom"⟩ ∧
      s.lexer.source.stream.Heard heard s.lexer.next.2.source.stream ∧
      (∃ e ∈ heard, e.answer = .error ⟨.other, "boom"⟩) ∧
      s.lexer.next.2 = { s.lexer with source := s.lexer.next.2.source } ∧
      s.lexer.next.2.source.closed = false ∧ s.lexer.next.2.source.stream.closings = 0) ∧
    brokenStream.Contained Config.narrow.width.size ∧
    ∃ l s given, Lexer.start (.ofStream brokenStream Config.narrow.width "f") .narrow = (.ok (), l) ∧
      Session.perform { lexer := l } [.act (.upTo 2)] =
        ([.tokens (.ok [⟨.identifier, "x", ⟨1, 1⟩, "f"⟩, ⟨.operator, ">=", ⟨1, 2⟩, "f"⟩])], s) ∧
      (s.act .exhaust).1 = .ok given := by
  have started : Lexer.start (.ofStream stubbornStream Config.narrow.width "f") .narrow =
      (.ok (), (Lexer.start (.ofStream stubbornStream Config.narrow.width "f") .narrow).2) :=
    Prod.ext (by decide +kernel) rfl
  have startedToo : Lexer.start (.ofStream brokenStream Config.narrow.width "f") .narrow =
      (.ok (), (Lexer.start (.ofStream brokenStream Config.narrow.width "f") .narrow).2) :=
    Prod.ext (by decide +kernel) rfl
  obtain ⟨outcomes, s, performed, ⟨heard, asks, exact⟩, clean, _⟩ :=
    pullsFailWithStream started [.act .clear, .ask .peek]
  obtain ⟨outcomesToo, t, performedToo, _, _, contained⟩ := pullsFailWithStream startedToo [.act (.upTo 2)]
  have first : outcomes = [.tokens (.ok []), .answer (.character (some ')'))] := by
    rw [show outcomes = _ from (congrArg Prod.fst performed).symm]
    decide +kernel
  have fell : s.lexer.next.1 = .error ⟨.other, "boom"⟩ := by
    rw [show s = _ from (congrArg Prod.snd performed).symm]
    decide +kernel
  have second : outcomesToo =
      [.tokens (.ok [⟨.identifier, "x", ⟨1, 1⟩, "f"⟩, ⟨.operator, ">=", ⟨1, 2⟩, "f"⟩])] := by
    rw [show outcomesToo = _ from (congrArg Prod.fst performedToo).symm]
    decide +kernel
  obtain ⟨given, acted⟩ := (contained brokenContained).2 .exhaust
  obtain ⟨same, opened, closings⟩ := clean _ fell
  exact ⟨⟨_, s, heard, started, first ▸ performed, fell, asks, ((exact _).mp fell).2, same, opened, closings⟩,
    brokenContained, _, t, given, startedToo, second ▸ performedToo, acted⟩

end WindowLex

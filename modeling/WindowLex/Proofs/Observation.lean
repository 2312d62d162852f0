import WindowLex.Proofs.Places
import WindowLex.Proofs.Windows

/-! What can be asked of a source, and of a cursor over the delivered text. Both give the same answers to
every sequence of questions: neither the width of the windows nor the pieces of the stream show. -/
namespace WindowLex

inductive Question where
  | current | peek | advance | atEnd | line | column | location
  deriving DecidableEq, Repr

inductive Answer where
  | character (c : Option Char)
  | truth (value : Bool)
  | number (value : Int)
  | place (location : Location)
  | fault (fault : Fault)
  deriving DecidableEq, Repr

def Source.ask (s : Source) : Question → Answer × Source
  | .current => (.character s.current, s)
  | .peek => (.character s.peek, s)
  | .advance => match s.advance with
    | (.ok c, s) => (.character c, s)
    | (.error fault, s) => (.fault fault, s)
  | .atEnd => (.truth s.atEnd, s)
  | .line => (.number s.position.line, s)
  | .column => (.number s.position.column, s)
  | .location => (.place s.location, s)

def Source.through (s : Source) : List Question → List Char × Source
  | [] => ([], s)
  | question :: rest =>
    let (text, t) := (s.ask question).2.through rest
    ((if question = .advance then s.current.toList else []) ++ text, t)

def Text.Cursor.ask (name : String) (c : Text.Cursor) : Question → Answer × Text.Cursor
  | .current => (.character c.current, c)
  | .peek => (.character c.peek, c)
  | .advance => (.character c.advance.1, c.advance.2)
  | .atEnd => (.truth c.atEnd, c)
  | .line => (.number c.line, c)
  | .column => (.number c.column, c)
  | .location => (.place ⟨name, c.position⟩, c)

def answers {σ : Type} (ask : σ → Question → Answer × σ) : σ → List Question → List Answer
  | _, [] => []
  | s, question :: rest => (ask s question).1 :: answers ask (ask s question).2 rest

structure Follows (name : String) (s : Source) (c : Text.Cursor) : Prop where
  sound : s.Sound
  ahead : s.ahead = c.text.drop c.index
  inside : c.index ≤ c.text.length
  position : s.position = c.position
  name : s.name = name

theorem followsCurrent {name : String} {s : Source} {c : Text.Cursor} (follows : Follows name s c) :
    s.current = c.current := by
  rw [Source.currentAhead follows.sound, follows.ahead, List.head?_drop]
  rfl

theorem followsPeek {name : String} {s : Source} {c : Text.Cursor} (follows : Follows name s c) :
    s.peek = c.peek := by
  rw [Source.peekAhead follows.sound, follows.ahead, List.getElem?_drop]
  rfl

theorem followsAtEnd {name : String} {s : Source} {c : Text.Cursor} (follows : Follows name s c) :
    s.atEnd = c.atEnd := by
  rw [Source.atEnd, followsCurrent follows, Text.Cursor.current, Text.Cursor.atEnd]
  have inside := follows.inside
  by_cases done : c.index = c.text.length
  · simp [done]
  · simp [done, Nat.lt_of_le_of_ne inside done]

theorem followsAdvance {name : String} {s : Source} {c : Text.Cursor} (follows : Follows name s c) :
    ∃ s', s.advance = (.ok c.advance.1, s') ∧ Follows name s' c.advance.2 := by
  cases here : c.current with
  | none =>
    have done : s.ahead = [] := by
      rw [follows.ahead]
      simpa [Text.Cursor.current] using here
    simp only [Text.Cursor.advance, here]
    exact ⟨s, Source.advanceDone follows.sound done, follows⟩
  | some x =>
    obtain ⟨inside, rfl⟩ := List.getElem?_eq_some_iff.mp here
    have next : s.ahead = c.text[c.index] :: c.text.drop (c.index + 1) := by
      rw [follows.ahead, List.drop_eq_getElem_cons inside]
    obtain ⟨s', advanced, passed⟩ := Source.advancePassed follows.sound next
    simp only [Text.Cursor.advance, here]
    refine ⟨s', advanced, passed.sound, ?_, inside, ?_, passed.name.trans follows.name⟩
    · have rest := passed.ahead
      rw [next] at rest
      exact (List.cons.inj rest).2.symm
    · rw [passed.position, follows.position, Text.Cursor.positionCounted, Text.Cursor.positionCounted,
        ← Position.afterAppend]
      simp [Text.Cursor.before]

theorem followsAsked {name : String} {s : Source} {c : Text.Cursor} (follows : Follows name s c)
    (question : Question) : (s.ask question).1 = (c.ask name question).1 ∧
      Follows name (s.ask question).2 (c.ask name question).2 := by
  have line : s.position.line = c.line := by rw [follows.position]; rfl
  have column : s.position.column = c.column := by rw [follows.position]; rfl
  cases question with
  | current => exact ⟨congrArg Answer.character (followsCurrent follows), follows⟩
  | peek => exact ⟨congrArg Answer.character (followsPeek follows), follows⟩
  | advance =>
    obtain ⟨s', advanced, later⟩ := followsAdvance follows
    have asked : s.ask .advance = (.character c.advance.1, s') := by simp only [Source.ask, advanced]
    rw [asked]
    exact ⟨rfl, later⟩
  | atEnd => exact ⟨congrArg Answer.truth (followsAtEnd follows), follows⟩
  | line => exact ⟨congrArg Answer.number line, follows⟩
  | column => exact ⟨congrArg Answer.number column, follows⟩
  | location =>
    refine ⟨?_, follows⟩
    simp only [Source.ask, Text.Cursor.ask, Source.location, follows.name, follows.position]

theorem followsAnswers {name : String} {s : Source} {c : Text.Cursor} (follows : Follows name s c)
    (questions : List Question) :
    answers Source.ask s questions = answers (Text.Cursor.ask name) c questions := by
  induction questions generalizing s c with
  | nil => rfl
  | cons question rest ih =>
    obtain ⟨same, later⟩ := followsAsked follows question
    rw [answers, answers, same, ih later]

theorem primedFollows {stream : Stream} {width : Width} {text : List Char}
    (gives : stream.Gives width text) (name : String) :
    ∃ s, (Source.ofStream stream width name).prime = (.ok (), s) ∧ Follows name s ⟨text, 0⟩ := by
  obtain ⟨s, primed, passed⟩ := Source.openedPassed gives name
  have ahead : s.ahead = text := passed.ahead.symm.trans gives.whole
  exact ⟨s, primed, passed.sound, ahead, Nat.zero_le _, passed.position, passed.name⟩

/- The stream may give its text in any pieces and end it in any way that does not escape. The first read
that gives nothing or fails is the end of the text that the cursor goes over. -/
theorem windowsAnswerLikeText {stream : Stream} {width : Width} {text : List Char}
    (gives : stream.Gives width text) (name : String) :
    ∃ s, (Source.ofStream stream width name).prime = (.ok (), s) ∧
      ∀ questions, answers Source.ask s questions =
        answers (Text.Cursor.ask name) ⟨text, 0⟩ questions := by
  obtain ⟨s, primed, follows⟩ := primedFollows gives name
  exact ⟨s, primed, followsAnswers follows⟩

def haltingStream : Stream where
  script := [.piece ['a', 'b', '\n'], .piece ['c', 'd'], .failure ⟨.system, "gone"⟩, .piece ['e']]
  portion := some 2

theorem haltingStreamGives {width : Width} : haltingStream.Gives width ['a', 'b', '\n', 'c', 'd'] :=
  Stream.scriptGives (by decide) (by simp [Stream.Sizeless, haltingStream]) (by simp [haltingStream]) rfl

theorem haltingStreamAnswers :
    haltingStream.Gives (.count 3 (by decide)) ['a', 'b', '\n', 'c', 'd'] ∧
    ∃ s, (Source.ofStream haltingStream (.count 3 (by decide)) "f").prime = (.ok (), s) ∧
      answers Source.ask s
        [.advance, .advance, .peek, .advance, .location, .advance, .column, .advance, .atEnd, .advance] =
        [.character (some 'a'), .character (some 'b'), .character (some 'c'), .character (some '\n'),
          .place ⟨"f", 2, 1⟩, .character (some 'c'), .number 2, .character (some 'd'), .truth true,
          .character none] := by
  have gives : haltingStream.Gives (.count 3 (by decide)) ['a', 'b', '\n', 'c', 'd'] := haltingStreamGives
  obtain ⟨s, primed, same⟩ := windowsAnswerLikeText gives "f"
  refine ⟨gives, s, primed, ?_⟩
  rw [same]
  decide

end WindowLex

import WindowLex.Proofs.Ownership

/-! What closing leaves. A closed source holds no characters, so nothing moves it any more. It tells forever the
place where the cursor stood, and the lexer over it gives out the end of the input there. -/
namespace WindowLex

def Source.lastToken (s : Source) : Token := ⟨.endOfInput, Token.endLexeme, s.position, s.name⟩

namespace Lexer

variable {l : Lexer}

theorem nextNothing (done : l.source.current = none) : l.next.1 = .ok l.source.lastToken := by
  have skipped : l.source.takeWhile Lexical.isGap [] = (.ok [], l.source) := by
    rw [Source.takeWhile]
    simp [done]
  rw [next, skipped]
  simp only [done]
  unfold reachEnd
  split <;> rfl

theorem tokensFromNothing (done : l.source.current = none) (taken : List Token) :
    (l.tokensFrom taken).1 = .ok (taken.reverse ++ [l.source.lastToken]) := by
  have pulled := nextNothing done
  rcases here : l.next with ⟨answer, l'⟩
  obtain rfl : answer = .ok l.source.lastToken := by simpa [here] using pulled
  rw [tokensFrom, here]
  simp [Source.lastToken, Token.isEnd]

theorem takeFromNothing (done : l.source.current = none) (taken : List Token) (more : Nat) :
    (l.takeFrom taken more).1 = .ok (taken.reverse ++ [l.source.lastToken]) := by
  have pulled := nextNothing done
  rcases here : l.next with ⟨answer, l'⟩
  obtain rfl : answer = .ok l.source.lastToken := by simpa [here] using pulled
  cases more with
  | zero | succ more => simp [takeFrom, here, Source.lastToken, Token.isEnd]

end Lexer

def Action.pulls : Action → Bool
  | .pull | .locate | .exhaust | .upTo _ => true
  | .beginScan | .resumeScan _ | .report | .clear | .keep _ => false

def Question.still (s : Source) : Question → Answer
  | .current | .peek | .advance => .character none
  | .atEnd => .truth true
  | .line => .number s.position.line
  | .column => .number s.position.column
  | .location => .place s.location

inductive Quiet (s : Source) : Operation → Outcome → Prop where
  | act {a : Action} {given : List Token} (last : ∀ token ∈ given, token = s.lastToken)
      (pulled : a.pulls = true → given = [s.lastToken]) : Quiet s (.act a) (.tokens (.ok given))
  | ask {question : Question} : Quiet s (.ask question) (.answer (question.still s))
  | close : Quiet s .close .released
  | closeSource : Quiet s .closeSource .released

namespace Source

variable {s t u : Source} {text : List Char} {f : Option Fault}

structure Spent (s : Source) : Prop where
  closed : s.closed = true
  active : s.active = #[]

def Rests (s t : Source) : Prop := t = { s with journal := t.journal }

theorem restsOn (first : s.Rests t) (second : t.Rests u) : s.Rests u := by
  rw [Rests, second, first]

theorem spentRests (spent : s.Spent) (rests : s.Rests t) : t.Spent := by
  rw [rests]
  exact ⟨spent.closed, spent.active⟩

theorem spentCurrent (spent : s.Spent) : s.current = none := by simp [current, spent.active]

theorem spentPeek (spent : s.Spent) : s.peek = none := by simp [peek, spent.active]

theorem pacedRests (spent : s.Spent) (paced : s.Paced text f t) : s.Rests t := by
  induction paced with
  | stay => rfl
  | on here | fell here =>
    rw [spentCurrent spent] at here
    contradiction
  | @noted s t event text f rest ih =>
    have noted : s.Rests (s.note event) := rfl
    exact restsOn noted (ih (spentRests spent noted))

theorem spentAsked (spent : s.Spent) (question : Question) : s.ask question = (question.still s, s) := by
  have here := spentCurrent spent
  cases question with
  | advance => simp only [ask, advanceStays here, Question.still]
  | current => simp only [ask, here, Question.still]
  | peek => simp only [ask, spentPeek spent, Question.still]
  | atEnd => simp [ask, atEnd, here, Question.still]
  | line | column | location => rfl

/- What has become of a source that was closed in a certain state. Its stream was closed then, if it was not so
before, and not touched since. -/
structure Released (s t : Source) : Prop where
  closed : t.closed = true
  stream : t.stream = if s.closed then s.stream else s.stream.close.2
  current : t.current = none
  peek : t.peek = none
  atEnd : t.atEnd = true
  name : t.name = s.name
  position : t.position = s.position
  readError : t.readError = s.readError

theorem closeKept (s : Source) : s.close.stream = (if s.closed then s.stream else s.stream.close.2) ∧
    s.close.name = s.name ∧ s.close.position = s.position ∧ s.close.readError = s.readError := by
  cases closed : s.closed with
  | true =>
    rw [closeClosed closed]
    exact ⟨rfl, rfl, rfl, rfl⟩
  | false =>
    obtain ⟨event, same⟩ := closeOpen closed
    rw [same]
    exact ⟨rfl, rfl, rfl, rfl⟩

theorem closeReleased (spent : s.close.Spent) (rests : s.close.Rests t) : s.Released t := by
  obtain ⟨stream, name, position, readError⟩ := closeKept s
  have still := spentRests spent rests
  have here := spentCurrent still
  have peek := spentPeek still
  refine ⟨still.closed, ?_, here, peek, by rw [atEnd, here]; rfl, ?_, ?_, ?_⟩
  all_goals rw [rests]
  · exact stream
  · exact name
  · exact position
  · exact readError

end Source

namespace Session

variable {s : Session}

theorem actQuiet (spent : s.lexer.source.Spent) (a : Action) : ∃ given, (s.act a).1 = .ok given ∧
    (∀ token ∈ given, token = s.lexer.source.lastToken) ∧
    (a.pulls = true → given = [s.lexer.source.lastToken]) := by
  have done := Source.spentCurrent spent
  have pulled : s.lexer.next.1.map ([·]) = .ok [s.lexer.source.lastToken] := by
    rw [Lexer.nextNothing done]
    rfl
  cases a with
  | pull | locate => exact ⟨_, pulled, by simp, fun _ => rfl⟩
  | exhaust => exact ⟨_, Lexer.tokensFromNothing done [], by simp, fun _ => rfl⟩
  | upTo n => exact ⟨_, Lexer.takeFromNothing done [] (n - 1), by simp, fun _ => rfl⟩
  | resumeScan number =>
    have asked : (Action.resumeScan number).pulls ≠ true := Bool.false_ne_true
    by_cases live : s.scans[number]? = some true
    · exact ⟨_, by rw [act, if_pos live]; exact pulled, by simp, fun pulls => absurd pulls asked⟩
    · exact ⟨[], by rw [act, if_neg live], by simp, fun pulls => absurd pulls asked⟩
  | beginScan | report | clear | keep limit =>
    exact ⟨[], rfl, by simp, fun pulls => absurd pulls Bool.false_ne_true⟩

theorem operateQuiet (spent : s.lexer.source.Spent) (operation : Operation) :
    Quiet s.lexer.source operation (s.operate operation).1 ∧
      s.lexer.source.Rests (s.operate operation).2.lexer.source := by
  cases operation with
  | act a =>
    obtain ⟨given, acted, last, pulled⟩ := actQuiet spent a
    obtain ⟨text, paced⟩ := actComputed s a
    refine ⟨?_, Source.pacedRests spent paced⟩
    rw [operate, acted]
    exact .act last pulled
  | ask question =>
    rw [operate, Source.spentAsked spent]
    exact ⟨.ask, rfl⟩
  | close =>
    refine ⟨.close, ?_⟩
    rw [operate, Lexer.close, Source.closeClosed spent.closed]
    rfl
  | closeSource =>
    refine ⟨.closeSource, ?_⟩
    rw [operate, Source.closeClosed spent.closed]
    rfl

theorem quietPlace {s t : Source} {operation : Operation} {outcome : Outcome} (name : t.name = s.name)
    (position : t.position = s.position) (quiet : Quiet t operation outcome) : Quiet s operation outcome := by
  have token : t.lastToken = s.lastToken := by rw [Source.lastToken, name, position, Source.lastToken]
  cases quiet with
  | act last pulled =>
    rw [token] at last pulled
    exact .act last pulled
  | @ask question =>
    have answer : question.still t = question.still s := by
      cases question <;> simp only [Question.still, Source.location, name, position]
    rw [answer]
    exact .ask
  | close => exact .close
  | closeSource => exact .closeSource

theorem performQuiet (operations : List Operation) (spent : s.lexer.source.Spent) :
    List.Forall₂ (Quiet s.lexer.source) operations (s.perform operations).1 ∧
      s.lexer.source.Rests (s.perform operations).2.lexer.source := by
  induction operations generalizing s with
  | nil => exact ⟨.nil, rfl⟩
  | cons operation rest ih =>
    obtain ⟨quiet, rests⟩ := operateQuiet spent operation
    obtain ⟨later, still⟩ := ih (Source.spentRests spent rests)
    have name : (s.operate operation).2.lexer.source.name = s.lexer.source.name := by rw [rests]
    have position : (s.operate operation).2.lexer.source.position = s.lexer.source.position := by rw [rests]
    exact ⟨.cons quiet (later.imp fun _ _ => quietPlace name position), Source.restsOn rests still⟩

theorem operateCloses (s : Session) {operation : Operation} (closes : operation.closes = true) :
    s.operate operation = (.released, { s with lexer := { s.lexer with source := s.lexer.source.close } }) := by
  cases operation with
  | close | closeSource => rfl
  | act | ask => contradiction

end Session

/- Reads may misbehave in any way before, and a failure to close the stream does not show but in what is noted.
Any closing will do for the last part, the first one among them. -/
theorem streamReleasedOnce {stream : Stream} {width : Width} {name : String} {c : Config} {l : Lexer}
    (started : Lexer.start (.ofStream stream width name) c = (.ok (), l)) (operations : List Operation) :
    ∃ outcomes s, Session.perform { lexer := l } operations = (outcomes, s) ∧
      s.lexer.source.closed = operations.any Operation.closes ∧
      s.lexer.source.stream.closings = stream.closings + (if operations.any Operation.closes then 1 else 0) ∧
      ∀ closing after, closing.closes = true → ∃ later t, s.perform (closing :: after) = (.released :: later, t) ∧
        s.lexer.source.Released t.lexer.source ∧ List.Forall₂ (Quiet s.lexer.source) after later := by
  obtain ⟨owned, closed⟩ := Session.startedOwned started operations
  rcases performed : Session.perform { lexer := l } operations with ⟨outcomes, s⟩
  rw [performed] at owned closed
  refine ⟨outcomes, s, rfl, closed, closed ▸ owned.closings, fun closing after closes => ?_⟩
  obtain ⟨ownedStill, shut⟩ := Source.closeOwned owned
  have spent : s.lexer.source.close.Spent := ⟨shut, (ownedStill.framed.emptied shut).1⟩
  obtain ⟨quiet, rests⟩ := Session.performQuiet
    (s := { s with lexer := { s.lexer with source := s.lexer.source.close } }) after spent
  obtain ⟨_, name, position, _⟩ := Source.closeKept s.lexer.source
  refine ⟨_, _, ?_, Source.closeReleased spent rests, quiet.imp fun _ _ => Session.quietPlace name position⟩
  rw [Session.perform, Session.operateCloses s closes]

def stuckStream : Stream where
  script := [.piece ['(', ')'], .failure ⟨.other, "boom"⟩, .whole ['x', 'y']]
  closeFailure := some "stuck"

def afterwards : List Operation := [.act (.resumeScan 0), .closeSource, .ask .column, .act .exhaust]

theorem stuckStreamReleased : ∃ l s t later,
    Lexer.start (.ofStream stuckStream Config.narrow.width "f") .narrow = (.ok (), l) ∧
    Session.perform { lexer := l } [.act .beginScan, .act .pull] =
      ([.tokens (.ok []), .tokens (.error ⟨.other, "boom"⟩)], s) ∧
    s.lexer.source.closed = false ∧ s.lexer.source.stream.closings = 0 ∧
    s.perform (.close :: afterwards) = (.released :: later, t) ∧
    later = [.tokens (.ok [⟨.endOfInput, "EOF", ⟨1, 2⟩, "f"⟩]), .released, .answer (.number 2),
      .tokens (.ok [⟨.endOfInput, "EOF", ⟨1, 2⟩, "f"⟩])] ∧
    t.lexer.source.stream.closings = 1 ∧ s.lexer.source.Released t.lexer.source := by
  have started : Lexer.start (.ofStream stuckStream Config.narrow.width "f") .narrow =
      (.ok (), (Lexer.start (.ofStream stuckStream Config.narrow.width "f") .narrow).2) :=
    Prod.ext (by decide +kernel) rfl
  obtain ⟨outcomes, s, performed, closed, closings, released⟩ :=
    streamReleasedOnce started [.act .beginScan, .act .pull]
  obtain ⟨later, t, after, left, _⟩ := released .close afterwards rfl
  have first : outcomes = [.tokens (.ok []), .tokens (.error ⟨.other, "boom"⟩)] := by
    rw [show outcomes = _ from (congrArg Prod.fst performed).symm]
    decide +kernel
  have second : later = [.tokens (.ok [⟨.endOfInput, "EOF", ⟨1, 2⟩, "f"⟩]), .released, .answer (.number 2),
      .tokens (.ok [⟨.endOfInput, "EOF", ⟨1, 2⟩, "f"⟩])] := by
    rw [show later = (s.perform (.close :: afterwards)).1.tail by rw [after]; rfl,
      show s = _ from (congrArg Prod.snd performed).symm]
    decide +kernel
  have once := left.stream
  rw [closed] at once
  refine ⟨_, s, t, later, started, first ▸ performed, closed, closings, after, second, ?_, left⟩
  rw [once]
  exact congrArg (· + 1) closings

end WindowLex

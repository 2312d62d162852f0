import WindowLex.Proofs.Computations
import WindowLex.Proofs.Ending
import WindowLex.Proofs.Observation
import WindowLex.Proofs.Sessions

/-! Sessions in which the source is used beside its lexer, and either of them is closed at any time. A caller
goes on after every fault. Whatever is done, nothing but the source asks the stream and closes it. -/
namespace WindowLex

inductive Operation where
  | act (action : Action)
  | ask (question : Question)
  | close
  | closeSource
  deriving DecidableEq, Repr

inductive Outcome where
  | tokens (given : Except Fault (List Token))
  | answer (answer : Answer)
  | released
  deriving DecidableEq, Repr

def Operation.closes : Operation → Bool
  | .close | .closeSource => true
  | .act _ | .ask _ => false

namespace Session

def operate (s : Session) : Operation → Outcome × Session
  | .act a => (.tokens (s.act a).1, (s.act a).2)
  | .ask question =>
    (.answer (s.lexer.source.ask question).1,
      { s with lexer := { s.lexer with source := (s.lexer.source.ask question).2 } })
  | .close => (.released, { s with lexer := s.lexer.close })
  | .closeSource => (.released, { s with lexer := { s.lexer with source := s.lexer.source.close } })

def perform (s : Session) : List Operation → List Outcome × Session
  | [] => ([], s)
  | operation :: rest =>
    let (outcome, s) := s.operate operation
    let (outcomes, s) := s.perform rest
    (outcome :: outcomes, s)

theorem actComputed (s : Session) (a : Action) :
    s.lexer.source.Computed ((s.act a).1, (s.act a).2.lexer.source) := by
  have pulled : s.lexer.source.Computed (s.lexer.next.1.map ([·]), s.lexer.next.2.source) := by
    obtain ⟨text, paced⟩ := Lexer.nextComputed s.lexer
    have same : faultOf (s.lexer.next.1.map ([·])) = faultOf s.lexer.next.1 := by
      cases s.lexer.next.1 <;> rfl
    exact ⟨text, same ▸ paced⟩
  cases a with
  | pull | locate => exact pulled
  | exhaust => exact Lexer.tokensFromComputed s.lexer []
  | upTo n => exact Lexer.takeFromComputed s.lexer [] (n - 1)
  | resumeScan number =>
    by_cases live : s.scans[number]? = some true
    · rw [act, if_pos live]
      exact pulled
    · rw [act, if_neg live]
      exact Source.computedStay _ _
  | beginScan | report | clear | keep limit => exact Source.computedStay _ _

end Session

namespace Source

variable {stream : Stream} {width : Width} {s t : Source} {text : List Char} {f : Option Fault}

structure Owned (stream : Stream) (width : Width) (s : Source) : Prop where
  framed : s.Framed
  wide : s.width = width
  closings : s.stream.closings = stream.closings + if s.closed then 1 else 0
  asked : s.closed = false → ∃ heard, stream.Heard heard s.stream ∧ ∀ e ∈ heard, e.Within width.size

theorem primedOwned {name : String} (primed : (ofStream stream width name).prime = (.ok (), t)) :
    Owned stream width t := by
  obtain ⟨opened, heard, asks, within, _⟩ := primedHeard primed
  refine ⟨primedFramed ⟨rfl, rfl⟩ primed, (primedOpened primed).width, ?_, fun _ => ⟨heard, asks, within⟩⟩
  rw [opened, (Stream.heardKept asks).1]
  rfl

theorem pacedOwned (owned : Owned stream width s) (paced : s.Paced text f t) : Owned stream width t := by
  obtain ⟨later, asks, _, withinToo, _⟩ := pacedHeard paced
  have moved := pacedMoved paced
  refine ⟨pacedFramed owned.framed paced, moved.width.trans owned.wide, ?_, fun opened => ?_⟩
  · rw [(Stream.heardKept asks).1, owned.closings, moved.closed]
  · obtain ⟨heard, asksBefore, within⟩ := owned.asked (moved.closed.symm.trans opened)
    rw [owned.wide] at withinToo
    exact ⟨heard ++ later, Stream.heardOn asksBefore asks, List.forall_mem_append.mpr ⟨within, withinToo⟩⟩

theorem closeOwned (owned : Owned stream width s) : Owned stream width s.close ∧ s.close.closed = true := by
  have framed := closeFramed owned.framed
  cases closed : s.closed with
  | true =>
    rw [closeClosed closed]
    exact ⟨owned, closed⟩
  | false =>
    obtain ⟨event, same⟩ := closeOpen closed
    have once := owned.closings
    rw [closed] at once
    rw [same] at framed ⊢
    exact ⟨⟨framed, owned.wide, by simpa [Stream.close] using once, nofun⟩, rfl⟩

theorem askPaced (s : Source) (question : Question) : ∃ text f, s.Paced text f (s.ask question).2 := by
  cases question with
  | advance =>
    obtain ⟨text, paced⟩ := advanceComputed s
    rcases advanced : s.advance with ⟨fault | c, t⟩
    all_goals
      rw [advanced] at paced
      simp only [ask, advanced]
      exact ⟨text, _, paced⟩
  | _ => exact ⟨[], none, .stay⟩

end Source

namespace Session

variable {stream : Stream} {width : Width} {s : Session}

theorem operateOwned (owned : s.lexer.source.Owned stream width) (operation : Operation) :
    (s.operate operation).2.lexer.source.Owned stream width ∧
      (s.operate operation).2.lexer.source.closed = (s.lexer.source.closed || operation.closes) := by
  cases operation with
  | act a =>
    obtain ⟨text, paced⟩ := actComputed s a
    exact ⟨Source.pacedOwned owned paced, (Source.pacedMoved paced).closed.trans (Bool.or_false _).symm⟩
  | ask question =>
    obtain ⟨text, f, paced⟩ := Source.askPaced s.lexer.source question
    exact ⟨Source.pacedOwned owned paced, (Source.pacedMoved paced).closed.trans (Bool.or_false _).symm⟩
  | close | closeSource =>
    obtain ⟨later, closed⟩ := Source.closeOwned owned
    exact ⟨later, closed.trans (Bool.or_true _).symm⟩

theorem performOwned (operations : List Operation) (owned : s.lexer.source.Owned stream width) :
    (s.perform operations).2.lexer.source.Owned stream width ∧
      (s.perform operations).2.lexer.source.closed =
        (s.lexer.source.closed || operations.any Operation.closes) := by
  induction operations generalizing s with
  | nil => exact ⟨owned, (Bool.or_false _).symm⟩
  | cons operation rest ih =>
    obtain ⟨next, closed⟩ := operateOwned owned operation
    obtain ⟨later, closedLater⟩ := ih next
    rw [closed, Bool.or_assoc] at closedLater
    exact ⟨later, closedLater⟩

theorem startedOwned {name : String} {c : Config} {l : Lexer}
    (started : Lexer.start (.ofStream stream width name) c = (.ok (), l)) (operations : List Operation) :
    (perform { lexer := l } operations).2.lexer.source.Owned stream width ∧
      (perform { lexer := l } operations).2.lexer.source.closed = operations.any Operation.closes := by
  have primed := startedPrimed started
  obtain ⟨owned, closed⟩ := performOwned (s := { lexer := l }) operations (Source.primedOwned primed)
  rw [(Source.primedHeard primed).1, Bool.false_or] at closed
  exact ⟨owned, closed⟩

end Session

end WindowLex

import WindowLex.Proofs.Computations
import WindowLex.Proofs.Recording

/-! Scanning always ends. Whatever the stream does, each pull before the end of the input consumes something,
also one from which a fault escapes, and a caller who goes on after every fault comes to the end. -/
namespace WindowLex

namespace Source
open Lexical

variable {s t : Source} {α : Type}

def Moves (s : Source) (r : Except Fault α × Source) : Prop :=
  ∃ text, s.Walked text (raisedBy r.1) r.2 ∧ (raisedBy r.1 = 1 → text ≠ [])

theorem computedMoves {r : Except Fault α × Source} (computed : s.Computed r) : s.Moves r := by
  obtain ⟨text, paced⟩ := computed
  obtain ⟨walk, some⟩ := pacedWalked paced
  have raised : (faultOf r.1).toList.length = raisedBy r.1 := by cases r.1 <;> rfl
  rw [raised] at walk
  refine ⟨text, walk, fun one => some ?_⟩
  rintro none
  rw [← raised, none] at one
  contradiction

theorem walkedNothing {raised : Nat} (walk : s.Walked [] raised t) : t.remaining = s.remaining := by
  generalize none : ([] : List Char) = text at walk
  induction walk with
  | stay => rfl
  | on => contradiction
  | noted rest ih => exact ih none

end Source

namespace Lexer

variable {l l' : Lexer} {token : Token} {fault : Fault}

theorem nextMoves (l : Lexer) : l.source.Moves (l.next.1, l.next.2.source) :=
  Source.computedMoves (nextComputed l)

theorem nextGives (pulled : l.next = (.ok token, l')) (more : token.isEnd = false) :
    ∃ text, l.source.Walked text 0 l'.source ∧ text ≠ [] := by
  obtain ⟨text, walk, _⟩ := nextMoves l
  rw [pulled] at walk
  refine ⟨text, walk, ?_⟩
  rintro rfl
  exact Nat.ne_of_lt (nextRemaining pulled more) (Source.walkedNothing walk)

theorem nextFalls (fell : l.next = (.error fault, l')) :
    ∃ text, l.source.Walked text 1 l'.source ∧ text ≠ [] := by
  obtain ⟨text, walk, some⟩ := nextMoves l
  rw [fell] at walk some
  exact ⟨text, walk, some rfl⟩

/- Pulls up to the first end of the input, by a caller who goes on after each fault: how many there are and
from how many of them a fault escaped. Each one before the last consumes something. -/
inductive Scanned : Lexer → Nat → Nat → Lexer → Prop where
  | last {l l' : Lexer} {token : Token} (pulled : l.next = (.ok token, l')) (isEnd : token.isEnd = true) :
      Scanned l 1 0 l'
  | token {l m l' : Lexer} {token : Token} {text pulls raised} (pulled : l.next = (.ok token, m))
      (inside : token.isEnd = false) (walk : l.source.Walked text 0 m.source) (some : text ≠ [])
      (rest : Scanned m pulls raised l') : Scanned l (pulls + 1) raised l'
  | fault {l m l' : Lexer} {fault : Fault} {text pulls raised} (fell : l.next = (.error fault, m))
      (walk : l.source.Walked text 1 m.source) (some : text ≠ []) (rest : Scanned m pulls raised l') :
      Scanned l (pulls + 1) (raised + 1) l'

theorem allScanned (l : Lexer) (allowed : l.source.stream.tooLarge l.source.width.size = false) :
    ∃ pulls raised l', l.Scanned pulls raised l' := by
  rcases pulled : l.next with ⟨fault | token, m⟩
  · obtain ⟨text, walk, some⟩ := nextFalls pulled
    obtain ⟨less, still⟩ := Source.walkedLess walk some allowed
    obtain ⟨pulls, raised, l', rest⟩ := allScanned m still
    exact ⟨_, _, _, .fault pulled walk some rest⟩
  · cases isEnd : token.isEnd with
    | true => exact ⟨_, _, _, .last pulled isEnd⟩
    | false =>
      obtain ⟨text, walk, some⟩ := nextGives pulled isEnd
      obtain ⟨less, still⟩ := Source.walkedLess walk some allowed
      obtain ⟨pulls, raised, l', rest⟩ := allScanned m still
      exact ⟨_, _, _, .token pulled isEnd walk some rest⟩
  termination_by l.source.burden

theorem scannedWalked {pulls raised : Nat} (scanned : l.Scanned pulls raised l') :
    ∃ text, l.source.Walked text raised l'.source ∧ pulls ≤ text.length + 1 := by
  induction scanned with
  | @last l l' token pulled isEnd =>
    obtain ⟨text, walk, _⟩ := nextMoves l
    rw [pulled] at walk
    exact ⟨text, walk, Nat.le_add_left ..⟩
  | token pulled inside walk some rest ih | fault fell walk some rest ih =>
    obtain ⟨later, more, few⟩ := ih
    have positive := List.length_pos_iff.mpr some
    have both := Source.walkedOn walk more
    refine ⟨_, by simpa only [Nat.zero_add, Nat.add_comm 1] using both, ?_⟩
    rw [List.length_append]; omega

end Lexer

theorem startedPrimed {s : Source} {c : Config} {l : Lexer} (started : Lexer.start s c = (.ok (), l)) :
    s.prime = (.ok (), l.source) := by
  rcases primed : s.prime with ⟨answer, t⟩
  rw [Lexer.start, primed] at started
  cases started
  rfl

/- Of the stream it is only asked that the lexer could be made. Each fault accounts for one window that is
walked again. -/
theorem scanningEnds {stream : Stream} {c : Config} {name : String} {l : Lexer}
    (started : Lexer.start (.ofStream stream c.width name) c = (.ok (), l)) :
    ∃ pulls raised l' delivered, l.Scanned pulls raised l' ∧ stream.Gave delivered l'.source.stream ∧
      pulls ≤ delivered.length + raised * c.width.size + 1 := by
  have opened := Source.primedOpened (startedPrimed started)
  obtain ⟨pulls, raised, l', scanned⟩ := Lexer.allScanned l opened.allowed
  obtain ⟨text, walk, few⟩ := Lexer.scannedWalked scanned
  obtain ⟨later, gave, less⟩ := (Source.walkedSettled walk).came
  refine ⟨pulls, raised, l', _, scanned, Stream.gaveOn opened.gave gave, ?_⟩
  have held : l.source.held = l.source.active.size + l.source.standby.size := by
    rw [Source.held, opened.start, Nat.sub_zero]
  rw [opened.width] at less
  simp only [List.length_append, Array.length_toList]; omega

def stubbornStream : Stream where
  script := [.piece ['(', ')'], .failure ⟨.other, "boom"⟩]

/- The first character is given out again, and no bound could be smaller. -/
theorem stubbornStreamEnds : ∃ l pulls raised l' delivered,
    Lexer.start (.ofStream stubbornStream Config.narrow.width "f") .narrow = (.ok (), l) ∧
    l.next.1 = .error ⟨.other, "boom"⟩ ∧
    (l.again 1).next.1 = .ok ⟨.parenthesis, ")", ⟨1, 2⟩, "f"⟩ ∧
    (l.again 2).next.1 = .ok ⟨.parenthesis, "(", ⟨1, 3⟩, "f"⟩ ∧
    (l.again 3).next.1 = .ok ⟨.endOfInput, "EOF", ⟨1, 4⟩, "f"⟩ ∧
    l.Scanned pulls raised l' ∧ stubbornStream.Gave delivered l'.source.stream ∧
    pulls ≤ delivered.length + raised * 1 + 1 := by
  have started : Lexer.start (.ofStream stubbornStream Config.narrow.width "f") .narrow =
      (.ok (), (Lexer.start (.ofStream stubbornStream Config.narrow.width "f") .narrow).2) :=
    Prod.ext (by decide +kernel) rfl
  obtain ⟨pulls, raised, l', delivered, scanned, gave, few⟩ := scanningEnds started
  exact ⟨_, pulls, raised, l', delivered, started, by decide +kernel, by decide +kernel, by decide +kernel,
    by decide +kernel, scanned, gave, few⟩

end WindowLex

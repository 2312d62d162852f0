import Mathlib.Data.List.Induction
import WindowLex.Text.Cursor

/-! Places counted off a text. Walking over a text from its start leads to the line and the column that
a count of the text gives, and never back to a place passed before. -/
namespace WindowLex

namespace Position

theorem afterAppend (p : Position) (left right : List Char) :
    p.after (left ++ right) = (p.after left).after right := List.foldl_append

theorem afterCounted (text : List Char) :
    after {} text = ⟨1 + text.count '\n', 1 + (text.reverse.takeWhile (· ≠ '\n')).length⟩ := by
  induction text using List.reverseRecOn with
  | nil => rfl
  | append_singleton text c ih =>
    rw [afterAppend, ih]
    by_cases feed : c = '\n'
    · subst feed
      simp [after, next, List.count_append, Int.add_assoc]
    · simp [after, next, feed, List.count_append, Int.add_comm]

def Before (p q : Position) : Prop := p.line < q.line ∨ p.line = q.line ∧ p.column < q.column

theorem beforeTrans {p q r : Position} (left : p.Before q) (right : q.Before r) : p.Before r := by
  unfold Before at *
  omega

theorem notBeforeItself (p : Position) : ¬ p.Before p := by
  unfold Before
  omega

theorem beforeNext (p : Position) (c : Char) : p.Before (p.next c) := by
  unfold Before next
  split
  · exact .inl (Int.lt_succ p.line)
  · exact .inr ⟨rfl, Int.lt_succ p.column⟩

theorem beforeAfter (p : Position) {text : List Char} (some : text ≠ []) : p.Before (p.after text) := by
  induction text generalizing p with
  | nil => contradiction
  | cons c rest ih =>
    cases rest with
    | nil => exact beforeNext p c
    | cons d rest => exact beforeTrans (beforeNext p c) (ih (p.next c) (by simp))

theorem beforeKept {p q r : Position} (left : p.Before q) (right : ¬ r.Before q) : p.Before r := by
  unfold Before at *
  omega

theorem afterNotBefore (p : Position) (text : List Char) : ¬ (p.after text).Before p := by
  intro back
  by_cases none : text = []
  · rw [none] at back
    exact p.notBeforeItself back
  · exact p.notBeforeItself (beforeTrans (beforeAfter p none) back)

theorem afterStays {p : Position} {text more : List Char} (same : p.after (text ++ more) = p.after text) :
    more = [] := by
  refine Classical.byContradiction fun some => (p.after text).notBeforeItself ?_
  have before := beforeAfter (p.after text) some
  rwa [← afterAppend, same] at before

theorem samePlace {p : Position} {left right text : List Char} (first : left <+: text)
    (second : right <+: text) (same : p.after left = p.after right) : left = right := by
  rcases List.prefix_or_prefix_of_prefix first second with ⟨more, rfl⟩ | ⟨more, rfl⟩
  · rw [afterStays same.symm, List.append_nil]
  · rw [afterStays same, List.append_nil]

end Position

namespace Text.Cursor

theorem positionCounted (c : Cursor) : c.position = Position.after {} c.before :=
  (Position.afterCounted c.before).symm

theorem positionBehind {text before behind : List Char} (parts : text = before ++ behind) :
    (Cursor.mk text before.length).position = Position.after {} before := by
  rw [positionCounted, Cursor.before, parts, List.take_left]

end Text.Cursor

end WindowLex

import WindowLex.Lexeme
import WindowLex.Source.Walk

/-! One lexeme, read off a source whose cursor stands on its first character. The first character
decides the kind: a word, a number, a string literal, a comment, a configured operator, or else a
single character. Whatever the kind, a lexeme takes at least one character. -/
namespace WindowLex

namespace Source
open Lexical

def andThen {α β : Type} (step : Except Fault α × Source)
    (next : α → Source → Except Fault β × Source) : Except Fault β × Source :=
  match step with
  | (.error fault, s) => (.error fault, s)
  | (.ok a, s) => next a s

def scanWord (s : Source) (c : Config) : Except Fault Lexeme × Source :=
  andThen (s.takeWhile isWordPart []) fun text s => (.ok ⟨Lexeme.wordKind c text, text, false⟩, s)

def scanNumber (s : Source) : Except Fault Lexeme × Source :=
  andThen (s.takeWhile isNumberPart []) fun text s => (.ok ⟨.number, text, false⟩, s)

def scanString (s : Source) : Except Fault Lexeme × Source :=
  andThen s.advance fun _ s =>
  andThen (s.takeWhile (· ≠ '"') []) fun text s =>
  if s.atEnd then (.ok ⟨.stringLiteral, text, true⟩, s)
  else andThen s.advance fun _ s => (.ok ⟨.stringLiteral, text, false⟩, s)

def scanComment (s : Source) : Except Fault Lexeme × Source :=
  andThen s.advance fun _ s =>
  andThen s.advance fun _ s =>
  andThen (s.takeWhile (· ≠ '\n') []) fun text s => (.ok ⟨.comment, text, false⟩, s)

def scanOperator (s : Source) (c : Config) (first : Char) : Except Fault Lexeme × Source :=
  andThen s.advance fun _ s =>
  if c.prefixes.contains first && s.current = some '=' then
    andThen s.advance fun _ s => (.ok ⟨.operator, [first, '='], false⟩, s)
  else (.ok ⟨.operator, [first], false⟩, s)

def scanSingle (s : Source) (first : Char) : Except Fault Lexeme × Source :=
  andThen s.advance fun _ s => (.ok ⟨punctuation first, [first], false⟩, s)

def scan (s : Source) (c : Config) (first : Char) : Except Fault Lexeme × Source :=
  if isWordStart first then s.scanWord c
  else if first.isDigit then s.scanNumber
  else if first = '"' then s.scanString
  else if first = '/' && s.peek = some '/' then s.scanComment
  else if c.operators.contains first then s.scanOperator c first
  else s.scanSingle first

theorem andThenOk {α β : Type} {step : Except Fault α × Source}
    {next : α → Source → Except Fault β × Source} {b s'}
    (h : andThen step next = (.ok b, s')) :
    ∃ a s, step = (.ok a, s) ∧ next a s = (.ok b, s') := by
  unfold andThen at h
  split at h
  · cases h
  · exact ⟨_, _, rfl, h⟩

theorem advanceYields {s s' : Source} {c x} (here : s.current = some c)
    (h : s.advance = (.ok x, s')) : x = some c := by
  unfold advance at h
  simp only [here] at h
  split at h
  · split at h <;> cases h
    rfl
  · cases h; rfl

theorem advanceLess {s s' : Source} {c x} (here : s.current = some c)
    (h : s.advance = (.ok x, s')) : s'.remaining < s.remaining := by
  cases advanceYields here h
  exact advanceRemaining h

theorem advanceAtMost {s s' : Source} {x} (h : s.advance = (.ok x, s')) :
    s'.remaining ≤ s.remaining := by
  cases x with
  | none => exact Nat.le_of_eq (congrArg remaining (advanceNone h))
  | some c => exact Nat.le_of_lt (advanceRemaining h)

theorem takeWhileLess {s s' : Source} {c p taken text} (here : s.current = some c)
    (inClass : p c = true) (h : s.takeWhile p taken = (.ok text, s')) :
    s'.remaining < s.remaining := by
  unfold takeWhile at h
  simp only [here, Option.any_some, inClass, if_true] at h
  split at h
  · cases h
  · rename_i yields
    cases advanceYields here yields
  · rename_i yields
    have := advanceRemaining yields
    have := takeWhileRemaining h
    omega

theorem scanRemaining {s s' : Source} {c first lexeme} (here : s.current = some first)
    (h : s.scan c first = (.ok lexeme, s')) : s'.remaining < s.remaining := by
  unfold scan at h
  split at h
  · rename_i start
    obtain ⟨text, t, taken, rest⟩ := andThenOk h
    cases rest
    exact takeWhileLess here (by grind [isWordStart, isWordPart, Char.isAlphanum]) taken
  split at h
  · rename_i digit
    obtain ⟨text, t, taken, rest⟩ := andThenOk h
    cases rest
    exact takeWhileLess here (by simp [isNumberPart, digit]) taken
  split at h
  · obtain ⟨_, t, quote, h⟩ := andThenOk h
    obtain ⟨text, u, taken, h⟩ := andThenOk h
    have := advanceLess here quote
    have := takeWhileRemaining taken
    split at h
    · cases h; omega
    · obtain ⟨_, v, close, h⟩ := andThenOk h
      cases h
      have := advanceAtMost close; omega
  split at h
  · obtain ⟨_, t, slash, h⟩ := andThenOk h
    obtain ⟨_, u, second, h⟩ := andThenOk h
    obtain ⟨text, v, taken, h⟩ := andThenOk h
    cases h
    have := advanceLess here slash
    have := advanceAtMost second
    have := takeWhileRemaining taken
    omega
  split at h
  · obtain ⟨_, t, operator, h⟩ := andThenOk h
    have := advanceLess here operator
    split at h
    · obtain ⟨_, u, equals, h⟩ := andThenOk h
      cases h
      have := advanceAtMost equals; omega
    · cases h; exact this
  · obtain ⟨_, t, single, h⟩ := andThenOk h
    cases h
    exact advanceLess here single

end Source

end WindowLex

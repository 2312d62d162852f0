import WindowLex.Lexer
import WindowLex.Proofs.Grammar
import WindowLex.Proofs.Places
import WindowLex.Proofs.Windows

/-! Reading lexemes off the windows. Each scanner takes from the text ahead what the plain split of that
text takes, wherever the windows change places on the way. -/
namespace WindowLex.Source
open Lexical Lexeme

variable {s : Source} {first : Char} {rest : List Char}

theorem passedAhead {s' : Source} {text behind : List Char} (passed : s.Passed text s')
    (whole : s.ahead = text ++ behind) : s'.ahead = behind :=
  (List.append_cancel_left (whole.symm.trans passed.ahead)).symm

theorem advanceThen (sound : s.Sound) (here : s.ahead = first :: rest) :
    ∃ s', (∀ {α : Type} (next : Option Char → Source → Except Fault α × Source),
        andThen s.advance next = next (some first) s') ∧
      s.Passed [first] s' ∧ s'.ahead = rest := by
  obtain ⟨s', advanced, passed⟩ := advancePassed sound here
  exact ⟨s', fun next => by rw [advanced, andThen], passed, passedAhead passed here⟩

theorem takeWhileThen (sound : s.Sound) (p : Char → Bool) :
    ∃ s', (∀ {α : Type} (next : List Char → Source → Except Fault α × Source),
        andThen (s.takeWhile p []) next = next (s.ahead.takeWhile p) s') ∧
      s.Passed (s.ahead.takeWhile p) s' ∧ s'.ahead = s.ahead.dropWhile p := by
  obtain ⟨s', taken, passed⟩ := takeWhilePassed sound p []
  exact ⟨s', fun next => by rw [taken, andThen, List.reverse_nil, List.nil_append], passed,
    passedAhead passed List.takeWhile_append_dropWhile.symm⟩

theorem scanWordPassed (sound : s.Sound) (here : s.ahead = first :: rest) (c : Config)
    (start : isWordStart first = true) :
    ∃ s', s.scanWord c = (.ok (split c first rest).1, s') ∧
      s.Passed (split c first rest).1.written s' := by
  have part : isWordPart first = true := by
    simp only [isWordStart, isWordPart, Char.isAlphanum, Bool.or_eq_true] at start ⊢
    exact start.imp .inl id
  obtain ⟨s', taken, passed, _⟩ := takeWhileThen sound isWordPart
  rw [here, List.takeWhile_cons_of_pos part] at taken passed
  rw [splitWord start, wordWritten, scanWord, taken]
  exact ⟨s', rfl, passed⟩

theorem scanNumberPassed (sound : s.Sound) (here : s.ahead = first :: rest) (c : Config)
    (noWord : isWordStart first = false) (digit : first.isDigit = true) :
    ∃ s', s.scanNumber = (.ok (split c first rest).1, s') ∧
      s.Passed (split c first rest).1.written s' := by
  have part : isNumberPart first = true := by simp [isNumberPart, digit]
  obtain ⟨s', taken, passed, _⟩ := takeWhileThen sound isNumberPart
  rw [here, List.takeWhile_cons_of_pos part] at taken passed
  rw [splitNumber noWord digit, scanNumber, taken]
  exact ⟨s', rfl, passed⟩

theorem scanStringPassed (sound : s.Sound) (here : s.ahead = '"' :: rest) (c : Config) :
    ∃ s', s.scanString = (.ok (split c '"' rest).1, s') ∧
      s.Passed (split c '"' rest).1.written s' := by
  obtain ⟨t, opened, quote, ahead⟩ := advanceThen sound here
  obtain ⟨u, taken, body, behind⟩ := takeWhileThen quote.sound (· ≠ '"')
  rw [ahead] at taken body behind
  have end_ : u.atEnd = (rest.dropWhile (· ≠ '"')).head?.isNone := by
    rw [atEnd, currentAhead body.sound, behind]
  have inside := passedOn quote body
  rw [scanString, opened, taken, end_]
  cases left : rest.dropWhile (· ≠ '"') with
  | nil =>
    rw [splitCutOff left]
    exact ⟨u, rfl, by simpa [written] using inside⟩
  | cons q more =>
    obtain ⟨v, closed, close, _⟩ := advanceThen body.sound (behind.trans left)
    have whole := passedOn inside close
    rw [closingQuote left] at whole
    rw [splitClosed left]
    exact ⟨v, closed _, by simpa [written] using whole⟩

theorem scanCommentPassed {line : List Char} (sound : s.Sound) (here : s.ahead = '/' :: '/' :: line)
    (c : Config) :
    ∃ s', s.scanComment = (.ok (split c '/' ('/' :: line)).1, s') ∧
      s.Passed (split c '/' ('/' :: line)).1.written s' := by
  obtain ⟨t, opened, slash, ahead⟩ := advanceThen sound here
  obtain ⟨u, doubled, second, behind⟩ := advanceThen slash.sound ahead
  obtain ⟨v, taken, body, _⟩ := takeWhileThen second.sound (· ≠ '\n')
  rw [behind] at taken body
  rw [scanComment, opened, doubled, taken, splitComment]
  exact ⟨v, rfl, passedOn (passedOn slash second) body⟩

theorem scanOperatorPassed (sound : s.Sound) (here : s.ahead = first :: rest) {c : Config}
    (apart : Apart first rest) (operator : first ∈ c.operators) :
    ∃ s', s.scanOperator c first = (.ok (split c first rest).1, s') ∧
      s.Passed (split c first rest).1.written s' := by
  obtain ⟨t, taken, passed, ahead⟩ := advanceThen sound here
  -- The cursor has gone over the first character when it is asked for an equals sign.
  have second : t.current = rest.head? := by rw [currentAhead passed.sound, ahead]
  rw [scanOperator, taken, splitApart apart, if_pos operator, second]
  by_cases pair : first ∈ c.prefixes ∧ rest.head? = some '='
  · obtain ⟨behind, rfl⟩ := List.head?_eq_some_iff.mp pair.2
    obtain ⟨u, doubled, equals, _⟩ := advanceThen passed.sound ahead
    rw [if_pos pair, if_pos (by simp [pair.1])]
    exact ⟨u, doubled _, passedOn passed equals⟩
  · rw [if_neg pair, if_neg (by simpa using pair)]
    exact ⟨t, rfl, passed⟩

theorem scanSinglePassed (sound : s.Sound) (here : s.ahead = first :: rest) {c : Config}
    (apart : Apart first rest) (other : first ∉ c.operators) :
    ∃ s', s.scanSingle first = (.ok (split c first rest).1, s') ∧
      s.Passed (split c first rest).1.written s' := by
  obtain ⟨t, taken, passed, _⟩ := advanceThen sound here
  rw [scanSingle, taken, splitApart apart, if_neg other, punctuationWritten]
  exact ⟨t, rfl, passed⟩

theorem scanPassed (sound : s.Sound) (here : s.ahead = first :: rest) (c : Config) :
    ∃ s', s.scan c first = (.ok (split c first rest).1, s') ∧
      s.Passed (split c first rest).1.written s' := by
  have second : s.peek = rest.head? := by
    rw [peekAhead sound, here, List.getElem?_cons_succ, List.head?_eq_getElem?]
  unfold scan
  cases startOf first rest with
  | word start =>
    rw [if_pos start]
    exact scanWordPassed sound here c start
  | number noWord digit =>
    rw [if_neg (by simp [noWord]), if_pos digit]
    exact scanNumberPassed sound here c noWord digit
  | quote rest => exact scanStringPassed sound here c
  | comment line =>
    rw [if_neg (by decide), if_neg (by decide), if_neg (by decide), if_pos (by simp [second])]
    exact scanCommentPassed sound here c
  | apart apart =>
    have noComment : ¬(first = '/' && s.peek = some '/') = true := by
      simpa [second] using apart.noComment
    rw [if_neg (by simp [apart.noWord]), if_neg (by simp [apart.noDigit]), if_neg apart.noQuote,
      if_neg noComment]
    by_cases operator : first ∈ c.operators
    · rw [if_pos (by simpa using operator)]
      exact scanOperatorPassed sound here apart operator
    · rw [if_neg (by simpa using operator)]
      exact scanSinglePassed sound here apart operator

end WindowLex.Source

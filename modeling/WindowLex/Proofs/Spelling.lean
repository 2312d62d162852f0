import WindowLex.Proofs.Rules

/-! Texts spelled out of lexemes. Written one behind another with gaps between them, lexemes are read back as
they are, whichever gaps and tables they are written with. -/
namespace WindowLex
open Lexical Lexeme

namespace Lexical

def Mark (x : Char) : Prop := ¬ Gap x ∧ ¬ Letter x ∧ x ≠ '_' ∧ ¬ Digit x ∧ x ≠ '"'

/- Which lexemes of a kind can be written. An operator may be in the table and yet start something else. -/
def Spellable (c : Config) (kind : Kind) (text : List Char) : Prop :=
  match kind with
  | .keyword => Word text ∧ String.ofList text ∈ c.keywords
  | .identifier => Word text ∧ String.ofList text ∉ c.keywords
  | .number => Numeral text
  | .stringLiteral => '"' ∉ text
  | .comment => '\n' ∉ text
  | .operator => ∃ x ∈ c.operators, Mark x ∧ (text = [x] ∨ x ∈ c.prefixes ∧ text = [x, '='])
  | .parenthesis | .bracket | .brace | .semicolon | .comma =>
      ∃ x, text = [x] ∧ (x, kind) ∈ table ∧ x ∉ c.operators
  | .unknown => ∃ x, text = [x] ∧ Mark x ∧ x ∉ c.operators ∧ ∀ kind, (x, kind) ∉ table
  | .endOfInput => False

end Lexical

/- Lexemes and a text that spells them out. A gap behind the last of them may be missing, and the one behind a
comment ends the line first. -/
inductive Spelled (c : Config) : List Lexeme → List Char → Prop where
  | done : Spelled c [] []
  | next {kind text gap lexemes rest} (valid : Spellable c kind text) (blank : ∀ x ∈ gap, Gap x)
      (apart : lexemes ≠ [] → gap ≠ []) (line : kind = .comment → ∀ x ∈ gap.head?, x = '\n')
      (more : Spelled c lexemes rest) :
      Spelled c (⟨kind, text, false⟩ :: lexemes)
        ((Lexeme.mk kind text false).written ++ (gap ++ rest))

structure Stands (c : Config) (lexeme : Lexeme) : Prop where
  cut : Cut c lexeme []
  starts : ∀ x ∈ lexeme.written.head?, isGap x = false

section
variable {c : Config} {kind : Kind} {text : List Char} {x : Char}

theorem wordPartNoGap (part : isWordPart x = true) : isGap x = false := by
  cases gap : isGap x with
  | false => rfl
  | true =>
    rw [(gapStops gap).1] at part
    contradiction

theorem wordStands (word : Word text) : Stands c ⟨wordKind c text, text, false⟩ := by
  obtain ⟨first, rest, rfl, start, parts⟩ := word
  have part : WordPart first := start.imp id .inr
  have inside : ∀ x ∈ rest, isWordPart x = true := fun x member => (wordPartOf x).mpr (parts x member)
  refine ⟨.word ((wordStartOf first).mpr start) inside (by simp), ?_⟩
  rw [wordWritten]
  simpa using wordPartNoGap ((wordPartOf first).mpr part)

theorem numeralStands (numeral : Numeral text) : Stands c ⟨.number, text, false⟩ := by
  obtain ⟨first, rest, rfl, digit, parts⟩ := numeral
  have part : WordPart first := .inr (.inl digit)
  have inside : ∀ x ∈ rest, isNumberPart x = true := fun x member => (numberPartOf x).mpr (parts x member)
  refine ⟨.number ((digitOf first).mpr digit) inside (by simp), ?_⟩
  simpa [written] using wordPartNoGap ((wordPartOf first).mpr part)

theorem markApart (mark : Mark x) {rest : List Char} (noComment : x = '/' → rest.head? ≠ some '/') :
    Apart x rest := by
  obtain ⟨_, noLetter, noUnderscore, noDigit, noQuote⟩ := mark
  refine ⟨?_, ?_, noQuote, noComment⟩
  · simpa [← wordStartOf] using not_or.mpr ⟨noLetter, noUnderscore⟩
  · simpa [← digitOf] using noDigit

theorem markNoGap (mark : Mark x) : isGap x = false := by
  simpa [← gapOf] using mark.1

theorem pairStands (mark : Mark x) (operator : x ∈ c.operators) (taking : x ∈ c.prefixes) :
    Stands c ⟨.operator, [x, '='], false⟩ :=
  ⟨.pair (markApart mark (by simp)) operator taking, by simpa [written] using markNoGap mark⟩

theorem operatorStands (mark : Mark x) (operator : x ∈ c.operators) :
    Stands c ⟨.operator, [x], false⟩ :=
  ⟨.operator (markApart mark (by simp)) operator (by simp), by simpa [written] using markNoGap mark⟩

theorem singleStands (mark : Mark x) (other : x ∉ c.operators) :
    Stands c ⟨punctuation x, [x], false⟩ := by
  refine ⟨.single (markApart mark (by simp)) other, ?_⟩
  rw [punctuationWritten]
  simpa using markNoGap mark

theorem tableMark (inside : (x, kind) ∈ table) : Mark x ∧ punctuation x = kind := by
  have all : ∀ entry ∈ table, Mark entry.1 ∧ punctuation entry.1 = entry.2 := by
    simp [table, punctuation, Mark, Gap, Letter, Digit]
  exact all _ inside

theorem tableStands (inside : (x, kind) ∈ table) (other : x ∉ c.operators) : Stands c ⟨kind, [x], false⟩ := by
  obtain ⟨mark, rfl⟩ := tableMark inside
  exact singleStands mark other

theorem unknownStands (mark : Mark x) (other : x ∉ c.operators) (outside : ∀ kind, (x, kind) ∉ table) :
    Stands c ⟨.unknown, [x], false⟩ := by
  rcases tablePunctuation x with inside | ⟨unknown, _⟩
  · exact absurd inside (outside _)
  · rw [← unknown]
    exact singleStands mark other

theorem spellableStands (valid : Spellable c kind text) : Stands c ⟨kind, text, false⟩ := by
  cases kind with
  | keyword =>
    have kind : wordKind c text = .keyword := if_pos (by simpa using valid.2)
    rw [← kind]
    exact wordStands valid.1
  | identifier =>
    have kind : wordKind c text = .identifier := if_neg (by simpa using valid.2)
    rw [← kind]
    exact wordStands valid.1
  | number => exact numeralStands valid
  | stringLiteral => exact ⟨.closed valid, by simp [written, isGap]⟩
  | comment => exact ⟨.comment valid (by simp), by simp [written, isGap]⟩
  | operator =>
    obtain ⟨x, operator, mark, rfl | ⟨taking, rfl⟩⟩ := valid
    · exact operatorStands mark operator
    · exact pairStands mark operator taking
  | unknown =>
    obtain ⟨x, rfl, mark, other, outside⟩ := valid
    exact unknownStands mark other outside
  | endOfInput => contradiction
  | _ =>
    obtain ⟨x, rfl, inside, other⟩ := valid
    exact tableStands inside other

end

section
variable {c : Config} {lexemes : List Lexeme} {text lead : List Char}

-- The gap in front of a lexeme goes with it, so the induction is over any text in front of the rest.
theorem spelledTiles (spelled : Spelled c lexemes text) (p : Position) (blank : ∀ x ∈ lead, Gap x) :
    ∃ placed, Tiles c p (lead ++ text) placed ∧ placed.map Placed.lexeme = lexemes := by
  induction spelled generalizing p lead with
  | done =>
    rw [List.append_nil]
    exact ⟨[], .done fun x member => (gapOf x).mpr (blank x member), rfl⟩
  | @next kind text gap lexemes rest valid blanks apart line more ih =>
    obtain ⟨cut, starts⟩ := spellableStands valid
    have whole : Cut c ⟨kind, text, false⟩ (gap ++ rest) := by
      cases gap with
      | nil =>
        obtain rfl : lexemes = [] := Classical.byContradiction fun some => apart some rfl
        cases more
        exact cut
      | cons x gap =>
        exact cutGap cut rfl ((gapOf x).mpr (blanks x (List.mem_cons_self ..)))
          (fun comment => line comment x rfl) (gap ++ rest)
    obtain ⟨placed, tiles, same⟩ := ih ((p.after lead).after (Lexeme.mk kind text false).written) blanks
    exact ⟨_, .tile (fun x member => (gapOf x).mpr (blank x member)) starts whole tiles, by simp [same]⟩

def Rereads (lexemes : List Lexeme) (read : Except Fault (List Token) × List Diagnostic) : Prop :=
  ∃ tokens ending, read.1 = .ok (tokens ++ [ending]) ∧ ending.isEnd = true ∧
    tokens.map (fun t => (t.kind, t.lexeme)) = lexemes.map (fun l => (l.kind, String.ofList l.text)) ∧
    read.2.filter Diagnostic.isUnterminated = []

theorem spelledWhole (spelled : Spelled c lexemes text) : ∀ l ∈ lexemes, l.cutOff = false := by
  induction spelled with
  | done => simp
  | next valid blank apart line more ih => exact List.forall_mem_cons.mpr ⟨rfl, ih⟩

theorem spelledPlain (spelled : Spelled c lexemes text) (blank : ∀ x ∈ lead, Gap x) (name : String) :
    (allFrom c {} (lead ++ text)).map Placed.lexeme = lexemes ∧
      Lexeme.diagnostics c name (lead ++ text) = [] := by
  obtain ⟨placed, tiles, same⟩ := spelledTiles spelled {} blank
  rw [Lexeme.diagnostics, tilesAll tiles]
  refine ⟨same, List.map_eq_nil_iff.mpr (List.filter_eq_nil_iff.mpr fun t member => ?_)⟩
  have whole := spelledWhole spelled t.lexeme (same ▸ List.mem_map_of_mem member)
  simp [whole]

theorem spelledGiven (spelled : Spelled c lexemes text) (blank : ∀ x ∈ lead, Gap x) {stream : Stream}
    (gives : stream.Gives c.width (lead ++ text)) (name : String) :
    Rereads lexemes (Lexer.run (Lexer.start (.ofStream stream c.width name) c)) := by
  obtain ⟨same, none⟩ := spelledPlain spelled blank name
  rw [runGives gives name, none]
  refine ⟨_, _, rfl, rfl, ?_, cutNotUnterminated _ _⟩
  rw [← same, List.map_map, List.map_map]
  rfl

/- No width and no way of delivering the text matters. Text in memory can only not be read at all, by windows
too wide for it. -/
theorem spellingUndone (spelled : Spelled c lexemes text) (blank : ∀ x ∈ lead, Gap x) :
    (∀ stream : Stream, stream.Gives c.width (lead ++ text) → ∀ name,
      Rereads lexemes (Lexer.run (Lexer.start (.ofStream stream c.width name) c))) ∧
    ∀ name, (c.width.size ≤ sizeLimit → Rereads lexemes (Lexer.run (Lexer.ofText (lead ++ text) c name)) ∧
        (Lexer.run (Lexer.ofText (lead ++ text) c name)).2 = []) ∧
      (sizeLimit < c.width.size →
        (Lexer.run (Lexer.ofText (lead ++ text) c name)).1 = .error .sizeLimit) := by
  refine ⟨fun stream gives name => spelledGiven spelled blank gives name, fun name =>
    ⟨fun fits => ?_, fun wide => ?_⟩⟩
  · refine ⟨spelledGiven spelled blank (Stream.textGives fits _) _, ?_⟩
    rw [runText fits]
    exact (spelledPlain spelled blank _).2
  · exact runTooWide wide _ name

theorem marksReread : ∃ lexemes text,
    lexemes = [⟨.comment, ['a', '"'], false⟩, ⟨.operator, ['/'], false⟩, ⟨.operator, ['>'], false⟩,
      ⟨.operator, ['>', '='], false⟩, ⟨.stringLiteral, ['\n', '/', '/'], false⟩] ∧
    text = ['/', '/', 'a', '"', '\n', '/', ' ', '>', '\t', '>', '=', '\r', '"', '\n', '/', '/', '"'] ∧
    Spelled .narrow lexemes text ∧ (∀ x ∈ [' '], Gap x) ∧
    Rereads lexemes (Lexer.run (Lexer.ofText ([' '] ++ text) .narrow "f")) := by
  have fits : Config.narrow.width.size ≤ sizeLimit := by decide
  have marks : ∀ x ∈ ['/', '>'], Mark x := by simp [Mark, Gap, Letter, Digit]
  have slash : '/' ∈ Config.narrow.operators := by decide
  have greater : '>' ∈ Config.narrow.operators ∧ '>' ∈ Config.narrow.prefixes := by decide
  have literal : Spelled .narrow [⟨.stringLiteral, ['\n', '/', '/'], false⟩] ['"', '\n', '/', '/', '"'] :=
    @Spelled.next .narrow .stringLiteral _ [] _ _ (by simp [Spellable]) (by simp) (by simp) (by simp) .done
  have pair := @Spelled.next .narrow .operator ['>', '='] ['\r'] _ _
    ⟨'>', greater.1, marks _ (by simp), .inr ⟨greater.2, rfl⟩⟩ (by simp [Gap]) (by simp) (by simp) literal
  have alone := @Spelled.next .narrow .operator ['>'] ['\t'] _ _
    ⟨'>', greater.1, marks _ (by simp), .inl rfl⟩ (by simp [Gap]) (by simp) (by simp) pair
  have division := @Spelled.next .narrow .operator ['/'] [' '] _ _
    ⟨'/', slash, marks _ (by simp), .inl rfl⟩ (by simp [Gap]) (by simp) (by simp) alone
  have spelled := @Spelled.next .narrow .comment ['a', '"'] ['\n'] _ _
    (by simp [Spellable]) (by simp [Gap]) (by simp) (by simp) division
  have blank : ∀ x ∈ [' '], Gap x := by simp [Gap]
  exact ⟨_, _, rfl, rfl, spelled, blank, (((spellingUndone spelled blank).2 "f").1 fits).1⟩

end

end WindowLex

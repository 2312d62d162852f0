import WindowLex.Proofs.Retelling

/-! The lexical rule of each kind of token. It says which lexemes the kind has and which character cannot
stand behind one of them, as the token would have taken it. The tables of the configuration may hold any
characters, those of words, gaps and marks included. -/
namespace WindowLex
open Lexical Lexeme

namespace Lexical

def Letter (x : Char) : Prop := 'A' ≤ x ∧ x ≤ 'Z' ∨ 'a' ≤ x ∧ x ≤ 'z'

def Digit (x : Char) : Prop := '0' ≤ x ∧ x ≤ '9'

def WordPart (x : Char) : Prop := Letter x ∨ Digit x ∨ x = '_'

def NumberPart (x : Char) : Prop := Digit x ∨ x = '.'

def Gap (x : Char) : Prop := x ∈ [' ', '\t', '\n', '\r', '\x0c', '\x0b']

def table : List (Char × Kind) := [
  ('(', .parenthesis), (')', .parenthesis), ('[', .bracket), (']', .bracket), ('\x7b', .brace),
  ('\x7d', .brace), (';', .semicolon), (',', .comma)]

theorem letterOf (x : Char) : x.isAlpha = true ↔ Letter x := by
  simp [Char.isAlpha, Char.isUpper, Char.isLower, Letter, Char.le_def]

theorem digitOf (x : Char) : x.isDigit = true ↔ Digit x := by
  simp [Char.isDigit, Digit, Char.le_def]

theorem wordPartOf (x : Char) : isWordPart x = true ↔ WordPart x := by
  simp [isWordPart, Char.isAlphanum, WordPart, letterOf, digitOf, or_assoc]

theorem wordStartOf (x : Char) : isWordStart x = true ↔ Letter x ∨ x = '_' := by
  simp [isWordStart, letterOf]

theorem numberPartOf (x : Char) : isNumberPart x = true ↔ NumberPart x := by
  simp [isNumberPart, NumberPart, digitOf]

theorem gapOf (x : Char) : isGap x = true ↔ Gap x := by
  simp [isGap, Gap, or_assoc]

theorem tablePunctuation (x : Char) : (x, punctuation x) ∈ table ∨
    punctuation x = .unknown ∧ ∀ kind, (x, kind) ∉ table := by
  unfold punctuation
  split
  case h_9 => exact .inr ⟨rfl, by simp_all [table]⟩
  all_goals exact .inl (by decide)

def Word (text : List Char) : Prop :=
  ∃ first rest, text = first :: rest ∧ (Letter first ∨ first = '_') ∧ ∀ x ∈ rest, WordPart x

def Numeral (text : List Char) : Prop :=
  ∃ first rest, text = first :: rest ∧ Digit first ∧ ∀ x ∈ rest, NumberPart x

def Rule (c : Config) (kind : Kind) (text : List Char) (next : Option Char) : Prop :=
  match kind with
  | .identifier => Word text ∧ String.ofList text ∉ c.keywords ∧ ∀ x ∈ next, ¬ WordPart x
  | .keyword => Word text ∧ String.ofList text ∈ c.keywords ∧ ∀ x ∈ next, ¬ WordPart x
  | .number => Numeral text ∧ ∀ x ∈ next, ¬ NumberPart x
  | .stringLiteral => '"' ∉ text
  | .comment => '\n' ∉ text ∧ ∀ x ∈ next, x = '\n'
  | .operator => (∃ p ∈ c.prefixes, text = [p, '=']) ∨
      ∃ x ∈ c.operators, text = [x] ∧ (x ∈ c.prefixes → next ≠ some '=')
  | .parenthesis | .bracket | .brace | .semicolon | .comma =>
      ∃ x, text = [x] ∧ (x, kind) ∈ table ∧ x ∉ c.operators
  | .unknown => ∃ x, text = [x] ∧ ¬ Gap x ∧ ¬ Letter x ∧ x ≠ '_' ∧ ¬ Digit x ∧ x ≠ '"' ∧
      x ∉ c.operators ∧ ∀ kind, (x, kind) ∉ table
  | .endOfInput => text = Token.endLexeme.toList ∧ next = none

end Lexical

theorem apartCharacters {first : Char} {rest : List Char} (apart : Apart first rest) :
    ¬ Letter first ∧ first ≠ '_' ∧ ¬ Digit first := by
  have noWord : ¬ (Letter first ∨ first = '_') := by simp [← wordStartOf, apart.noWord]
  exact ⟨fun letter => noWord (.inl letter), fun underscore => noWord (.inr underscore),
    by simp [← digitOf, apart.noDigit]⟩

theorem wordRule {c : Config} {text : List Char} {next : Option Char} (word : Word text)
    (stops : ∀ x ∈ next, ¬ WordPart x) : Rule c (wordKind c text) text next := by
  unfold wordKind
  split
  · rename_i known
    exact ⟨word, by simpa using known, stops⟩
  · rename_i unknown
    exact ⟨word, by simpa using unknown, stops⟩

theorem tableRule {c : Config} {x : Char} {kind : Kind} (inside : (x, kind) ∈ table)
    (other : x ∉ c.operators) (next : Option Char) : Rule c kind [x] next := by
  cases kind <;> first | exact ⟨x, rfl, inside, other⟩ | simp [table] at inside

theorem singleRule {c : Config} {first : Char} {rest : List Char} (apart : Apart first rest)
    (noGap : ¬ Gap first) (other : first ∉ c.operators) (next : Option Char) :
    Rule c (punctuation first) [first] next := by
  obtain ⟨noLetter, noUnderscore, noDigit⟩ := apartCharacters apart
  rcases tablePunctuation first with inside | ⟨unknown, outside⟩
  · exact tableRule inside other next
  · rw [unknown]
    exact ⟨first, rfl, noGap, noLetter, noUnderscore, noDigit, apart.noQuote, other, outside⟩

theorem cutRule {c : Config} {lexeme : Lexeme} {behind : List Char} (cut : Cut c lexeme behind)
    (starts : ∀ x ∈ lexeme.written.head?, isGap x = false) :
    Rule c lexeme.kind lexeme.text behind.head? := by
  cases cut with
  | word start inside stops =>
    refine wordRule ⟨_, _, rfl, (wordStartOf _).mp start, fun x member => ?_⟩ fun x first => ?_
    · exact (wordPartOf x).mp (inside x member)
    · simp [← wordPartOf, stops x first]
  | number digit inside stops =>
    refine ⟨⟨_, _, rfl, (digitOf _).mp digit, fun x member => ?_⟩, fun x first => ?_⟩
    · exact (numberPartOf x).mp (inside x member)
    · simp [← numberPartOf, stops x first]
  | closed inside => exact inside
  | cutOff inside => exact inside
  | comment inside stops => exact ⟨inside, stops⟩
  | pair apart operator taking => exact .inl ⟨_, taking, rfl⟩
  | operator apart operator alone => exact .inr ⟨_, operator, rfl, alone⟩
  | @single first behind apart other =>
    rw [punctuationWritten] at starts
    exact singleRule apart (by simp [← gapOf, starts first rfl]) other behind.head?

theorem cutSlash {c : Config} {lexeme : Lexeme} {behind : List Char} (cut : Cut c lexeme behind)
    (slash : lexeme.written = ['/']) : behind.head? ≠ some '/' := by
  cases cut with
  | word start =>
    rw [wordWritten] at slash
    rw [(List.cons.inj slash).1] at start
    contradiction
  | number digit =>
    rw [(List.cons.inj slash).1] at digit
    contradiction
  | operator apart => exact apart.noComment (List.cons.inj slash).1
  | single apart =>
    rw [punctuationWritten] at slash
    exact apart.noComment (List.cons.inj slash).1
  | _ => simp [written] at slash

theorem cutEmpty {c : Config} {lexeme : Lexeme} {behind : List Char} (cut : Cut c lexeme behind)
    (none : lexeme.text = []) : lexeme.kind = .stringLiteral ∨ lexeme.kind = .comment := by
  cases cut with
  | closed => exact .inl rfl
  | cutOff => exact .inl rfl
  | comment => exact .inr rfl
  | _ => contradiction

def Lawful (c : Config) (recorded : List Diagnostic) (text : List Char) (t : Token) : Prop :=
  ∃ before behind, text = before ++ (t.rendered recorded ++ behind) ∧
    t.position = (Text.Cursor.mk text before.length).position ∧
    Rule c t.kind t.lexeme.toList behind.head? ∧
    (t.rendered recorded = ['/'] → behind.head? ≠ some '/') ∧
    (t.lexeme = "" → t.kind = .stringLiteral ∨ t.kind = .comment)

theorem endLawful (c : Config) (recorded : List Diagnostic) (name : String) (text : List Char) :
    Lawful c recorded text ⟨.endOfInput, Token.endLexeme, Position.after {} text, name⟩ := by
  have whole : text = text ++ [] := (List.append_nil text).symm
  refine ⟨text, [], whole, (Text.Cursor.positionBehind whole).symm, ⟨rfl, rfl⟩, ?_, ?_⟩
  · exact fun slash => absurd slash (by simp [Token.rendered])
  · exact fun none => absurd none (show Token.endLexeme ≠ "" by decide)

theorem tilesLawful {c : Config} {text : List Char} {placed : List Placed} {name : String}
    {recorded : List Diagnostic} (tiles : Tiles c {} text placed)
    (tells : ∀ place, .unterminatedString place ∈ recorded ↔ .unterminatedString place ∈ cuts name placed) :
    ∀ t ∈ placed, Lawful c recorded text (t.token name) := by
  intro t member
  obtain ⟨before, behind, parts, place, starts, cut⟩ := tilesCut tiles t member
  have rendered := tilesRendered tiles tells t member
  have lexeme : (t.token name).lexeme.toList = t.lexeme.text := String.toList_ofList
  refine ⟨before, behind, by rw [rendered]; exact parts, ?_, ?_, ?_, ?_⟩
  · exact place.trans (Text.Cursor.positionBehind parts).symm
  · rw [lexeme]
    exact cutRule cut starts
  · rw [rendered]
    exact cutSlash cut
  · intro none
    rw [none] at lexeme
    exact cutEmpty cut lexeme.symm

theorem givesLawful {stream : Stream} {c : Config} {text : List Char} (gives : stream.Gives c.width text)
    (name : String) :
    ∃ tokens recorded, Lexer.run (Lexer.start (.ofStream stream c.width name) c) = (.ok tokens, recorded) ∧
      ∀ t ∈ tokens, Lawful c recorded text t := by
  refine ⟨_, _, runGives gives name, fun t member => ?_⟩
  rcases List.mem_append.mp member with inside | last
  · obtain ⟨u, placed, rfl⟩ := List.mem_map.mp inside
    exact tilesLawful (allTiles c {} text) (unterminatedRecorded _ _ _) u placed
  · rw [List.mem_singleton.mp last]
    exact endLawful c _ name text

inductive Opened (c : Config) (text : List Char) : Except Fault Unit × Lexer → Prop where
  | text (name : String) : Opened c text (Lexer.ofText text c name)
  | stream {stream} (gives : stream.Gives c.width text) (name : String) :
      Opened c text (Lexer.start (.ofStream stream c.width name) c)

/- Only windows that are too wide for a text in memory keep its tokens back. -/
theorem tokensLawful {c : Config} {text : List Char} {started : Except Fault Unit × Lexer}
    (opened : Opened c text started) :
    (∃ tokens recorded, Lexer.run started = (.ok tokens, recorded) ∧
      ∀ t ∈ tokens, Lawful c recorded text t) ∨
    sizeLimit < c.width.size ∧ (Lexer.run started).1 = .error .sizeLimit := by
  cases opened with
  | stream gives name => exact .inl (givesLawful gives name)
  | text name =>
    by_cases fits : c.width.size ≤ sizeLimit
    · exact .inl (givesLawful (Stream.textGives fits text) (sourceName (some name) none))
    · exact .inr ⟨Nat.lt_of_not_le fits, runTooWide (Nat.lt_of_not_le fits) text name⟩

def Config.crowded : Config :=
  { Config.narrow with
    keywords := ["a"]
    operators := ['"', '(', '/', 'a']
    prefixes := ['(']
    keywordsNonempty := by decide
    prefixesAreOperators := by simp }

theorem crowdedLawful : ∃ text tokens recorded,
    text = ['(', '=', '/', ' ', 'a', '(', ')', '"', '/', '"', '/', '/'] ∧
    Opened .crowded text (Lexer.ofText text .crowded "f") ∧
    Lexer.run (Lexer.ofText text .crowded "f") = (.ok tokens, recorded) ∧
    tokens.map Token.kind = [.operator, .operator, .keyword, .operator, .parenthesis, .stringLiteral,
      .comment, .endOfInput] ∧
    ∀ t ∈ tokens, Lawful .crowded recorded text t := by
  have fits : Config.crowded.width.size ≤ sizeLimit := by decide
  have opened : Opened .crowded ['(', '=', '/', ' ', 'a', '(', ')', '"', '/', '"', '/', '/'] _ := .text "f"
  rcases tokensLawful opened with ⟨tokens, recorded, run, lawful⟩ | ⟨wide, _⟩
  · refine ⟨_, tokens, recorded, rfl, opened, run, ?_, lawful⟩
    obtain ⟨found, _⟩ := Prod.mk.inj (run.symm.trans (runText fits _ "f"))
    rw [Except.ok.inj found]
    cbv
  · exact absurd fits (Nat.not_le.mpr wide)

end WindowLex

import WindowLex.Diagnostic
import WindowLex.Lexeme

/-! The lexemes of a text that is at hand as a whole. Neither windows nor reads play a part here, so this
is what any reading of the text in pieces has to agree with. -/
namespace WindowLex.Lexeme
open Lexical

def split (c : Config) (first : Char) (rest : List Char) : Lexeme × List Char :=
  if isWordStart first then
    let text := first :: rest.takeWhile isWordPart
    (⟨wordKind c text, text, false⟩, rest.dropWhile isWordPart)
  else if first.isDigit then
    (⟨.number, first :: rest.takeWhile isNumberPart, false⟩, rest.dropWhile isNumberPart)
  else if first = '"' then
    let text := rest.takeWhile (· ≠ '"')
    match rest.dropWhile (· ≠ '"') with
    | [] => (⟨.stringLiteral, text, true⟩, [])
    | _ :: behind => (⟨.stringLiteral, text, false⟩, behind)
  else match first, rest with
    | '/', '/' :: line => (⟨.comment, line.takeWhile (· ≠ '\n'), false⟩, line.dropWhile (· ≠ '\n'))
    | _, _ =>
      if c.operators.contains first then
        match rest with
        | '=' :: behind =>
          if c.prefixes.contains first then (⟨.operator, [first, '='], false⟩, behind)
          else (⟨.operator, [first], false⟩, rest)
        | _ => (⟨.operator, [first], false⟩, rest)
      else (⟨punctuation first, [first], false⟩, rest)

theorem dropWhileAtMost {p : Char → Bool} (text : List Char) :
    (text.dropWhile p).length ≤ text.length := (List.dropWhile_sublist p).length_le

theorem splitAtMost (c : Config) (first : Char) (rest : List Char) :
    (split c first rest).2.length ≤ rest.length := by
  unfold split
  split
  · exact dropWhileAtMost rest
  split
  · exact dropWhileAtMost rest
  split
  · have short := dropWhileAtMost (p := fun x => decide (x ≠ '"')) rest
    split
    · exact Nat.zero_le _
    · rename_i left
      rw [left] at short
      exact Nat.le_of_succ_le short
  split
  · exact Nat.le_succ_of_le (dropWhileAtMost _)
  split
  · split
    · split
      · exact Nat.le_succ _
      · exact Nat.le_refl _
    · exact Nat.le_refl _
  · exact Nat.le_refl _

structure Placed where
  lexeme : Lexeme
  position : Position
  deriving DecidableEq, Repr

def allFrom (c : Config) (position : Position) (text : List Char) : List Placed :=
  match _ : text.dropWhile isGap with
  | [] => []
  | first :: rest =>
    let start := position.after (text.takeWhile isGap)
    let cut := split c first rest
    ⟨cut.1, start⟩ :: allFrom c (start.after cut.1.written) cut.2
  termination_by text.length
  decreasing_by
    rename_i left
    have short := dropWhileAtMost (p := isGap) text
    rw [left] at short
    exact Nat.lt_of_le_of_lt (splitAtMost _ first rest) short

def Placed.token (sourceName : String) (p : Placed) : Token :=
  ⟨p.lexeme.kind, String.ofList p.lexeme.text, p.position, sourceName⟩

def tokens (c : Config) (sourceName : String) (text : List Char) : List Token :=
  (allFrom c {} text).map (Placed.token sourceName)
    ++ [⟨.endOfInput, Token.endLexeme, Position.after {} text, sourceName⟩]

def diagnostics (c : Config) (sourceName : String) (text : List Char) : List Diagnostic :=
  ((allFrom c {} text).filter (·.lexeme.cutOff)).map fun p =>
    .unterminatedString (some ⟨sourceName, p.position⟩)

end WindowLex.Lexeme

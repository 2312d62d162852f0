import WindowLex.Collector
import WindowLex.Source.Opening
import WindowLex.Source.Scan

/-! Tokens on demand. Each pull skips white space, takes one lexeme and leaves the cursor on the first
character after it. Only the source carries over from one pull to the next; what went wrong is recorded
among the diagnostics and does not stop the scan. -/
namespace WindowLex

structure Lexer where
  source : Source
  config : Config
  diagnostics : Collector := {}
  tokenCount : Nat := 0
  ended : Bool := false
  deriving DecidableEq, Repr

namespace Lexer

def start (source : Source) (config : Config) : Except Fault Unit × Lexer :=
  let (primed, source) := source.prime
  (primed, { source, config })

def ofText (text : List Char) (config : Config) (name : String := anonymous) :
    Except Fault Unit × Lexer :=
  start (.ofText text config.width name) config

def ofPath (files : Files) (path : GivenPath) (config : Config) (layer : TextLayer := .standard) :
    Except OpenIssue (Except Fault Unit × Lexer) := do
  return start (← Source.ofPath files path config.encoding config.width none layer) config

def ofFile (files : Files) (path : String) (config : Config) (layer : TextLayer := .standard) :
    Except OpenIssue (Except Fault Unit × Lexer) :=
  ofPath files (.name path) config layer

def close (l : Lexer) : Lexer := { l with source := l.source.close }

def give (l : Lexer) (kind : Kind) (lexeme : String) (position : Position) : Token × Lexer :=
  let token : Token := ⟨kind, lexeme, position, l.source.name⟩
  (token, { l with tokenCount := l.tokenCount + 1, source := l.source.note (.token token) })

def reachEnd (l : Lexer) : Lexer :=
  if l.ended then l
  else
    let diagnostics := match l.source.readError with
      | none => l.diagnostics
      | some cut => l.diagnostics.add cut
    { l with
      diagnostics
      ended := true
      source := l.source.note (.finished l.source.name (l.tokenCount + 1) diagnostics.count) }

def recordCut (l : Lexer) (lexeme : Lexeme) (start : Position) : Lexer :=
  if lexeme.cutOff then
    let place : Location := ⟨l.source.name, start⟩
    { l with
      diagnostics := l.diagnostics.add (.unterminatedString (some place))
      source := l.source.note (.unterminated place) }
  else l

def next (l : Lexer) : Except Fault Token × Lexer :=
  match l.source.takeWhile Lexical.isGap [] with
  | (.error fault, source) => (.error fault, { l with source })
  | (.ok _, source) =>
    match source.current with
    | none =>
      let (token, l) := { l with source }.reachEnd.give .endOfInput Token.endLexeme source.position
      (.ok token, l)
    | some first =>
      match source.scan l.config first with
      | (.error fault, source) => (.error fault, { l with source })
      | (.ok lexeme, rest) =>
        let (token, l) := ({ l with source := rest }.recordCut lexeme source.position).give
          lexeme.kind (String.ofList lexeme.text) source.position
        (.ok token, l)

theorem recordCutRemaining (l : Lexer) (lexeme : Lexeme) (start : Position) :
    (l.recordCut lexeme start).source.remaining = l.source.remaining := by
  unfold recordCut; split <;> rfl

theorem nextRemaining {l l' : Lexer} {t} (h : l.next = (.ok t, l')) (more : t.isEnd = false) :
    l'.source.remaining < l.source.remaining := by
  unfold next at h
  split at h
  · cases h
  · rename_i gap
    have atMost := Source.takeWhileRemaining gap
    split at h
    · cases h
      simp [Token.isEnd] at more
    · rename_i here
      split at h
      · cases h
      · rename_i scanned
        have less := Source.scanRemaining here scanned
        cases h
        refine Nat.lt_of_le_of_lt (Nat.le_of_eq (recordCutRemaining _ _ _)) ?_
        exact Nat.lt_of_lt_of_le less atMost

/-- All tokens up to the first at the end of the input, after those in `taken`, which is in reverse. -/
def tokensFrom (l : Lexer) (taken : List Token) : Except Fault (List Token) × Lexer :=
  match _ : l.next with
  | (.error fault, l) => (.error fault, l)
  | (.ok token, l') =>
    if _ : token.isEnd then (.ok (token :: taken).reverse, l') else l'.tokensFrom (token :: taken)
  termination_by l.source.remaining
  decreasing_by rename_i pulled last; exact nextRemaining pulled (by simpa using last)

def tokenize (l : Lexer) : Except Fault (List Token) × Lexer := l.tokensFrom []

def takeFrom (l : Lexer) (taken : List Token) : (more : Nat) → Except Fault (List Token) × Lexer
  | 0 =>
    match l.next with
    | (.error fault, l) => (.error fault, l)
    | (.ok token, l) => (.ok (token :: taken).reverse, l)
  | more + 1 =>
    match l.next with
    | (.error fault, l) => (.error fault, l)
    | (.ok token, l) =>
      if token.isEnd then (.ok (token :: taken).reverse, l) else l.takeFrom (token :: taken) more

def take (l : Lexer) (n : Nat) : Except Fault (List Token) × Lexer := l.takeFrom [] (n - 1)

def tokenizeAndClose (l : Lexer) : Except Fault (List Token) × Lexer :=
  let (tokens, l) := l.tokenize
  (tokens, l.close)

end Lexer

end WindowLex

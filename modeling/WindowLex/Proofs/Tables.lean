import WindowLex.Proofs.Spelling

/-! What the tables of a configuration decide. Where a token ends depends on the operators that take an equals sign
and on nothing else in them; the other tables only name what was cut. Characters that never come to the
operators do not count among them. -/
namespace WindowLex
open Lexical Lexeme

namespace Kind

def ofWords : List Kind := [identifier, keyword]

def ofMarks : List Kind := [operator, parenthesis, bracket, brace, semicolon, comma, unknown]

def Akin (k l : Kind) : Prop := k = l ∨ (k ∈ ofWords ∧ l ∈ ofWords) ∨ (k ∈ ofMarks ∧ l ∈ ofMarks)

end Kind

structure Token.Alike (R : Kind → Kind → Prop) (t u : Token) : Prop where
  lexeme : t.lexeme = u.lexeme
  position : t.position = u.position
  sourceName : t.sourceName = u.sourceName
  kind : R t.kind u.kind

namespace Lexeme

structure Alike (R : Kind → Kind → Prop) (l m : Lexeme) : Prop where
  text : l.text = m.text
  cutOff : l.cutOff = m.cutOff
  kind : R l.kind m.kind

structure Placed.Alike (R : Kind → Kind → Prop) (t u : Placed) : Prop where
  lexeme : t.lexeme.Alike R u.lexeme
  position : t.position = u.position

def markKind (c : Config) (first : Char) : Kind := if first ∈ c.operators then .operator else punctuation first

end Lexeme

structure Config.Renames (R : Kind → Kind → Prop) (c d : Config) : Prop where
  same : ∀ k, R k k
  akin : ∀ k l, R k l → k.Akin l
  words : ∀ text, R (wordKind c text) (wordKind d text)
  marks : ∀ x, Mark x → R (markKind c x) (markKind d x)
  prefixes : ∀ x, Mark x → (x ∈ c.prefixes ↔ x ∈ d.prefixes)

structure Config.SameMarks (c d : Config) : Prop where
  keywords : ∀ word, word ∈ c.keywords ↔ word ∈ d.keywords
  operators : ∀ x, Mark x → (x ∈ c.operators ↔ x ∈ d.operators)
  prefixes : ∀ x, Mark x → (x ∈ c.prefixes ↔ x ∈ d.prefixes)

section
variable {R : Kind → Kind → Prop} {c d : Config} {first : Char} {rest : List Char} {l m : Lexeme}
  {placed others : List Placed}

theorem wordKindWords (c : Config) (text : List Char) : wordKind c text ∈ Kind.ofWords := by
  unfold wordKind
  split <;> simp [Kind.ofWords]

theorem markKindMarks (c : Config) (first : Char) : markKind c first ∈ Kind.ofMarks := by
  unfold markKind punctuation
  split
  · simp [Kind.ofMarks]
  · split <;> simp [Kind.ofMarks]

theorem prefixesRename (same : ∀ x, x ∈ c.prefixes ↔ x ∈ d.prefixes) : c.Renames Kind.Akin d where
  same _ := .inl rfl
  akin _ _ akin := akin
  words text := .inr (.inl ⟨wordKindWords c text, wordKindWords d text⟩)
  marks x _ := .inr (.inr ⟨markKindMarks c x, markKindMarks d x⟩)
  prefixes x _ := same x

theorem marksRename (same : c.SameMarks d) : c.Renames Eq d where
  same _ := rfl
  akin _ _ := .inl
  words text := by simp only [wordKind, List.contains_iff_mem, same.keywords]
  marks x mark := by simp only [markKind, same.operators x mark]
  prefixes := same.prefixes

theorem apartMark (apart : Apart first rest) (starts : isGap first = false) : Mark first := by
  obtain ⟨noLetter, noUnderscore, noDigit⟩ := apartCharacters apart
  exact ⟨by simp [← gapOf, starts], noLetter, noUnderscore, noDigit, apart.noQuote⟩

theorem splitMark (apart : Apart first rest) :
    split c first rest =
      if first ∈ c.prefixes ∧ rest.head? = some '=' then (⟨.operator, [first, '='], false⟩, rest.tail)
      else (⟨markKind c first, [first], false⟩, rest) := by
  rw [splitApart apart, markKind]
  by_cases operator : first ∈ c.operators
  · simp only [if_pos operator]
  · have single : ¬(first ∈ c.prefixes ∧ rest.head? = some '=') :=
      fun pair => operator (c.prefixesAreOperators first pair.1)
    rw [if_neg operator, if_neg operator, if_neg single]

theorem splitRenames (renames : c.Renames R d) (starts : isGap first = false) (rest : List Char) :
    (split c first rest).1.Alike R (split d first rest).1 ∧ (split c first rest).2 = (split d first rest).2 := by
  cases startOf first rest with
  | word start =>
    rw [splitWord start, splitWord start]
    exact ⟨⟨rfl, rfl, renames.words _⟩, rfl⟩
  | number noWord digit =>
    rw [splitNumber noWord digit, splitNumber noWord digit]
    exact ⟨⟨rfl, rfl, renames.same _⟩, rfl⟩
  | quote rest =>
    cases left : rest.dropWhile (· ≠ '"') with
    | nil =>
      rw [splitCutOff left, splitCutOff left]
      exact ⟨⟨rfl, rfl, renames.same _⟩, rfl⟩
    | cons q behind =>
      rw [splitClosed left, splitClosed left]
      exact ⟨⟨rfl, rfl, renames.same _⟩, rfl⟩
  | comment line =>
    rw [splitComment, splitComment]
    exact ⟨⟨rfl, rfl, renames.same _⟩, rfl⟩
  | apart apart =>
    have mark := apartMark apart starts
    simp only [splitMark apart, renames.prefixes first mark]
    split
    · exact ⟨⟨rfl, rfl, renames.same _⟩, rfl⟩
    · exact ⟨⟨rfl, rfl, renames.marks first mark⟩, rfl⟩

theorem writtenPlain (plain : l.kind ∈ Kind.ofWords ∨ l.kind ∈ Kind.ofMarks) : l.written = l.text := by
  unfold written
  split <;> simp_all [Kind.ofWords, Kind.ofMarks]

theorem writtenAlike (akin : ∀ k l, R k l → k.Akin l) (alike : l.Alike R m) : l.written = m.written := by
  rcases akin _ _ alike.kind with same | words | marks
  · simp only [written, same, alike.text, alike.cutOff]
  · rw [writtenPlain (.inl words.1), writtenPlain (.inl words.2), alike.text]
  · rw [writtenPlain (.inr marks.1), writtenPlain (.inr marks.2), alike.text]

theorem allFromRenames (renames : c.Renames R d) (p : Position) (text : List Char) :
    List.Forall₂ (Placed.Alike R) (allFrom c p text) (allFrom d p text) := by
  fun_induction allFrom c p text with
  | case1 p text blank =>
    rw [allFromBlank blank]
    exact .nil
  | case2 p text first rest here start cut ih =>
    have starts : isGap first = false := dropWhileStops (congrArg List.head? here)
    obtain ⟨alike, behind⟩ := splitRenames renames starts rest
    rw [allFromTakes here, ← writtenAlike renames.akin alike, ← behind]
    exact .cons ⟨alike, rfl⟩ ih

theorem cutsAlike (alike : List.Forall₂ (Placed.Alike R) placed others) (name : String) :
    cuts name placed = cuts name others := by
  induction alike with
  | nil => rfl
  | @cons t u placed others first rest ih =>
    have one : cuts name [t] = cuts name [u] := by
      simp only [cuts, List.filter_cons, List.filter_nil, first.lexeme.cutOff]
      split <;> simp [first.position]
    rw [cutsCons, cutsCons name u, one, ih]

theorem tokensAlike (alike : List.Forall₂ (Placed.Alike R) placed others) (name : String) {last : Token}
    (ends : R last.kind last.kind) :
    List.Forall₂ (Token.Alike R) (placed.map (Placed.token name) ++ [last])
      (others.map (Placed.token name) ++ [last]) := by
  induction alike with
  | nil => exact .cons ⟨rfl, rfl, rfl, ends⟩ .nil
  | cons first rest ih =>
    exact .cons ⟨congrArg String.ofList first.lexeme.text, first.position, rfl, first.lexeme.kind⟩ ih

theorem alikeSame {tokens others : List Token} (alike : List.Forall₂ (Token.Alike Eq) tokens others) :
    tokens = others := by
  induction alike with
  | nil => rfl
  | @cons t u tokens others first rest ih =>
    obtain ⟨lexeme, position, sourceName, kind⟩ := first
    cases t
    cases u
    simp_all

theorem runRenames (renames : c.Renames R d) (fits : c.width.size ≤ sizeLimit) (fitsToo : d.width.size ≤ sizeLimit)
    (text : List Char) (name : String) : ∃ tokens others recorded,
      Lexer.run (Lexer.ofText text c name) = (.ok tokens, recorded) ∧
      Lexer.run (Lexer.ofText text d name) = (.ok others, recorded) ∧
      List.Forall₂ (Token.Alike R) tokens others := by
  have alike := allFromRenames renames {} text
  have recorded : diagnostics c (sourceName (some name) none) text =
      diagnostics d (sourceName (some name) none) text := cutsAlike alike _
  have runToo := runText fitsToo text name
  rw [← recorded] at runToo
  exact ⟨_, _, _, runText fits text name, runToo, tokensAlike alike _ (renames.same _)⟩

end

/- The first part is about any two configurations whose operators take an equals sign alike, the second about
two that differ in characters that start a token of another kind, or none. -/
theorem boundariesFollowPrefixes {c d : Config} (fits : c.width.size ≤ sizeLimit)
    (fitsToo : d.width.size ≤ sizeLimit) (text : List Char) (name : String) :
    ((∀ x, x ∈ c.prefixes ↔ x ∈ d.prefixes) → ∃ tokens others recorded,
      Lexer.run (Lexer.ofText text c name) = (.ok tokens, recorded) ∧
      Lexer.run (Lexer.ofText text d name) = (.ok others, recorded) ∧
      List.Forall₂ (Token.Alike Kind.Akin) tokens others) ∧
    (c.SameMarks d → ∃ tokens recorded, Lexer.run (Lexer.ofText text c name) = (.ok tokens, recorded) ∧
      Lexer.run (Lexer.ofText text d name) = (.ok tokens, recorded)) := by
  refine ⟨fun same => runRenames (prefixesRename same) fits fitsToo text name, fun same => ?_⟩
  obtain ⟨tokens, others, recorded, run, runToo, alike⟩ := runRenames (marksRename same) fits fitsToo text name
  rw [← alikeSame alike] at runToo
  exact ⟨tokens, recorded, run, runToo⟩

def Config.cleared : Config := { crowded with operators := ['(', '/'], prefixesAreOperators := by simp [crowded] }

def Config.sparse : Config :=
  { crowded with
    keywords := []
    operators := ['(', ')']
    keywordsNonempty := by simp
    prefixesAreOperators := by simp [crowded] }

theorem crowdedCleared : Config.crowded.SameMarks .cleared where
  keywords _ := Iff.rfl
  operators x mark := by
    have noLetter : x ≠ 'a' := by
      rintro rfl
      exact mark.2.1 (.inr (by decide))
    simp [Config.crowded, Config.cleared, noLetter, mark.2.2.2.2]
  prefixes _ _ := Iff.rfl

theorem crowdedRenamed : Config.crowded.width.size ≤ sizeLimit ∧ Config.sparse.width.size ≤ sizeLimit ∧
    (∀ x, x ∈ Config.crowded.prefixes ↔ x ∈ Config.sparse.prefixes) ∧ Config.crowded.SameMarks .cleared ∧
    ∃ tokens others recorded,
      Lexer.run (Lexer.ofText ['(', '=', 'a', '/', ')', '"', 'a'] .crowded "f") = (.ok tokens, recorded) ∧
      Lexer.run (Lexer.ofText ['(', '=', 'a', '/', ')', '"', 'a'] .cleared "f") = (.ok tokens, recorded) ∧
      Lexer.run (Lexer.ofText ['(', '=', 'a', '/', ')', '"', 'a'] .sparse "f") = (.ok others, recorded) ∧
      tokens.map Token.kind =
        [.operator, .keyword, .operator, .parenthesis, .stringLiteral, .endOfInput] ∧
      others.map Token.kind =
        [.operator, .identifier, .unknown, .operator, .stringLiteral, .endOfInput] ∧
      List.Forall₂ (Token.Alike Kind.Akin) tokens others := by
  have fits : Config.crowded.width.size ≤ sizeLimit := by decide
  have same : ∀ x, x ∈ Config.crowded.prefixes ↔ x ∈ Config.sparse.prefixes := fun _ => Iff.rfl
  obtain ⟨tokens, others, recorded, run, runToo, alike⟩ :=
    (boundariesFollowPrefixes (d := .sparse) fits fits ['(', '=', 'a', '/', ')', '"', 'a'] "f").1 same
  obtain ⟨cleared, problems, runFull, runCleared⟩ :=
    (boundariesFollowPrefixes (d := .cleared) fits fits ['(', '=', 'a', '/', ')', '"', 'a'] "f").2 crowdedCleared
  rw [← run.symm.trans runFull] at runCleared
  refine ⟨fits, fits, same, crowdedCleared, tokens, others, recorded, run, runCleared, runToo, ?_, ?_, alike⟩
  · obtain ⟨found, _⟩ := Prod.mk.inj (run.symm.trans (runText fits _ "f"))
    rw [Except.ok.inj found]
    cbv
  · obtain ⟨found, _⟩ := Prod.mk.inj (runToo.symm.trans (runText (c := .sparse) fits _ "f"))
    rw [Except.ok.inj found]
    cbv

end WindowLex

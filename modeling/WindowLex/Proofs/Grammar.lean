import Mathlib.Data.List.TakeWhile
import WindowLex.Lexeme.Plain

/-! The lexical grammar. One lexeme is told by its first characters alone, and what stands behind it does
not extend it; nothing of the text is lost between the two. -/
namespace WindowLex.Lexeme
open Lexical

structure Apart (first : Char) (rest : List Char) : Prop where
  noWord : isWordStart first = false
  noDigit : first.isDigit = false
  noQuote : first ≠ '"'
  noComment : first = '/' → rest.head? ≠ some '/'

inductive Start : Char → List Char → Prop where
  | word {first rest} (start : isWordStart first = true) : Start first rest
  | number {first rest} (noWord : isWordStart first = false) (digit : first.isDigit = true) :
      Start first rest
  | quote (rest) : Start '"' rest
  | comment (line) : Start '/' ('/' :: line)
  | apart {first rest} (apart : Apart first rest) : Start first rest

theorem startOf (first : Char) (rest : List Char) : Start first rest := by
  cases word : isWordStart first with
  | true => exact .word word
  | false =>
    cases digit : first.isDigit with
    | true => exact .number word digit
    | false =>
      by_cases quote : first = '"'
      · exact quote ▸ .quote rest
      by_cases comment : first = '/' ∧ rest.head? = some '/'
      · obtain ⟨rfl, second⟩ := comment
        obtain ⟨line, rfl⟩ := List.head?_eq_some_iff.mp second
        exact .comment line
      · exact .apart ⟨word, digit, quote, fun slash second => comment ⟨slash, second⟩⟩

theorem splitWord {c : Config} {first : Char} {rest : List Char} (start : isWordStart first = true) :
    split c first rest =
      (⟨wordKind c (first :: rest.takeWhile isWordPart), first :: rest.takeWhile isWordPart, false⟩,
        rest.dropWhile isWordPart) := by
  simp [split, start]

theorem splitNumber {c : Config} {first : Char} {rest : List Char} (word : isWordStart first = false)
    (digit : first.isDigit = true) :
    split c first rest =
      (⟨.number, first :: rest.takeWhile isNumberPart, false⟩, rest.dropWhile isNumberPart) := by
  simp [split, word, digit]

theorem splitCutOff {c : Config} {rest : List Char} (open_ : rest.dropWhile (· ≠ '"') = []) :
    split c '"' rest = (⟨.stringLiteral, rest.takeWhile (· ≠ '"'), true⟩, []) := by
  unfold split
  rw [if_neg (by decide), if_neg (by decide), if_pos rfl, open_]

theorem splitClosed {c : Config} {q : Char} {rest behind : List Char}
    (closed : rest.dropWhile (· ≠ '"') = q :: behind) :
    split c '"' rest = (⟨.stringLiteral, rest.takeWhile (· ≠ '"'), false⟩, behind) := by
  unfold split
  rw [if_neg (by decide), if_neg (by decide), if_pos rfl, closed]

theorem splitComment (c : Config) (line : List Char) :
    split c '/' ('/' :: line) =
      (⟨.comment, line.takeWhile (· ≠ '\n'), false⟩, line.dropWhile (· ≠ '\n')) := by
  unfold split
  rw [if_neg (by decide), if_neg (by decide), if_neg (by decide)]
  rfl

theorem splitApart {c : Config} {first : Char} {rest : List Char} (apart : Apart first rest) :
    split c first rest =
      if first ∈ c.operators then
        if first ∈ c.prefixes ∧ rest.head? = some '=' then (⟨.operator, [first, '='], false⟩, rest.tail)
        else (⟨.operator, [first], false⟩, rest)
      else (⟨punctuation first, [first], false⟩, rest) := by
  unfold split
  rw [if_neg (by simp [apart.noWord]), if_neg (by simp [apart.noDigit]), if_neg apart.noQuote]
  split
  · rename_i line
    exact absurd rfl (apart.noComment rfl)
  · simp only [List.contains_iff_mem]
    split
    · cases rest with
      | nil => simp
      | cons d behind =>
        by_cases equals : d = '='
        · subst equals
          simp
        · simp [equals]
    · rfl

theorem wordWritten (c : Config) (word text : List Char) :
    (Lexeme.mk (wordKind c word) text false).written = text := by
  unfold wordKind
  split <;> rfl

theorem punctuationWritten (first : Char) (text : List Char) :
    (Lexeme.mk (punctuation first) text false).written = text := by
  unfold punctuation
  split <;> rfl

theorem dropWhileStops {p : Char → Bool} {text : List Char} {x : Char}
    (first : (text.dropWhile p).head? = some x) : p x = false := by
  have stops := List.head?_dropWhile_not p text
  rwa [first] at stops

theorem closingQuote {rest behind : List Char} {q : Char}
    (left : rest.dropWhile (· ≠ '"') = q :: behind) : q = '"' := by
  have stops := dropWhileStops (congrArg List.head? left)
  simpa using stops

theorem splitWritten (c : Config) (first : Char) (rest : List Char) :
    (split c first rest).1.written ++ (split c first rest).2 = first :: rest := by
  cases startOf first rest with
  | word start => simp [splitWord start, wordWritten]
  | number noWord digit => simp [splitNumber noWord digit, written]
  | quote rest =>
    have parts : rest.takeWhile (· ≠ '"') ++ rest.dropWhile (· ≠ '"') = rest :=
      List.takeWhile_append_dropWhile
    cases left : rest.dropWhile (· ≠ '"') with
    | nil =>
      rw [left, List.append_nil] at parts
      simp only [splitCutOff left, written, parts]
      simp
    | cons q behind =>
      rw [left, closingQuote left] at parts
      rw [splitClosed left]
      simpa [written] using parts
  | comment line => simp [splitComment, written]
  | apart apart =>
    rw [splitApart apart]
    split
    · split
      · rename_i taken
        obtain ⟨behind, rfl⟩ := List.head?_eq_some_iff.mp taken.2
        rfl
      · rfl
    · simp [punctuationWritten]

inductive Cut (c : Config) : Lexeme → List Char → Prop where
  | word {first parts behind} (start : isWordStart first = true)
      (inside : ∀ x ∈ parts, isWordPart x = true) (stops : ∀ x ∈ behind.head?, isWordPart x = false) :
      Cut c ⟨wordKind c (first :: parts), first :: parts, false⟩ behind
  | number {first parts behind} (digit : first.isDigit = true)
      (inside : ∀ x ∈ parts, isNumberPart x = true) (stops : ∀ x ∈ behind.head?, isNumberPart x = false) :
      Cut c ⟨.number, first :: parts, false⟩ behind
  | closed {text behind} (inside : '"' ∉ text) : Cut c ⟨.stringLiteral, text, false⟩ behind
  | cutOff {text} (inside : '"' ∉ text) : Cut c ⟨.stringLiteral, text, true⟩ []
  | comment {text behind} (inside : '\n' ∉ text) (stops : ∀ x ∈ behind.head?, x = '\n') :
      Cut c ⟨.comment, text, false⟩ behind
  | pair {first behind} (apart : Apart first ('=' :: behind)) (operator : first ∈ c.operators)
      (taking : first ∈ c.prefixes) : Cut c ⟨.operator, [first, '='], false⟩ behind
  | operator {first behind} (apart : Apart first behind) (operator : first ∈ c.operators)
      (alone : first ∈ c.prefixes → behind.head? ≠ some '=') : Cut c ⟨.operator, [first], false⟩ behind
  | single {first behind} (apart : Apart first behind) (other : first ∉ c.operators) :
      Cut c ⟨punctuation first, [first], false⟩ behind

theorem takeWhileInside {p : Char → Bool} {text : List Char} : ∀ x ∈ text.takeWhile p, p x = true :=
  List.all_eq_true.mp List.all_takeWhile

theorem takeWhileExact {p : Char → Bool} {inside behind : List Char} (taken : ∀ x ∈ inside, p x = true)
    (stops : ∀ x ∈ behind.head?, p x = false) : (inside ++ behind).takeWhile p = inside := by
  rw [List.takeWhile_append_of_pos taken]
  cases behind with
  | nil => simp
  | cons x behind => simp [stops x rfl]

theorem dropWhileExact {p : Char → Bool} {inside behind : List Char} (taken : ∀ x ∈ inside, p x = true)
    (stops : ∀ x ∈ behind.head?, p x = false) : (inside ++ behind).dropWhile p = behind := by
  rw [List.dropWhile_append_of_pos taken]
  cases behind with
  | nil => rfl
  | cons x behind => simp [stops x rfl]

theorem notInTakeWhile (stop : Char) (text : List Char) : stop ∉ text.takeWhile (· ≠ stop) := by
  intro member
  simpa using takeWhileInside stop member

theorem splitCut (c : Config) (first : Char) (rest : List Char) :
    Cut c (split c first rest).1 (split c first rest).2 := by
  cases startOf first rest with
  | word start =>
    rw [splitWord start]
    exact .word start takeWhileInside fun x => dropWhileStops
  | number noWord digit =>
    rw [splitNumber noWord digit]
    exact .number digit takeWhileInside fun x => dropWhileStops
  | quote rest =>
    cases left : rest.dropWhile (· ≠ '"') with
    | nil => rw [splitCutOff left]; exact .cutOff (notInTakeWhile '"' rest)
    | cons q behind => rw [splitClosed left]; exact .closed (notInTakeWhile '"' rest)
  | comment line =>
    rw [splitComment]
    refine .comment (notInTakeWhile '\n' line) fun x first => ?_
    have stops := dropWhileStops first
    simpa using stops
  | apart apart =>
    rw [splitApart apart]
    split
    · rename_i operator
      split
      · rename_i taken
        obtain ⟨behind, rfl⟩ := List.head?_eq_some_iff.mp taken.2
        exact .pair apart operator taken.1
      · rename_i alone
        exact .operator apart operator fun taking equals => alone ⟨taking, equals⟩
    · exact .single apart ‹_›

theorem digitNoWord {first : Char} (digit : first.isDigit = true) : isWordStart first = false := by
  have other : first ≠ '_' := by rintro rfl; contradiction
  have ends : first.toNat ≤ '9'.toNat := (Char.isDigit_iff_toNat.mp digit).2
  have noUpper : first.isUpper = false := decide_eq_false fun upper =>
    absurd (upper.1.trans ends) (by decide)
  have noLower : first.isLower = false := Bool.and_eq_false_iff.mpr <| .inl <| decide_eq_false fun lower =>
    absurd (lower.trans ends) (by decide)
  have noLetter : first.isAlpha = false := Bool.or_eq_false_iff.mpr ⟨noUpper, noLower⟩
  simp [isWordStart, noLetter, other]

theorem apartFrom {stop : Char} {text : List Char} (inside : stop ∉ text) :
    ∀ x ∈ text, decide (x ≠ stop) = true :=
  fun _ member => decide_eq_true fun same => inside (same ▸ member)

/- The cuts are all that the split makes: a lexeme in front of what cannot extend it is split off whole. -/
theorem cutSplit {c : Config} {lexeme : Lexeme} {behind : List Char} (cut : Cut c lexeme behind) :
    ∃ first rest, lexeme.written ++ behind = first :: rest ∧ split c first rest = (lexeme, behind) := by
  cases cut with
  | @word first parts behind start inside stops =>
    refine ⟨first, parts ++ behind, by rw [wordWritten]; rfl, ?_⟩
    rw [splitWord start, takeWhileExact inside stops, dropWhileExact inside stops]
  | @number first parts behind digit inside stops =>
    refine ⟨first, parts ++ behind, rfl, ?_⟩
    rw [splitNumber (digitNoWord digit) digit, takeWhileExact inside stops, dropWhileExact inside stops]
  | @closed text behind inside =>
    have stops : ∀ x ∈ ('"' :: behind).head?, decide (x ≠ '"') = false := by simp
    refine ⟨'"', text ++ '"' :: behind, by simp [written], ?_⟩
    rw [splitClosed (dropWhileExact (apartFrom inside) stops), takeWhileExact (apartFrom inside) stops]
  | @cutOff text inside =>
    have none : text.dropWhile (· ≠ '"') = [] := List.dropWhile_eq_nil_iff.mpr (apartFrom inside)
    have whole : text.takeWhile (· ≠ '"') = text := List.takeWhile_eq_self_iff.mpr (apartFrom inside)
    refine ⟨'"', text, by simp [written], ?_⟩
    rw [splitCutOff none, whole]
  | @comment text behind inside stops =>
    have line : ∀ x ∈ behind.head?, decide (x ≠ '\n') = false := fun x first => by simp [stops x first]
    refine ⟨'/', '/' :: (text ++ behind), rfl, ?_⟩
    rw [splitComment, takeWhileExact (apartFrom inside) line, dropWhileExact (apartFrom inside) line]
  | @pair first behind apart operator taking =>
    refine ⟨first, '=' :: behind, rfl, ?_⟩
    rw [splitApart apart, if_pos operator, if_pos ⟨taking, rfl⟩, List.tail_cons]
  | @operator first behind apart operator alone =>
    refine ⟨first, behind, rfl, ?_⟩
    rw [splitApart apart, if_pos operator, if_neg fun pair => alone pair.1 pair.2]
  | @single first behind apart other =>
    refine ⟨first, behind, by rw [punctuationWritten]; rfl, ?_⟩
    rw [splitApart apart, if_neg other]

theorem gapStops {x : Char} (gap : isGap x = true) :
    isWordPart x = false ∧ isNumberPart x = false ∧ x ≠ '=' ∧ x ≠ '/' := by
  simp only [isGap, Bool.or_eq_true, decide_eq_true_eq] at gap
  rcases gap with ((((rfl | rfl) | rfl) | rfl) | rfl) | rfl <;> decide

theorem apartHead {first : Char} {rest other : List Char} (apart : Apart first rest)
    (noComment : first = '/' → other.head? ≠ some '/') : Apart first other :=
  ⟨apart.noWord, apart.noDigit, apart.noQuote, noComment⟩

/- What may be the last of a text may also stand in front of a gap, a comment only in front of a line feed. -/
theorem cutGap {c : Config} {lexeme : Lexeme} (cut : Cut c lexeme []) (whole : lexeme.cutOff = false)
    {x : Char} (gap : isGap x = true) (line : lexeme.kind = .comment → x = '\n') (rest : List Char) :
    Cut c lexeme (x :: rest) := by
  obtain ⟨noWordPart, noNumberPart, noEquals, noSlash⟩ := gapStops gap
  cases cut with
  | word start inside => exact .word start inside (by simpa using noWordPart)
  | number digit inside => exact .number digit inside (by simpa using noNumberPart)
  | closed inside => exact .closed inside
  | cutOff => contradiction
  | comment inside => exact .comment inside (by simpa using line rfl)
  | pair apart operator taking => exact .pair (apartHead apart (by simp)) operator taking
  | operator apart operator =>
    exact .operator (apartHead apart fun _ => by simpa using noSlash) operator
      fun _ => by simpa using noEquals
  | single apart other => exact .single (apartHead apart fun _ => by simpa using noSlash) other

/- Of what is behind a lexeme only the first character counts, unless the end of the text cut it off. -/
theorem cutHead {c : Config} {lexeme : Lexeme} {behind other : List Char} (cut : Cut c lexeme behind)
    (whole : lexeme.cutOff = false) (same : other.head? = behind.head?) : Cut c lexeme other := by
  cases cut with
  | word start inside stops => exact .word start inside (same ▸ stops)
  | number digit inside stops => exact .number digit inside (same ▸ stops)
  | closed inside => exact .closed inside
  | cutOff => contradiction
  | comment inside stops => exact .comment inside (same ▸ stops)
  | pair apart operator taking => exact .pair (apartHead apart (by simp)) operator taking
  | operator apart operator alone =>
    exact .operator (apartHead apart (same ▸ apart.noComment)) operator (same ▸ alone)
  | single apart other => exact .single (apartHead apart (same ▸ apart.noComment)) other

end WindowLex.Lexeme

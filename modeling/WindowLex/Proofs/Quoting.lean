import Mathlib
import WindowLex.Text.Quoted

/-! Quoted text can be read back. Each escape tells its character in front of anything, so that where a quoted
text ends is told by its delimiter alone. All of it is printable, whatever was quoted. -/
namespace WindowLex.Text

def hexValue (c : Char) : Nat := if c.isDigit then c.toNat - 0x30 else c.toNat - 0x57

def hexNumber (digits : List Char) : Nat := digits.foldl (fun number c => number * 16 + hexValue c) 0

def coded (places : Nat) (text : List Char) : Option (Char × List Char) :=
  some (Char.ofNat (hexNumber (text.take places)), text.drop places)

def unescape? : List Char → Option (Char × List Char)
  | [] => none
  | '\\' :: 't' :: rest => some ('\t', rest)
  | '\\' :: 'n' :: rest => some ('\n', rest)
  | '\\' :: 'r' :: rest => some ('\r', rest)
  | '\\' :: 'x' :: rest => coded 2 rest
  | '\\' :: 'u' :: rest => coded 4 rest
  | '\\' :: 'U' :: rest => coded 8 rest
  | '\\' :: c :: rest => some (c, rest)
  | c :: rest => some (c, rest)

section
variable {text text' rest rest' : List Char} {c mark : Char} {n : Nat}

theorem hexDigitValue : ∀ n < 16, hexValue (hexDigit n) = n ∧ isPrintable (hexDigit n) = true := by
  decide +kernel

theorem hexDigitsLength (places n : Nat) : (hexDigits places n).length = places := by
  induction places generalizing n with
  | zero => rfl
  | succ places ih => simp [hexDigits, ih]

theorem hexDigitsNumber (places n : Nat) : hexNumber (hexDigits places n) = n % 16 ^ places := by
  induction places generalizing n with
  | zero => simp [hexDigits, hexNumber, Nat.mod_one]
  | succ places ih =>
    have last := (hexDigitValue (n % 16) (Nat.mod_lt _ (by decide))).1
    have before : hexNumber (hexDigits (places + 1) n) = hexNumber (hexDigits places (n / 16)) * 16 + n % 16 := by
      simp [hexDigits, hexNumber, last]
    rw [before, ih, Nat.pow_succ', Nat.mod_mul, Nat.add_comm, Nat.mul_comm]

theorem hexDigitsPrintable {places : Nat} (member : c ∈ hexDigits places n) : isPrintable c = true := by
  induction places generalizing n with
  | zero => simp [hexDigits] at member
  | succ places ih =>
    rcases List.mem_append.mp member with before | last
    · exact ih before
    · rw [List.mem_singleton.mp last]
      exact (hexDigitValue _ (Nat.mod_lt _ (by decide))).2

theorem codedDigits (places : Nat) (small : c.toNat < 16 ^ places) (rest : List Char) :
    coded places (hexDigits places c.toNat ++ rest) = some (c, rest) := by
  have length := hexDigitsLength places c.toNat
  rw [coded, List.take_left' length, List.drop_left' length, hexDigitsNumber, Nat.mod_eq_of_lt small,
    Char.ofNat_toNat]

theorem codeSmall (c : Char) : c.toNat < 16 ^ 8 := c.val.toNat_lt

theorem delimiterMark (text : List Char) : delimiter text = '\'' ∨ delimiter text = '"' := by
  unfold delimiter
  split
  · exact .inr rfl
  · exact .inl rfl

theorem unescapePlain (plain : c ≠ '\\') (rest : List Char) : unescape? (c :: rest) = some (c, rest) := by
  unfold unescape?
  split <;> simp_all

theorem unescapeEscape (delimits : mark = '\'' ∨ mark = '"') (c : Char) (rest : List Char) :
    unescape? (escape mark c ++ rest) = some (c, rest) := by
  unfold escape
  split
  · rename_i special
    rcases special with rfl | rfl
    · rcases delimits with rfl | rfl <;> rfl
    · rfl
  split
  · rename_i tab
    rw [tab]
    rfl
  split
  · rename_i feed
    rw [feed]
    rfl
  split
  · rename_i back
    rw [back]
    rfl
  split
  · rename_i special _ _ _ _
    exact unescapePlain (fun same => special (.inr same)) rest
  split
  · rename_i small
    exact codedDigits 2 small rest
  split
  · rename_i small
    exact codedDigits 4 small rest
  · exact codedDigits 8 (codeSmall c) rest

inductive Escaped (mark c : Char) : List Char → Prop where
  | plain (shown : isPrintable c = true) (noMark : c ≠ mark) : Escaped mark c [c]
  | code {letter : Char} {digits : List Char} (first : isPrintable letter = true)
      (rest : ∀ d ∈ digits, isPrintable d = true) : Escaped mark c ('\\' :: letter :: digits)

theorem escapeEscaped (delimits : mark = '\'' ∨ mark = '"') (c : Char) : Escaped mark c (escape mark c) := by
  unfold escape
  split
  · rename_i special
    refine .code ?_ nofun
    rcases special with rfl | rfl
    · rcases delimits with rfl | rfl <;> rfl
    · rfl
  split
  · exact .code rfl nofun
  split
  · exact .code rfl nofun
  split
  · exact .code rfl nofun
  split
  · rename_i special _ _ _ shown
    exact .plain shown fun same => special (.inl same)
  split
  · exact .code rfl fun d member => hexDigitsPrintable member
  split
  · exact .code rfl fun d member => hexDigitsPrintable member
  · exact .code rfl fun d member => hexDigitsPrintable member

theorem escapeBegins (delimits : mark = '\'' ∨ mark = '"') (c : Char) (more : List Char) :
    mark :: rest ≠ escape mark c ++ more := by
  have slash : mark ≠ '\\' := by rcases delimits with rfl | rfl <;> decide
  have escaped := escapeEscaped delimits c
  generalize escape mark c = written at escaped ⊢
  cases escaped with
  | plain shown noMark => exact fun same => noMark (List.cons.inj same).1.symm
  | code => exact fun same => slash (List.cons.inj same).1

theorem escapePrintable (delimits : mark = '\'' ∨ mark = '"') (c : Char) :
    ∀ d ∈ escape mark c, isPrintable d = true := by
  have escaped := escapeEscaped delimits c
  generalize escape mark c = written at escaped ⊢
  cases escaped with
  | plain shown noMark => simpa using shown
  | code first rest => simpa [first] using ⟨rfl, rest⟩

-- Of two texts between delimiters one cannot end before the other, as no escape begins with a delimiter.
theorem escapesApart (delimits : mark = '\'' ∨ mark = '"')
    (same : text.flatMap (escape mark) ++ mark :: rest = text'.flatMap (escape mark) ++ mark :: rest') :
    text = text' ∧ rest = rest' := by
  induction text generalizing text' with
  | nil =>
    cases text' with
    | nil => simpa using same
    | cons c text' =>
      rw [List.flatMap_cons, List.append_assoc] at same
      exact absurd same (escapeBegins delimits c _)
  | cons c text ih =>
    cases text' with
    | nil =>
      rw [List.flatMap_cons, List.append_assoc] at same
      exact absurd same.symm (escapeBegins delimits c _)
    | cons d text' =>
      rw [List.flatMap_cons, List.flatMap_cons, List.append_assoc, List.append_assoc] at same
      have read := congrArg unescape? same
      rw [unescapeEscape delimits, unescapeEscape delimits, Option.some.injEq, Prod.mk.injEq] at read
      obtain ⟨rfl, later⟩ := read
      obtain ⟨rfl, behind⟩ := ih later
      exact ⟨rfl, behind⟩

theorem quotedApart (same : quotedChars text ++ rest = quotedChars text' ++ rest') :
    text = text' ∧ rest = rest' := by
  simp only [quotedChars, List.cons_append, List.append_assoc, List.cons.injEq, List.nil_append] at same
  obtain ⟨mark, same⟩ := same
  rw [← mark] at same
  exact escapesApart (delimiterMark text) same

theorem quotedPrintable (text : List Char) : ∀ c ∈ quotedChars text, isPrintable c = true := by
  have delimits := delimiterMark text
  have printable : isPrintable (delimiter text) = true := by
    rcases delimits with mark | mark <;> rw [mark] <;> rfl
  intro c member
  simp only [quotedChars, List.cons_append, List.mem_cons, List.mem_append, List.mem_flatMap,
    List.not_mem_nil, or_false] at member
  rcases member with rfl | ⟨d, _, member⟩ | rfl
  · exact printable
  · exact escapePrintable delimits d c member
  · exact printable

end

end WindowLex.Text

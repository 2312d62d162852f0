import Mathlib.Data.Nat.Digits.Defs
import WindowLex.Proofs.Fields
import WindowLex.Text.Numeral

/-! The grammar of written integers: padding around a sign, if any, and decimal digits of any scripts, with single
underscores between them. A numeral has the value that its digits have, and nothing else is read. -/
namespace WindowLex.Text

def IsDigit (c : Char) (d : Nat) : Prop := ∃ first ∈ digitZeros, c.toNat = first + d ∧ d < 10

inductive Digits : List Char → List Nat → Prop where
  | last {c : Char} {d : Nat} (digit : IsDigit c d) : Digits [c] [d]
  | more {c : Char} {d : Nat} {text : List Char} {values : List Nat} (digit : IsDigit c d)
      (later : Digits text values) : Digits (c :: text) (d :: values)
  | apart {c : Char} {d : Nat} {text : List Char} {values : List Nat} (digit : IsDigit c d)
      (later : Digits text values) : Digits (c :: '_' :: text) (d :: values)

/- Only so many digits are read, zeros in front included. -/
inductive Natural : List Char → Nat → Prop where
  | digits {text : List Char} {values : List Nat} (digits : Digits text values) (few : values.length ≤ digitLimit) :
      Natural text (Nat.ofDigits 10 values.reverse)

inductive Signed : List Char → Int → Prop where
  | plain {text : List Char} {n : Nat} (natural : Natural text n) : Signed text n
  | plus {text : List Char} {n : Nat} (natural : Natural text n) : Signed ('+' :: text) n
  | minus {text : List Char} {n : Nat} (natural : Natural text n) : Signed ('-' :: text) (-n)

def Numeral (text : List Char) (value : Int) : Prop :=
  ∃ before core after, text = before ++ core ++ after ∧ (∀ c ∈ before, isPadding c = true) ∧
    (∀ c ∈ after, isPadding c = true) ∧ Signed core value

variable {text core : List Char} {values : List Nat} {c : Char} {d n : Nat} {value : Int}

theorem rowsApart : ∀ a ∈ digitZeros, ∀ b ∈ digitZeros, a = b ∨ a + 10 ≤ b ∨ b + 10 ≤ a := by decide +kernel

theorem digitOnly : digitValue? c = some d ↔ IsDigit c d := by
  rw [digitValue?, Option.map_eq_some_iff]
  constructor
  · rintro ⟨first, found, rfl⟩
    have inside := List.find?_some found
    rw [Bool.and_eq_true, decide_eq_true_iff, decide_eq_true_iff] at inside
    exact ⟨first, List.mem_of_find?_eq_some found, by omega, by omega⟩
  · rintro ⟨first, listed, place, small⟩
    cases found : digitZeros.find? fun first => first ≤ c.toNat && c.toNat < first + 10 with
    | none =>
      have outside := List.find?_eq_none.mp found first listed
      rw [Bool.and_eq_true, decide_eq_true_iff, decide_eq_true_iff] at outside
      omega
    | some other =>
      have inside := List.find?_some found
      rw [Bool.and_eq_true, decide_eq_true_iff, decide_eq_true_iff] at inside
      have apart := rowsApart first listed other (List.mem_of_find?_eq_some found)
      exact ⟨other, rfl, by omega⟩

theorem digitsBegin (digits : Digits text values) : ∃ c d rest, text = c :: rest ∧ IsDigit c d := by
  cases digits with
  | last digit | more digit later | apart digit later => exact ⟨_, _, _, rfl, digit⟩

theorem digitsEnd (digits : Digits text values) : ∃ c d, text.getLast? = some c ∧ IsDigit c d := by
  induction digits with
  | last digit => exact ⟨_, _, rfl, digit⟩
  | more digit later ih | apart digit later ih =>
    obtain ⟨c, d, last, ends⟩ := ih
    exact ⟨c, d, by simp [List.getLast?_cons, last], ends⟩

theorem digitsRead : digitValues? text = some values ↔ Digits text values := by
  constructor
  · intro read
    fun_induction digitValues? text generalizing values with
    | case1 => cases read
    | case2 c =>
      obtain ⟨d, digit, rfl⟩ := Option.map_eq_some_iff.mp read
      exact .last (digitOnly.mp digit)
    | case3 c rest ih =>
      simp only [bind, Option.bind_eq_some_iff, pure, Option.some.injEq] at read
      obtain ⟨d, digit, later, rest, rfl⟩ := read
      exact .apart (digitOnly.mp digit) (ih rest)
    | case4 c rest none other ih =>
      simp only [bind, Option.bind_eq_some_iff, pure, Option.some.injEq] at read
      obtain ⟨d, digit, later, rest, rfl⟩ := read
      exact .more (digitOnly.mp digit) (ih rest)
  · intro digits
    induction digits with
    | last digit => simp [digitValues?, digitOnly.mpr digit]
    | @more c d text values digit later ih =>
      obtain ⟨first, e, rest, rfl, begins⟩ := digitsBegin later
      have noMark : first ≠ '_' := by
        rintro rfl
        have none : digitValue? '_' = none := by decide
        exact absurd ((digitOnly.mpr begins).symm.trans none) nofun
      rw [digitValues?]
      · simp [digitOnly.mpr digit, ih]
      · simp
      · rintro other ⟨⟩
        exact noMark rfl
    | apart digit later ih => simp [digitValues?, digitOnly.mpr digit, ih]

theorem naturalRead : natural? text = some n ↔ Natural text n := by
  have number (values : List Nat) :
      values.foldl (fun value digit => value * 10 + digit) 0 = Nat.ofDigits 10 values.reverse := by
    rw [Nat.ofDigits_eq_foldr, List.foldr_reverse]
    congr 1
    funext value digit
    rw [Nat.mul_comm, Nat.add_comm]
    rfl
  simp only [natural?, bind, Option.bind_eq_some_iff, guard, number]
  constructor
  · rintro ⟨values, read, _, few, same⟩
    split at few
    · next small =>
      cases same
      exact .digits (digitsRead.mp read) small
    · cases few
  · rintro ⟨digits, few⟩
    exact ⟨_, digitsRead.mpr digits, (), if_pos few, rfl⟩

theorem digitNoPadding (digit : IsDigit c d) : isPadding c = false := by
  obtain ⟨first, listed, place, small⟩ := digit
  have high : ∀ first ∈ digitZeros, 0x30 ≤ first ∧ ∀ range ∈ blanks, range.2 < first ∨ first + 10 ≤ range.1 := by
    decide +kernel
  obtain ⟨above, outside⟩ := high first listed
  unfold isPadding
  split
  · have noSpace : c ≠ ' ' := by
      rintro rfl
      rw [show ' '.toNat = 32 from rfl] at place
      omega
    rw [Bool.or_eq_false_iff, Bool.and_eq_false_iff, decide_eq_false_iff_not, decide_eq_false_iff_not,
      decide_eq_false_iff_not]
    exact ⟨noSpace, .inr (by omega)⟩
  · rw [isBlank, List.any_eq_false]
    intro range member
    have apart := outside range member
    rw [Bool.and_eq_true, decide_eq_true_iff, decide_eq_true_iff]
    omega

theorem noDigit (c : Char) (none : digitValue? c = none) : ¬ Natural (c :: text) n := by
  rintro ⟨digits, few⟩
  obtain ⟨first, d, rest, same, digit⟩ := digitsBegin digits
  cases same
  exact absurd ((digitOnly.mpr digit).symm.trans none) nofun

-- A sign is no digit, so that the first character tells the three forms apart.
theorem signedRead : (match core with
    | '+' :: rest => (natural? rest).map Int.ofNat
    | '-' :: rest => (natural? rest).map fun n => -Int.ofNat n
    | rest => (natural? rest).map Int.ofNat) = some value ↔ Signed core value := by
  constructor
  · intro read
    split at read
    all_goals
      obtain ⟨n, natural, rfl⟩ := Option.map_eq_some_iff.mp read
      rw [naturalRead] at natural
    · exact .plus natural
    · exact .minus natural
    · exact .plain natural
  · intro signed
    cases signed with
    | plus natural | minus natural => simp [naturalRead.mpr natural]
    | plain natural =>
      split
      · exact absurd natural (noDigit '+' (by decide))
      · exact absurd natural (noDigit '-' (by decide))
      · simp [naturalRead.mpr natural]

theorem naturalEnds (natural : Natural text n) :
    (∀ c ∈ text.head?, isPadding c = false) ∧ (∀ c ∈ text.getLast?, isPadding c = false) ∧ text ≠ [] := by
  obtain ⟨digits, few⟩ := natural
  obtain ⟨first, d, rest, rfl, begins⟩ := digitsBegin digits
  obtain ⟨last, e, ending, ends⟩ := digitsEnd digits
  simp [ending, digitNoPadding begins, digitNoPadding ends]

theorem signedEnds (signed : Signed core value) :
    (∀ c ∈ core.head?, isPadding c = false) ∧ ∀ c ∈ core.getLast?, isPadding c = false := by
  cases signed with
  | plain natural =>
    obtain ⟨first, last, _⟩ := naturalEnds natural
    exact ⟨first, last⟩
  | plus natural | minus natural =>
    obtain ⟨_, last, some⟩ := naturalEnds natural
    rw [List.getLast?_cons_of_ne_nil some]
    exact ⟨by simp; decide, last⟩

theorem integerRead {text : String} : integer? text = some value ↔ Numeral text.toList value := by
  constructor
  · intro read
    obtain ⟨before, after, parts, left, right⟩ := (trimmedParts isPadding text.toList).parts
    exact ⟨before, _, after, parts, left, right, signedRead.mp read⟩
  · rintro ⟨before, core, after, parts, left, right, signed⟩
    obtain ⟨first, last⟩ := signedEnds signed
    have trims : Trims isPadding text.toList core := ⟨⟨before, after, parts, left, right⟩, first, last⟩
    rw [integer?, trimsOnly.mp trims]
    exact signedRead.mpr signed

end WindowLex.Text

import Mathlib
import WindowLex.Proofs.Grammar
import WindowLex.Proofs.Quoting
import WindowLex.Token

/-! Tokens as they are shown, in a listing and in the journal. Each is shown on one line, and the line tells its
kind, its text and its place: the fields can be taken apart again, one after the other. -/
namespace WindowLex
open Lexeme

def Text.lineBreaks : List Char :=
  ['\n', '\x0b', '\x0c', '\r', '\x1c', '\x1d', '\x1e', '\x85', '\u2028', '\u2029']

structure Token.LooksLike (t u : Token) : Prop where
  kind : t.kind = u.kind
  lexeme : t.lexeme = u.lexeme
  position : t.position = u.position

section
variable {field field' rest rest' : List Char}

theorem fieldApart {p : Char → Bool} (inside : ∀ c ∈ field, p c = true) (insideToo : ∀ c ∈ field', p c = true)
    (stops : ∀ c ∈ rest.head?, p c = false) (stopsToo : ∀ c ∈ rest'.head?, p c = false)
    (same : field ++ rest = field' ++ rest') : field = field' ∧ rest = rest' := by
  have fields : field = field' := by
    rw [← takeWhileExact inside stops, same, takeWhileExact insideToo stopsToo]
  rw [fields] at same
  exact ⟨fields, List.append_cancel_left same⟩

theorem beforeApart (stop : Char) (inside : stop ∉ field) (insideToo : stop ∉ field')
    (same : field ++ stop :: rest = field' ++ stop :: rest') : field = field' ∧ rest = rest' := by
  have other {text : List Char} (none : stop ∉ text) : ∀ c ∈ text, (c ≠ stop : Bool) = true := by
    intro c member
    simpa using ne_of_mem_of_not_mem member none
  obtain ⟨fields, rests⟩ := fieldApart (p := (· ≠ stop)) (other inside) (other insideToo) (by simp) (by simp) same
  exact ⟨fields, (List.cons.inj rests).2⟩

theorem pastApart (pad : Char) {n n' : Nat} (head : rest.head? ≠ some pad) (headToo : rest'.head? ≠ some pad)
    (same : List.replicate n pad ++ rest = List.replicate n' pad ++ rest') : rest = rest' := by
  have inside (n : Nat) : ∀ c ∈ List.replicate n pad, (c = pad : Bool) = true := by simp +contextual
  have stops {text : List Char} (head : text.head? ≠ some pad) : ∀ c ∈ text.head?, (c = pad : Bool) = false := by
    intro c member
    have other : c ≠ pad := fun same => head (same ▸ Option.mem_def.mp member)
    simpa using other
  exact (fieldApart (p := (· = pad)) (inside n) (inside n') (stops head) (stops headToo) same).2

theorem headNot {c : Char} (some : field ≠ []) (none : c ∉ field) (rest : List Char) :
    (field ++ rest).head? ≠ .some c := by
  cases field with
  | nil => exact absurd rfl some
  | cons first field => simpa using (List.ne_of_not_mem_cons none).symm

end

namespace Text

theorem plainPrintable {c : Char} (low : 0x20 ≤ c.toNat) (high : c.toNat < 0x7F) : isPrintable c = true := by
  simp [isPrintable, low, high]

theorem digitPrintable {c : Char} (digit : c.isDigit = true) : isPrintable c = true := by
  have range : 48 ≤ c.toNat ∧ c.toNat ≤ 57 := by
    simpa [Char.isDigit, UInt32.le_iff_toNat_le] using digit
  exact plainPrintable (by omega) (by omega)

theorem upperPrintable {c : Char} (upper : c.isUpper = true) : isPrintable c = true := by
  have range : 65 ≤ c.toNat ∧ c.toNat ≤ 90 := by
    simpa [Char.isUpper, UInt32.le_iff_toNat_le] using upper
  exact plainPrintable (by omega) (by omega)

theorem breaksHidden : ∀ c ∈ lineBreaks, isPrintable c = false := by
  have every : lineBreaks.all (fun c => !isPrintable c) = true := by decide +kernel
  simpa using every

end Text

theorem integerChars (n : Int) : ∀ c ∈ (toString n).toList, c.isDigit = true ∨ c = '-' := by
  have digits (m : Nat) : ∀ c ∈ m.repr.toList, c.isDigit = true := by
    intro c member
    rw [Nat.toList_repr] at member
    exact Nat.isDigit_of_mem_toDigits (by decide) (by decide) member
  intro c member
  cases n with
  | ofNat m => exact .inl (digits m c member)
  | negSucc m =>
    rw [show toString (Int.negSucc m) = "-" ++ (m + 1).repr from rfl, String.toList_append] at member
    rcases List.mem_append.mp member with sign | later
    · exact .inr (List.mem_singleton.mp sign)
    · exact .inl (digits (m + 1) c later)

namespace Position

theorem textFields (p : Position) : p.text.toList = (toString p.line).toList ++ ':' :: (toString p.column).toList := by
  simp [text]

theorem textChars (p : Position) : ∀ c ∈ p.text.toList, c.isDigit = true ∨ c = '-' ∨ c = ':' := by
  intro c member
  rw [textFields] at member
  rcases List.mem_append.mp member with line | later
  · exact (integerChars _ c line).imp_right .inl
  · rcases List.mem_cons.mp later with rfl | column
    · exact .inr (.inr rfl)
    · exact (integerChars _ c column).imp_right .inl

theorem textNoBlank (p : Position) : ' ' ∉ p.text.toList := fun member => by
  rcases p.textChars ' ' member with digit | dash | colon <;> contradiction

theorem textSome (p : Position) : p.text.toList ≠ [] := by simp [textFields]

theorem textApart {p q : Position} (same : p.text = q.text) : p = q := by
  have none (n : Int) : ':' ∉ (toString n).toList := fun member => by
    rcases integerChars n ':' member with digit | dash <;> contradiction
  have fields := congrArg String.toList same
  rw [textFields, textFields] at fields
  obtain ⟨line, column⟩ := beforeApart ':' (none _) (none _) fields
  have lines : p.line = q.line := Int.repr_inj.mp (String.toList_inj.mp line)
  have columns : p.column = q.column := Int.repr_inj.mp (String.toList_inj.mp column)
  cases p
  cases q
  cases lines
  cases columns
  rfl

end Position

namespace Kind

theorem nameChars (k : Kind) : ∀ c ∈ k.name.toList, c.isUpper = true ∨ c = '_' := by
  have every : k.name.toList.all (fun c => c.isUpper || c = '_') = true := by cases k <;> rfl
  simpa using every

theorem nameNoBlank (k : Kind) : ' ' ∉ k.name.toList := fun member => by
  rcases k.nameChars ' ' member with letter | line <;> contradiction

theorem nameNoComma (k : Kind) : ',' ∉ k.name.toList := fun member => by
  rcases k.nameChars ',' member with letter | line <;> contradiction

theorem nameFound (k : Kind) : all.find? (·.name = k.name) = some k := by
  cases k <;> rfl

theorem nameApart {k l : Kind} (same : k.name = l.name) : k = l := by
  have found := nameFound k
  rw [same, nameFound] at found
  exact (Option.some.inj found).symm

end Kind

namespace Token
open Text

variable {t u : Token}

theorem rowFields (t : Token) : t.row.toList = List.replicate (8 - t.position.text.toList.length) ' ' ++
    (t.position.text.toList ++ ' ' :: ' ' :: (t.kind.name.toList ++
      ' ' :: (List.replicate (15 - t.kind.name.toList.length + 1) ' ' ++ quotedChars t.lexeme.toList))) := by
  have pads (n : Nat) (rest : List Char) : List.replicate n ' ' ++ ' ' :: ' ' :: rest =
      ' ' :: (List.replicate (n + 1) ' ' ++ rest) := by
    rw [← List.cons_append, ← List.replicate_succ, List.replicate_succ', List.replicate_succ']
    simp
  simp [row, padLeft, padRight, quoted, List.leftpad, List.rightpad, pads]

theorem displayFields (t : Token) : t.display.toList = "Token(".toList ++ (t.kind.name.toList ++
    ',' :: ' ' :: (quotedChars t.lexeme.toList ++ (", ".toList ++ (t.position.text.toList ++ [')'])))) := by
  simp [display, quoted]

theorem rowApart (same : t.row = u.row) : t.LooksLike u := by
  have fields := congrArg String.toList same
  rw [rowFields, rowFields] at fields
  have placed (v : Token) (rest : List Char) : (v.position.text.toList ++ rest).head? ≠ some ' ' :=
    headNot v.position.textSome v.position.textNoBlank rest
  have shown (v : Token) : (quotedChars v.lexeme.toList).head? ≠ some ' ' := by
    rcases delimiterMark v.lexeme.toList with mark | mark <;> simp [quotedChars, mark]
  obtain ⟨position, behind⟩ := beforeApart ' ' t.position.textNoBlank u.position.textNoBlank
    (pastApart ' ' (placed t _) (placed u _) fields)
  obtain ⟨kind, last⟩ := beforeApart ' ' t.kind.nameNoBlank u.kind.nameNoBlank (List.cons.inj behind).2
  have lexeme := pastApart ' ' (shown t) (shown u) last
  rw [← List.append_nil (quotedChars _), ← List.append_nil (quotedChars u.lexeme.toList)] at lexeme
  exact ⟨Kind.nameApart (String.toList_inj.mp kind), String.toList_inj.mp (quotedApart lexeme).1,
    Position.textApart (String.toList_inj.mp position)⟩

theorem displayApart (same : t.display = u.display) : t.LooksLike u := by
  have fields := congrArg String.toList same
  rw [displayFields, displayFields] at fields
  obtain ⟨kind, behind⟩ := beforeApart ',' t.kind.nameNoComma u.kind.nameNoComma
    (List.append_cancel_left fields)
  obtain ⟨lexeme, last⟩ := quotedApart (List.cons.inj behind).2
  have position := List.append_cancel_right (List.append_cancel_left last)
  exact ⟨Kind.nameApart (String.toList_inj.mp kind), String.toList_inj.mp lexeme,
    Position.textApart (String.toList_inj.mp position)⟩

theorem rowPrintable (t : Token) : ∀ c ∈ t.row.toList, isPrintable c = true := by
  have blank (n : Nat) : ∀ c ∈ List.replicate n ' ', isPrintable c = true := by
    intro c member
    rw [List.eq_of_mem_replicate member]
    rfl
  have place (c : Char) (member : c ∈ t.position.text.toList) : isPrintable c = true := by
    rcases t.position.textChars c member with digit | rfl | rfl
    · exact digitPrintable digit
    · rfl
    · rfl
  have name (c : Char) (member : c ∈ t.kind.name.toList) : isPrintable c = true := by
    rcases t.kind.nameChars c member with letter | rfl
    · exact upperPrintable letter
    · rfl
  rw [rowFields]
  simp only [List.forall_mem_append, List.forall_mem_cons]
  exact ⟨blank _, place, rfl, rfl, name, rfl, blank _, quotedPrintable _⟩

end Token

theorem rowsTellTokens (t : Token) :
    (∀ c ∈ t.row.toList, c ∉ Text.lineBreaks) ∧
    ∀ u : Token, (t.row = u.row ↔ t.LooksLike u) ∧ (t.display = u.display ↔ t.LooksLike u) := by
  refine ⟨fun c member breaks => ?_, fun u => ⟨⟨Token.rowApart, fun looks => ?_⟩,
    ⟨Token.displayApart, fun looks => ?_⟩⟩⟩
  · have shown := t.rowPrintable c member
    exact Bool.false_ne_true ((Text.breaksHidden c breaks).symm.trans shown)
  · simp only [Token.row, looks.kind, looks.lexeme, looks.position]
  · simp only [Token.display, looks.kind, looks.lexeme, looks.position]

end WindowLex

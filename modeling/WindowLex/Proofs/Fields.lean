import WindowLex.Proofs.Grammar
import WindowLex.Text.Blank

/-! Text without what surrounds it, and text between separators. Each is told by how the whole is put together from
its parts, and there is one way to take it apart. -/
namespace WindowLex.Text
open Lexeme

variable {p : Char → Bool} {separator : Char} {text part core : List Char} {parts : List (List Char)}

structure Trims (p : Char → Bool) (text core : List Char) : Prop where
  parts : ∃ before after, text = before ++ core ++ after ∧ (∀ c ∈ before, p c = true) ∧ ∀ c ∈ after, p c = true
  first : ∀ c ∈ core.head?, p c = false
  last : ∀ c ∈ core.getLast?, p c = false

theorem trimmedParts (p : Char → Bool) (text : List Char) : Trims p text (trimWhere p text) := by
  have behind : (text.dropWhile p).reverse.takeWhile p ++ (trimWhere p text).reverse = (text.dropWhile p).reverse := by
    rw [trimWhere, List.reverse_reverse, List.takeWhile_append_dropWhile]
  have rest : trimWhere p text ++ ((text.dropWhile p).reverse.takeWhile p).reverse = text.dropWhile p := by
    simpa only [List.reverse_append, List.reverse_reverse] using congrArg List.reverse behind
  refine ⟨⟨text.takeWhile p, ((text.dropWhile p).reverse.takeWhile p).reverse, ?_, takeWhileInside, ?_⟩, ?_, ?_⟩
  · rw [List.append_assoc, rest, List.takeWhile_append_dropWhile]
  · exact fun c member => takeWhileInside c (List.mem_reverse.mp member)
  · intro c head
    have begins : (text.dropWhile p).head? = some c := by
      rw [← rest, List.head?_append, Option.mem_def.mp head, Option.some_or]
    exact dropWhileStops begins
  · intro c ending
    rw [Option.mem_def, trimWhere, List.getLast?_reverse] at ending
    exact dropWhileStops ending

theorem trimsOnly : Trims p text core ↔ trimWhere p text = core := by
  constructor
  · rintro ⟨⟨before, after, rfl, left, right⟩, first, last⟩
    have right' : ∀ c ∈ after.reverse, p c = true := fun c member => right c (List.mem_reverse.mp member)
    cases core with
    | nil =>
      have none : (before ++ [] ++ after).dropWhile p = [] := by
        rw [List.append_nil, List.dropWhile_eq_nil_iff]
        exact List.forall_mem_append.mpr ⟨left, right⟩
      rw [trimWhere, none]
      rfl
    | cons x core =>
      have front : (before ++ x :: core ++ after).dropWhile p = x :: core ++ after := by
        rw [List.append_assoc]
        exact dropWhileExact left first
      have back : (after.reverse ++ (x :: core).reverse).dropWhile p = (x :: core).reverse :=
        dropWhileExact right' (by rwa [List.head?_reverse])
      rw [trimWhere, front, List.reverse_append, back, List.reverse_reverse]
  · rintro rfl
    exact trimmedParts p text

structure Splits (separator : Char) (text : List Char) (parts : List (List Char)) : Prop where
  some : parts ≠ []
  apart : ∀ part ∈ parts, separator ∉ part
  whole : [separator].intercalate parts = text

theorem fieldsNone (apart : separator ∉ part) : fields separator part = [part] := by
  induction part with
  | nil => rfl
  | cons c rest ih =>
    obtain ⟨other, later⟩ := not_or.mp (mt List.mem_cons.mpr apart)
    rw [fields, if_neg (Ne.symm other), ih later]

theorem fieldsMore (apart : separator ∉ part) (text : List Char) :
    fields separator (part ++ separator :: text) = part :: fields separator text := by
  induction part with
  | nil => exact if_pos rfl
  | cons c rest ih =>
    obtain ⟨other, later⟩ := not_or.mp (mt List.mem_cons.mpr apart)
    rw [List.cons_append, fields, if_neg (Ne.symm other), ih later]

theorem fieldsSplit (separator : Char) (text : List Char) : Splits separator text (fields separator text) := by
  induction text with
  | nil => exact ⟨List.cons_ne_nil _ _, by simp [fields], rfl⟩
  | cons c rest ih =>
    obtain ⟨some, apart, whole⟩ := ih
    unfold fields
    split
    · next here =>
      refine ⟨List.cons_ne_nil _ _, List.forall_mem_cons.mpr ⟨List.not_mem_nil, apart⟩, ?_⟩
      obtain ⟨first, others, same⟩ := List.exists_cons_of_ne_nil some
      rw [same] at whole ⊢
      rw [List.intercalate_cons_cons, whole, here]
      rfl
    · next other =>
      split
      · next none => exact absurd none some
      · next first others same =>
        rw [same] at apart whole
        obtain ⟨clean, later⟩ := List.forall_mem_cons.mp apart
        refine ⟨List.cons_ne_nil _ _, List.forall_mem_cons.mpr ⟨?_, later⟩, ?_⟩
        · exact fun member => (List.mem_cons.mp member).elim (Ne.symm other) clean
        · rw [← whole]
          cases others <;> simp [List.intercalate_cons_cons]

theorem splitsOnly : Splits separator text parts ↔ fields separator text = parts := by
  constructor
  · rintro ⟨some, apart, rfl⟩
    induction parts with
    | nil => exact absurd rfl some
    | cons part rest ih =>
      obtain ⟨clean, later⟩ := List.forall_mem_cons.mp apart
      cases rest with
      | nil => rw [List.intercalate_singleton, fieldsNone clean]
      | cons next others =>
        rw [List.intercalate_cons_cons, List.append_assoc, List.singleton_append, fieldsMore clean,
          ih (List.cons_ne_nil _ _) later]
  · rintro rfl
    exact fieldsSplit separator text

end WindowLex.Text

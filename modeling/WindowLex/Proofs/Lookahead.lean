import WindowLex.Proofs.Retelling

/-! What a token depends on: the text up to its end and one character more. Whatever the text goes on with
behind that character, the token and all before it stay the same. -/
namespace WindowLex
open Lexical Lexeme

def Token.EndsAt (recorded : List Diagnostic) (text : List Char) (t : Token) (offset : Nat) : Prop :=
  ∃ before, before ++ t.rendered recorded <+: text ∧
    t.position = (Text.Cursor.mk text before.length).position ∧
    offset = (before ++ t.rendered recorded).length

theorem endsOnce {recorded : List Diagnostic} {text : List Char} {t : Token} {m n : Nat}
    (first : t.EndsAt recorded text m) (second : t.EndsAt recorded text n) : m = n := by
  obtain ⟨before, ⟨behind, whole⟩, place, rfl⟩ := first
  obtain ⟨other, ⟨rest, same⟩, elsewhere, rfl⟩ := second
  rw [List.append_assoc] at whole same
  rw [Text.Cursor.positionBehind whole.symm] at place
  rw [Text.Cursor.positionBehind same.symm] at elsewhere
  rw [Position.samePlace ⟨_, whole⟩ ⟨_, same⟩ (place.symm.trans elsewhere)]

namespace Lexeme

variable {c : Config} {p : Position} {text shared left : List Char} {placed : List Placed}

theorem sharedBehind {taken behind : List Char} (parts : taken ++ behind = shared ++ left) :
    ∃ beyond rest, behind = beyond ++ rest ∧ shared.length ≤ taken.length + beyond.length ∧
      (beyond ≠ [] → shared = taken ++ beyond) := by
  rcases List.append_eq_append_iff.mp parts with ⟨beyond, rfl, rfl⟩ | ⟨more, rfl, rfl⟩
  · exact ⟨beyond, left, rfl, by simp, fun _ => rfl⟩
  · exact ⟨[], behind, rfl, by simp, fun none => absurd rfl none⟩

theorem allBehind {gap beyond rest : List Char} {lexeme : Lexeme} (blank : ∀ x ∈ gap, isGap x = true)
    (starts : ∀ x ∈ lexeme.written.head?, isGap x = false) (cut : Cut c lexeme (beyond ++ rest))
    (some : beyond ≠ []) (right : List Char) :
    allFrom c p (gap ++ (lexeme.written ++ (beyond ++ right))) =
      ⟨lexeme, p.after gap⟩ :: allFrom c ((p.after gap).after lexeme.written) (beyond ++ right) := by
  have whole : lexeme.cutOff = false :=
    Bool.eq_false_iff.mpr fun short => some (List.append_eq_nil_iff.mp (cutOffLast cut short)).1
  have same : (beyond ++ right).head? = (beyond ++ rest).head? := by
    rw [List.head?_append_of_ne_nil _ some, List.head?_append_of_ne_nil _ some]
  exact tilesAll (.tile blank starts (cutHead cut whole same) (allTiles c _ _))

-- The induction is over the lexemes of one text; the other is told from what it shares with the rest of it.
theorem tilesShared (tiles : Tiles c p text placed) (parts : text = shared ++ left) (right : List Char) :
    ∀ (i : Nat) (t : Placed), placed[i]? = some t → ∃ before,
      before ++ t.lexeme.written <+: text ∧ t.position = p.after before ∧
        ((before ++ t.lexeme.written).length < shared.length →
          (allFrom c p (shared ++ right))[i]? = some t) := by
  induction tiles generalizing shared left with
  | done => simp
  | @tile p gap lexeme behind placed blank starts cut more ih =>
    intro i t here
    rw [← List.append_assoc] at parts ⊢
    obtain ⟨beyond, rest, rfl, long, goes⟩ := sharedBehind parts
    have same : beyond ≠ [] → allFrom c p (shared ++ right) =
        ⟨lexeme, p.after gap⟩ :: allFrom c ((p.after gap).after lexeme.written) (beyond ++ right) := by
      intro some
      rw [goes some, List.append_assoc, List.append_assoc]
      exact allBehind blank starts cut some right
    have reaches : ∀ n, (gap ++ lexeme.written).length + n < shared.length →
        beyond ≠ [] ∧ n < beyond.length := by
      intro n short
      have some : n < beyond.length := by omega
      exact ⟨List.ne_nil_of_length_pos (Nat.zero_lt_of_lt some), some⟩
    cases i with
    | zero =>
      obtain rfl : ⟨lexeme, p.after gap⟩ = t := by simpa using here
      refine ⟨gap, List.prefix_append .., rfl, fun short => ?_⟩
      rw [same (reaches 0 short).1, List.getElem?_cons_zero]
    | succ i =>
      obtain ⟨before, inside, place, later⟩ := ih rfl i t (by simpa using here)
      refine ⟨gap ++ lexeme.written ++ before, ?_, ?_, fun short => ?_⟩
      · rw [List.append_assoc]
        exact (List.prefix_append_right_inj _).mpr inside
      · rw [place, Position.afterAppend, Position.afterAppend]
      · rw [List.append_assoc, List.length_append] at short
        obtain ⟨some, shorter⟩ := reaches _ short
        rw [same some, List.getElem?_cons_succ]
        exact later shorter

theorem tokensInside {name : String} {i : Nat} {t : Token} :
    (tokens c name text)[i]? = some t ∧ t.isEnd = false ↔
      ∃ u, (allFrom c {} text)[i]? = some u ∧ u.token name = t := by
  have within := tilesInside (allTiles c {} text) name
  rw [tokens, List.getElem?_append, List.length_map]
  split
  · rename_i inside
    rw [List.getElem?_map, Option.map_eq_some_iff]
    refine and_iff_left_of_imp ?_
    rintro ⟨u, found, rfl⟩
    exact within _ (List.mem_map_of_mem (List.mem_of_getElem? found))
  · rename_i outside
    rw [List.getElem?_eq_none (Nat.not_lt.mp outside)]
    refine iff_of_false ?_ (by simp)
    rintro ⟨last, inside⟩
    obtain ⟨_, rfl⟩ := List.getElem?_eq_some_iff.mp last
    simp [Token.isEnd] at inside

end Lexeme

theorem placedEnds {text : List Char} {name : String} {u : Placed} {before : List Char}
    {recorded : List Diagnostic} (rendered : (u.token name).rendered recorded = u.lexeme.written)
    (inside : before ++ u.lexeme.written <+: text) (place : u.position = Position.after {} before) :
    (u.token name).EndsAt recorded text (before ++ u.lexeme.written).length := by
  obtain ⟨behind, whole⟩ := inside
  have parts : text = before ++ (u.lexeme.written ++ behind) := by rw [← whole, List.append_assoc]
  rw [← rendered] at whole ⊢
  exact ⟨before, ⟨behind, whole⟩, place.trans (Text.Cursor.positionBehind parts).symm, rfl⟩

/- The two texts go on in any way behind what they share, and the windows fall on them as they will. -/
theorem oneCharacterDecides {c : Config} (fits : c.width.size ≤ sizeLimit) (shared left right : List Char)
    (name : String) :
    ∃ tokens recorded others otherwise,
      Lexer.run (Lexer.ofText (shared ++ left) c name) = (.ok tokens, recorded) ∧
      Lexer.run (Lexer.ofText (shared ++ right) c name) = (.ok others, otherwise) ∧
      ∀ (i : Nat) (t : Token), tokens[i]? = some t → t.isEnd = false →
        (∃ offset, t.EndsAt recorded (shared ++ left) offset) ∧
        ∀ offset, t.EndsAt recorded (shared ++ left) offset → offset < shared.length →
          others[i]? = some t := by
  have tiles := allTiles c {} (shared ++ left)
  have rendered := tilesRendered tiles fun place =>
    Iff.refl (.unterminatedString place ∈ diagnostics c (sourceName (some name) none) (shared ++ left))
  refine ⟨_, _, _, _, runText fits _ name, runText fits _ name, fun i t here inside => ?_⟩
  obtain ⟨u, found, rfl⟩ := tokensInside.mp ⟨here, inside⟩
  obtain ⟨before, within, place, later⟩ := tilesShared tiles rfl right i u found
  have ends := placedEnds (rendered u (List.mem_of_getElem? found)) within place
  refine ⟨⟨_, ends⟩, fun offset reaches short => ?_⟩
  rw [endsOnce reaches ends] at short
  exact (tokensInside.mpr ⟨u, later short, rfl⟩).1

theorem literalDecided : ∃ shared tokens recorded others otherwise,
    shared = ['a', '"', '\n', '"', '>'] ∧
    Lexer.run (Lexer.ofText (shared ++ ['=']) .narrow "f") = (.ok tokens, recorded) ∧
    Lexer.run (Lexer.ofText (shared ++ ['"']) .narrow "f") = (.ok others, otherwise) ∧
    tokens[1]? = some ⟨.stringLiteral, "\n", ⟨1, 2⟩, "f"⟩ ∧
    others[1]? = some ⟨.stringLiteral, "\n", ⟨1, 2⟩, "f"⟩ ∧
    tokens[2]? = some ⟨.operator, ">=", ⟨2, 2⟩, "f"⟩ ∧
    others[2]? = some ⟨.operator, ">", ⟨2, 2⟩, "f"⟩ := by
  have fits : Config.narrow.width.size ≤ sizeLimit := by decide
  obtain ⟨tokens, recorded, others, otherwise, run, other, decided⟩ :=
    oneCharacterDecides fits ['a', '"', '\n', '"', '>'] ['='] ['"'] "f"
  obtain ⟨first, problems⟩ := Prod.mk.inj (run.symm.trans (runText fits _ "f"))
  obtain ⟨second, _⟩ := Prod.mk.inj (other.symm.trans (runText fits _ "f"))
  have literal : tokens[1]? = some ⟨.stringLiteral, "\n", ⟨1, 2⟩, "f"⟩ := by
    rw [Except.ok.inj first]
    cbv
  have ends : Token.EndsAt recorded ['a', '"', '\n', '"', '>', '='] ⟨.stringLiteral, "\n", ⟨1, 2⟩, "f"⟩ 4 := by
    have none : recorded = [] := by
      rw [problems]
      cbv
    rw [none]
    exact ⟨['a'], by decide, by decide, by decide⟩
  refine ⟨_, tokens, recorded, others, otherwise, rfl, run, other, literal, ?_, ?_, ?_⟩
  · exact (decided 1 _ literal rfl).2 4 ends (by decide)
  · rw [Except.ok.inj first]
    cbv
  · rw [Except.ok.inj second]
    cbv

end WindowLex

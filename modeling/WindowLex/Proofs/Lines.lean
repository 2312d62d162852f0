import WindowLex.Proofs.Runs

/-! Texts joined by a line feed. Unless the first of them ends inside a string literal, the tokens of the
whole are those of the two parts, where the second part only stands so many lines further down. -/
namespace WindowLex
open Lexical Lexeme

def Position.down (lines : Nat) (p : Position) : Position := { p with line := p.line + lines }

def Location.down (lines : Nat) (l : Location) : Location := { l with position := l.position.down lines }

def Detail.down (lines : Nat) (d : Detail) : Detail :=
  { d with location := d.location.map (Location.down lines) }

def Diagnostic.down (lines : Nat) : Diagnostic → Diagnostic
  | located detail => located (detail.down lines)
  | source detail => source (detail.down lines)
  | lexical detail => lexical (detail.down lines)
  | readFailed reason location => readFailed reason (location.map (Location.down lines))
  | unterminatedString location => unterminatedString (location.map (Location.down lines))
  | placeless => placeless

def Token.down (lines : Nat) (t : Token) : Token := { t with position := t.position.down lines }

namespace Lexeme

def Placed.down (lines : Nat) (t : Placed) : Placed := { t with position := t.position.down lines }

end Lexeme

namespace Position

theorem nextDown (lines : Nat) (p : Position) (x : Char) :
    (p.down lines).next x = (p.next x).down lines := by
  unfold next down
  split
  · simp only [Int.add_right_comm]
  · rfl

theorem afterDown (lines : Nat) (p : Position) (text : List Char) :
    (p.down lines).after text = (p.after text).down lines := by
  induction text generalizing p with
  | nil => rfl
  | cons x rest ih => rw [after, List.foldl_cons, nextDown, ← after, ih, after, after, List.foldl_cons]

theorem afterLine (text : List Char) :
    ((after {} text).next '\n') = down (text.count '\n' + 1) {} := by
  rw [afterCounted]
  simp [next, down, Int.add_comm]

end Position

namespace Lexeme

variable {c : Config} {p q : Position} {u v text : List Char} {placed others : List Placed}

theorem tilesDown (lines : Nat) (tiles : Tiles c p text placed) :
    Tiles c (p.down lines) text (placed.map (Placed.down lines)) := by
  induction tiles with
  | done blank => exact .done blank
  | @tile p gap lexeme behind placed blank starts cut more ih =>
    rw [← Position.afterDown, ← Position.afterDown] at ih
    have tile := Tiles.tile blank starts cut ih
    rw [Position.afterDown] at tile
    exact tile

theorem cutLine {lexeme : Lexeme} {behind : List Char} (cut : Cut c lexeme behind)
    (whole : lexeme.cutOff = false) (v : List Char) : Cut c lexeme (behind ++ '\n' :: v) := by
  cases behind with
  | nil => exact cutGap cut whole (by decide) (fun _ => rfl) v
  | cons x behind => exact cutHead cut whole rfl

theorem tilesJoin (tiles : Tiles c p u placed) (whole : ∀ t ∈ placed, t.lexeme.cutOff = false)
    (place : q = (p.after u).next '\n') (more : Tiles c q v others) :
    Tiles c p (u ++ '\n' :: v) (placed ++ others) := by
  induction tiles with
  | @done p gap blank =>
    subst place
    have feed : ∀ x ∈ ['\n'], isGap x = true := by simp [isGap]
    exact tilesGap blank (tilesGap feed more)
  | @tile p gap lexeme behind placed blank starts cut rest ih =>
    obtain ⟨closed, later⟩ := List.forall_mem_cons.mp whole
    rw [Position.afterAppend, Position.afterAppend] at place
    rw [List.append_assoc, List.append_assoc]
    exact .tile blank starts (cutLine cut closed v) (ih later place)

theorem allJoin (whole : ∀ t ∈ allFrom c {} u, t.lexeme.cutOff = false) (v : List Char) :
    allFrom c {} (u ++ '\n' :: v) =
      allFrom c {} u ++ (allFrom c {} v).map (Placed.down (u.count '\n' + 1)) :=
  tilesAll (tilesJoin (allTiles c {} u) whole (Position.afterLine u).symm (tilesDown _ (allTiles c {} v)))

theorem tokensJoin (whole : ∀ t ∈ allFrom c {} u, t.lexeme.cutOff = false) (name : String) (v : List Char) :
    tokens c name (u ++ '\n' :: v) = (allFrom c {} u).map (Placed.token name) ++
      (tokens c name v).map (Token.down (u.count '\n' + 1)) := by
  have last : Position.after {} (u ++ '\n' :: v) = (Position.after {} v).down (u.count '\n' + 1) := by
    rw [Position.afterAppend, ← Position.afterDown, ← Position.afterLine]
    rfl
  simp only [tokens, allJoin whole, last, List.map_append, List.map_map, List.append_assoc]
  rfl

theorem diagnosticsJoin (whole : ∀ t ∈ allFrom c {} u, t.lexeme.cutOff = false) (name : String)
    (v : List Char) : diagnostics c name (u ++ '\n' :: v) =
      (diagnostics c name v).map (Diagnostic.down (u.count '\n' + 1)) := by
  have none : (allFrom c {} u).filter (·.lexeme.cutOff) = [] :=
    List.filter_eq_nil_iff.mpr fun t member => by simp [whole t member]
  simp only [diagnostics, allJoin whole, List.filter_append, none, List.nil_append, List.filter_map,
    List.map_map]
  rfl

theorem closedWhole {name : String} (closed : ∀ place, .unterminatedString place ∉ diagnostics c name u) :
    ∀ t ∈ allFrom c {} u, t.lexeme.cutOff = false := by
  intro t member
  cases short : t.lexeme.cutOff with
  | false => rfl
  | true =>
    exact absurd (List.mem_map.mpr ⟨t, List.mem_filter.mpr ⟨member, short⟩, rfl⟩) (closed _)

end Lexeme

/- The windows fall elsewhere in the whole than in its parts, and string literals may go over many lines. -/
theorem linesScannedApart {c : Config} (fits : c.width.size ≤ sizeLimit) {u : List Char} {name : String}
    (closed : ∀ place, .unterminatedString place ∉ (Lexer.run (Lexer.ofText u c name)).2) (v : List Char) :
    ∃ left ending right recorded,
      (Lexer.run (Lexer.ofText u c name)).1 = .ok (left ++ [ending]) ∧
      (∀ t ∈ left, t.isEnd = false) ∧ ending.isEnd = true ∧
      Lexer.run (Lexer.ofText v c name) = (.ok right, recorded) ∧
      Lexer.run (Lexer.ofText (u ++ '\n' :: v) c name) =
        (.ok (left ++ right.map (Token.down (u.count '\n' + 1))),
          recorded.map (Diagnostic.down (u.count '\n' + 1))) := by
  rw [runText fits] at closed
  have whole := closedWhole closed
  refine ⟨_, ⟨.endOfInput, Token.endLexeme, Position.after {} u, sourceName (some name) none⟩, _, _, ?_,
    tilesInside (allTiles c {} u) (sourceName (some name) none), rfl, runText fits v name, ?_⟩
  · rw [runText fits]
    rfl
  · rw [runText fits, tokensJoin whole, diagnosticsJoin whole]

theorem slashesScannedApart : ∃ u v left ending right recorded,
    u = ['"', '\n', '"', '/'] ∧ v = ['/', '=', '"', 'a'] ∧
    (∀ place, .unterminatedString place ∉ (Lexer.run (Lexer.ofText u .narrow "f")).2) ∧
    (Lexer.run (Lexer.ofText u .narrow "f")).1 = .ok (left ++ [ending]) ∧
    Lexer.run (Lexer.ofText v .narrow "f") = (.ok right, recorded) ∧
    recorded = [.unterminatedString (some ⟨"f", 1, 3⟩)] ∧
    Lexer.run (Lexer.ofText (u ++ '\n' :: v) .narrow "f") =
      (.ok (left ++ right.map (Token.down 2)), [.unterminatedString (some ⟨"f", 3, 3⟩)]) := by
  have fits : Config.narrow.width.size ≤ sizeLimit := by decide
  have closed : ∀ place,
      .unterminatedString place ∉ (Lexer.run (Lexer.ofText ['"', '\n', '"', '/'] .narrow "f")).2 := by
    have none : Lexeme.diagnostics .narrow (sourceName (some "f") none) ['"', '\n', '"', '/'] = [] := by cbv
    rw [runText fits, none]
    simp
  obtain ⟨left, ending, right, recorded, first, _, _, second, whole⟩ :=
    linesScannedApart fits closed ['/', '=', '"', 'a']
  have problems : recorded = [.unterminatedString (some ⟨"f", 1, 3⟩)] := by
    obtain ⟨_, found⟩ := Prod.mk.inj (second.symm.trans (runText fits _ "f"))
    rw [found]
    cbv
  refine ⟨_, _, left, ending, right, recorded, rfl, rfl, closed, first, second, problems, ?_⟩
  rw [whole, problems]
  rfl

end WindowLex

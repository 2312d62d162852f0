import Mathlib.Data.List.Nodup
import Mathlib.Data.List.TakeWhile
import WindowLex.Proofs.Grammar
import WindowLex.Proofs.Places

/-! The lexemes of a whole text. They lie in it one behind another with nothing but gaps between them, each
at the place of its first character, and only the last of them can be cut off. -/
namespace WindowLex.Lexeme
open Lexical

variable {c : Config} {p : Position} {text : List Char} {placed : List Placed}

theorem allFromBlank (blank : text.dropWhile isGap = []) : allFrom c p text = [] := by
  rw [allFrom]
  split
  · rfl
  · rename_i here
    rw [blank] at here
    contradiction

theorem allFromTakes {first : Char} {rest : List Char} (here : text.dropWhile isGap = first :: rest) :
    allFrom c p text = ⟨(split c first rest).1, p.after (text.takeWhile isGap)⟩ ::
      allFrom c ((p.after (text.takeWhile isGap)).after (split c first rest).1.written)
        (split c first rest).2 := by
  rw [allFrom]
  split
  · rename_i blank
    rw [here] at blank
    contradiction
  · rename_i same
    rw [here] at same
    obtain ⟨rfl, rfl⟩ := List.cons.inj same
    rfl

inductive Tiles (c : Config) : Position → List Char → List Placed → Prop where
  | done {p gap} (blank : ∀ x ∈ gap, isGap x = true) : Tiles c p gap []
  | tile {p gap lexeme behind placed} (blank : ∀ x ∈ gap, isGap x = true)
      (starts : ∀ x ∈ lexeme.written.head?, isGap x = false) (cut : Cut c lexeme behind)
      (more : Tiles c ((p.after gap).after lexeme.written) behind placed) :
      Tiles c p (gap ++ (lexeme.written ++ behind)) (⟨lexeme, p.after gap⟩ :: placed)

theorem cutWritten {lexeme : Lexeme} {behind : List Char} (cut : Cut c lexeme behind) :
    lexeme.written ≠ [] := by
  cases cut with
  | word => simp [wordWritten]
  | single => simp [punctuationWritten]
  | _ => simp [written]

theorem cutOffLast {lexeme : Lexeme} {behind : List Char} (cut : Cut c lexeme behind)
    (short : lexeme.cutOff = true) : behind = [] := by
  cases cut <;> first | rfl | contradiction

theorem cutKind {lexeme : Lexeme} {behind : List Char} (cut : Cut c lexeme behind) :
    lexeme.kind ≠ .endOfInput := by
  cases cut with
  | word => unfold wordKind; split <;> simp
  | single => unfold punctuation; split <;> simp
  | _ => simp

theorem allTiles (c : Config) (p : Position) (text : List Char) : Tiles c p text (allFrom c p text) := by
  fun_induction allFrom c p text with
  | case1 p text blank => exact .done (List.dropWhile_eq_nil_iff.mp blank)
  | case2 p text first rest here start cut ih =>
    have starts : ∀ x ∈ cut.1.written.head?, isGap x = false := by
      have whole := splitWritten c first rest
      have some := cutWritten (splitCut c first rest)
      intro x head
      obtain ⟨tail, parts⟩ := List.head?_eq_some_iff.mp head
      rw [parts] at whole
      obtain rfl : x = first := (List.cons.inj whole).1
      exact dropWhileStops (congrArg List.head? here)
    have tile := Tiles.tile (p := p) takeWhileInside starts (splitCut c first rest) ih
    rwa [splitWritten, ← here, List.takeWhile_append_dropWhile] at tile

/- There is one way to lay the lexemes out, so whatever covers the text in this way is all of them. -/
theorem tilesAll (tiles : Tiles c p text placed) : allFrom c p text = placed := by
  induction tiles with
  | done blank => exact allFromBlank (List.dropWhile_eq_nil_iff.mpr blank)
  | @tile p gap lexeme behind placed blank starts cut more ih =>
    obtain ⟨first, rest, whole, taken⟩ := cutSplit cut
    have noGap : ∀ x ∈ (first :: rest).head?, isGap x = false := by
      obtain ⟨head, tail, parts⟩ := List.exists_cons_of_ne_nil (cutWritten cut)
      rw [parts] at whole starts
      obtain rfl := (List.cons.inj whole).1
      exact starts
    rw [whole, allFromTakes (dropWhileExact blank noGap), takeWhileExact blank noGap, taken, ih]

theorem tilesGap {gap : List Char} (blank : ∀ x ∈ gap, isGap x = true)
    (tiles : Tiles c (p.after gap) text placed) : Tiles c p (gap ++ text) placed := by
  cases tiles with
  | done more => exact .done (List.forall_mem_append.mpr ⟨blank, more⟩)
  | tile more starts cut rest =>
    rw [← Position.afterAppend p] at rest ⊢
    rw [← List.append_assoc]
    exact .tile (List.forall_mem_append.mpr ⟨blank, more⟩) starts cut rest

theorem tilesCut (tiles : Tiles c p text placed) : ∀ t ∈ placed, ∃ before behind,
    text = before ++ (t.lexeme.written ++ behind) ∧ t.position = p.after before ∧
      (∀ x ∈ t.lexeme.written.head?, isGap x = false) ∧ Cut c t.lexeme behind := by
  induction tiles with
  | done => simp
  | @tile p gap lexeme behind placed blank starts cut more ih =>
    intro t member
    rcases List.mem_cons.mp member with rfl | later
    · exact ⟨gap, behind, rfl, rfl, starts, cut⟩
    · obtain ⟨before, rest, parts, place, first, found⟩ := ih t later
      refine ⟨gap ++ lexeme.written ++ before, rest, ?_, ?_, first, found⟩
      · rw [parts]
        simp only [List.append_assoc]
      · rw [place, Position.afterAppend, Position.afterAppend]

theorem tilesInside (tiles : Tiles c p text placed) (name : String) :
    ∀ t ∈ placed.map (Placed.token name), t.isEnd = false := by
  intro t member
  obtain ⟨u, found, rfl⟩ := List.mem_map.mp member
  obtain ⟨_, _, _, _, _, cut⟩ := tilesCut tiles u found
  exact decide_eq_false (cutKind cut)

theorem tilesNothing (tiles : Tiles c p [] placed) : placed = [] := by
  generalize whole : ([] : List Char) = text at tiles
  cases tiles with
  | done => rfl
  | tile blank starts cut more =>
    have parts := List.append_eq_nil_iff.mp whole.symm
    exact absurd (List.append_eq_nil_iff.mp parts.2).1 (cutWritten cut)

def cuts (name : String) (placed : List Placed) : List Diagnostic :=
  (placed.filter (·.lexeme.cutOff)).map fun t => .unterminatedString (some ⟨name, t.position⟩)

theorem cutsCons (name : String) (t : Placed) (placed : List Placed) :
    cuts name (t :: placed) = cuts name [t] ++ cuts name placed := by
  rw [← List.singleton_append, cuts, List.filter_append, List.map_append]
  rfl

theorem cutsFew (tiles : Tiles c p text placed) (name : String) : (cuts name placed).length ≤ 1 := by
  induction tiles with
  | done => exact Nat.zero_le 1
  | @tile p gap lexeme behind placed blank starts cut more ih =>
    cases short : lexeme.cutOff with
    | true =>
      obtain rfl := cutOffLast cut short
      simp [tilesNothing more, cuts, short]
    | false => simpa [cuts, short] using ih

theorem tilesBehind (tiles : Tiles c p text placed) : ∀ t ∈ placed, ¬ t.position.Before p := by
  induction tiles with
  | done => simp
  | @tile p gap lexeme behind placed blank starts cut more ih =>
    intro t member
    rcases List.mem_cons.mp member with rfl | later
    · exact Position.afterNotBefore p gap
    · intro back
      have start := Position.beforeKept (Position.beforeAfter (p.after gap) (cutWritten cut)) (ih t later)
      exact Position.afterNotBefore p gap (Position.beforeTrans start back)

theorem tilesOrdered (tiles : Tiles c p text placed) :
    placed.Pairwise fun left right => left.position.Before right.position := by
  induction tiles with
  | done => exact .nil
  | @tile p gap lexeme behind placed blank starts cut more ih =>
    refine .cons (fun t later => ?_) ih
    exact Position.beforeKept (Position.beforeAfter (p.after gap) (cutWritten cut)) (tilesBehind more t later)

/- No two lexemes start at one place, so a place tells the lexeme that was cut off there. -/
theorem cutsTell (tiles : Tiles c p text placed) (name : String) {t : Placed} (member : t ∈ placed) :
    .unterminatedString (some ⟨name, t.position⟩) ∈ cuts name placed ↔ t.lexeme.cutOff = true := by
  have apart : (placed.map Placed.position).Nodup := by
    refine List.pairwise_map.mpr ((tilesOrdered tiles).imp fun {left right} before same => ?_)
    rw [same] at before
    exact right.position.notBeforeItself before
  constructor
  · intro recorded
    obtain ⟨u, filtered, same⟩ := List.mem_map.mp recorded
    obtain ⟨inside, short⟩ := List.mem_filter.mp filtered
    have place : u.position = t.position := by simpa using same
    obtain rfl := List.inj_on_of_nodup_map apart inside member place
    exact short
  · intro short
    exact List.mem_map.mpr ⟨t, List.mem_filter.mpr ⟨member, short⟩, rfl⟩

end WindowLex.Lexeme

import WindowLex.Proofs.Runs

/-! The text told again by its tokens. Written out with what their kinds leave out of them, and with the gaps
between them, the tokens give back the text, and each stands where its first character does. -/
namespace WindowLex
open Lexical Lexeme

/- What stands in the text for a token. A string literal that is recorded as cut off was not closed, and
nothing stands for the end of the text. -/
def Token.rendered (recorded : List Diagnostic) (t : Token) : List Char :=
  match t.kind with
  | .stringLiteral =>
    '"' :: t.lexeme.toList ++ if .unterminatedString (some t.location) ∈ recorded then [] else ['"']
  | .comment => '/' :: '/' :: t.lexeme.toList
  | .endOfInput => []
  | _ => t.lexeme.toList

structure Tile where
  gap : List Char
  token : Token

def Tile.spelled (recorded : List Diagnostic) (tile : Tile) : List Char :=
  tile.gap ++ tile.token.rendered recorded

structure Retells (recorded : List Diagnostic) (place : List Char → Position) (text : List Char)
    (tiles : List Tile) (last : List Char) : Prop where
  whole : text = tiles.flatMap (Tile.spelled recorded) ++ last
  gaps : ∀ tile ∈ tiles, ∀ x ∈ tile.gap, isGap x = true
  blank : ∀ x ∈ last, isGap x = true
  inside : ∀ tile ∈ tiles, tile.token.isEnd = false
  places : ∀ before tile behind, tiles = before ++ tile :: behind →
    tile.token.position = place (before.flatMap (Tile.spelled recorded) ++ tile.gap)

theorem tilesRendered {c : Config} {p : Position} {text : List Char} {placed : List Placed} {name : String}
    {recorded : List Diagnostic} (tiles : Tiles c p text placed)
    (tells : ∀ place, .unterminatedString place ∈ recorded ↔ .unterminatedString place ∈ cuts name placed) :
    ∀ t ∈ placed, (t.token name).rendered recorded = t.lexeme.written := by
  intro t member
  obtain ⟨_, _, _, _, _, cut⟩ := tilesCut tiles t member
  have kind := cutKind cut
  have short := (tells (some ⟨name, t.position⟩)).trans (cutsTell tiles name member)
  simp only [Placed.token, Token.rendered, Token.location, short, String.toList_ofList, written]
  cases same : t.lexeme.kind <;> first | rfl | contradiction

theorem tilesRetell {c : Config} {p : Position} {text : List Char} {placed : List Placed}
    (tiles : Tiles c p text placed) {recorded : List Diagnostic} {name : String}
    (tells : ∀ t ∈ placed, (t.token name).rendered recorded = t.lexeme.written) :
    ∃ laid last, laid.map Tile.token = placed.map (Placed.token name) ∧
      Retells recorded p.after text laid last := by
  induction tiles with
  | @done p gap blank => exact ⟨[], gap, rfl, rfl, by simp, blank, by simp, by simp⟩
  | @tile p gap lexeme behind placed blank starts cut more ih =>
    obtain ⟨laid, last, same, rest⟩ := ih fun t later => tells t (List.mem_cons_of_mem _ later)
    have spelled : Tile.spelled recorded ⟨gap, Placed.token name ⟨lexeme, p.after gap⟩⟩ =
        gap ++ lexeme.written := congrArg _ (tells _ (List.mem_cons_self ..))
    refine ⟨⟨gap, Placed.token name ⟨lexeme, p.after gap⟩⟩ :: laid, last, by simp [same], ?_⟩
    refine ⟨?_, ?_, rest.blank, ?_, ?_⟩
    · rw [List.flatMap_cons, spelled, List.append_assoc, List.append_assoc, ← rest.whole]
    · exact List.forall_mem_cons.mpr ⟨blank, rest.gaps⟩
    · exact List.forall_mem_cons.mpr ⟨decide_eq_false (cutKind cut), rest.inside⟩
    · intro before tile after split
      cases before with
      | nil =>
        obtain ⟨rfl, rfl⟩ := List.cons.inj split
        rfl
      | cons head before =>
        obtain ⟨rfl, later⟩ := List.cons.inj split
        rw [rest.places before tile after later, List.flatMap_cons, spelled]
        simp only [Position.afterAppend, List.append_assoc]

theorem retellsCounted {recorded : List Diagnostic} {text : List Char} {tiles : List Tile}
    {last : List Char} (retells : Retells recorded (Position.after {}) text tiles last) :
    Retells recorded (fun passed => (Text.Cursor.mk text passed.length).position) text tiles last where
  whole := retells.whole
  gaps := retells.gaps
  blank := retells.blank
  inside := retells.inside
  places := by
    intro before tile behind split
    have whole : text = (before.flatMap (Tile.spelled recorded) ++ tile.gap) ++
        (tile.token.rendered recorded ++ behind.flatMap (Tile.spelled recorded) ++ last) := by
      rw [retells.whole, split]
      simp [Tile.spelled]
    rw [retells.places before tile behind split, Text.Cursor.positionBehind whole]

theorem textRetold {c : Config} (fits : c.width.size ≤ sizeLimit) (text : List Char) (name : String) :
    ∃ tokens recorded, Lexer.run (Lexer.ofText text c name) = (.ok tokens, recorded) ∧
      ∃ tiles last ending, tokens = tiles.map Tile.token ++ [ending] ∧
        Retells recorded (fun passed => (Text.Cursor.mk text passed.length).position) text tiles last ∧
        ending.isEnd = true ∧ ending.position = (Text.Cursor.mk text text.length).position := by
  have tiles := allTiles c {} text
  have whole : text = text ++ [] := (List.append_nil text).symm
  have rendered := tilesRendered tiles fun place =>
    Iff.refl (.unterminatedString place ∈ Lexeme.diagnostics c (sourceName (some name) none) text)
  obtain ⟨laid, last, same, retells⟩ := tilesRetell tiles rendered
  refine ⟨_, _, runText fits text name, laid, last,
    ⟨.endOfInput, Token.endLexeme, Position.after {} text, sourceName (some name) none⟩, ?_,
    retellsCounted retells, rfl, ?_⟩
  · rw [same]
    rfl
  · rw [Text.Cursor.positionBehind whole]

theorem cutTextRetold : ∃ text tiles last ending recorded,
    text = ['/', '/', 'a', '\n', ' ', 'x', '>', '=', '"', '\n', ' '] ∧
    Lexer.run (Lexer.ofText text .narrow "f") = (.ok (tiles.map Tile.token ++ [ending]), recorded) ∧
    recorded = [.unterminatedString (some ⟨"f", 2, 5⟩)] ∧
    Retells recorded (fun passed => (Text.Cursor.mk text passed.length).position) text tiles last ∧
    ending.position = ⟨3, 2⟩ := by
  have fits : Config.narrow.width.size ≤ sizeLimit := by decide
  obtain ⟨tokens, recorded, run, tiles, last, ending, rfl, retells, _, place⟩ :=
    textRetold fits ['/', '/', 'a', '\n', ' ', 'x', '>', '=', '"', '\n', ' '] "f"
  refine ⟨_, tiles, last, ending, recorded, rfl, run, ?_, retells, ?_⟩
  · obtain ⟨_, found⟩ := Prod.mk.inj (run.symm.trans (runText fits _ "f"))
    rw [found]
    cbv
  · rw [place]
    decide

end WindowLex

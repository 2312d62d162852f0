import WindowLex.Proofs.Runs

/-! What a complete scan records. A string literal that the end of the text cut off is told first, then the
failure that ended the input, and nothing else is; pulling on at the end adds nothing to it. -/
namespace WindowLex
open Lexical Lexeme

def Lexer.again (l : Lexer) : Nat → Lexer
  | 0 => l
  | n + 1 => l.next.2.again n

namespace Lexer

structure Done (l : Lexer) : Prop where
  sound : l.source.Sound
  nothing : l.source.ahead = []
  ended : l.ended = true

theorem doneNext {l : Lexer} (done : l.Done) : l.next.2.Done ∧ l.next.2.diagnostics = l.diagnostics := by
  obtain ⟨l', pulled, gone, ended⟩ := nextEnds done.sound (by rw [done.nothing]; rfl)
  rw [done.nothing, if_pos done.ended] at gone
  have nothing : l'.source.ahead = [] := Source.passedAhead gone.passed done.nothing
  rw [pulled]
  exact ⟨⟨gone.passed.sound, nothing, ended⟩, gone.diagnostics⟩

theorem doneAgain {l : Lexer} (done : l.Done) (n : Nat) : (l.again n).diagnostics = l.diagnostics := by
  induction n generalizing l with
  | zero => rfl
  | succ n ih =>
    obtain ⟨later, same⟩ := doneNext done
    rw [again, ih later, same]

end Lexer

namespace Lexeme

variable {c : Config} {p : Position} {text : List Char} {t : Placed} {before placed : List Placed}

theorem cutsLast (tiles : Tiles c p text (before ++ [t])) (name : String) :
    cuts name (before ++ [t]) = cuts name [t] := by
  induction before generalizing p text with
  | nil => rfl
  | cons first before ih =>
    cases tiles with
    | @tile p gap lexeme behind _ blank starts cut more =>
      have closed : lexeme.cutOff = false := by
        refine Bool.eq_false_iff.mpr fun short => ?_
        obtain rfl := cutOffLast cut short
        exact absurd (tilesNothing more) (by simp)
      rw [List.cons_append, cutsCons, ih more]
      simp [cuts, closed]

end Lexeme

def LeftOpen (text : List Char) (t : Token) : Prop :=
  t.kind = .stringLiteral ∧ ∃ before behind, text = before ++ '"' :: behind ∧ '"' ∉ behind ∧
    t.position = (Text.Cursor.mk text before.length).position

structure Complaint (text : List Char) (last : Option Token) (problems : List Diagnostic) : Prop where
  unclosed : ∀ t ∈ last, LeftOpen text t → problems = [.unterminatedString (some t.location)]
  closed : (∀ t ∈ last, ¬ LeftOpen text t) → problems = []

theorem cutOffOpen {c : Config} {lexeme : Lexeme} {behind : List Char} (cut : Cut c lexeme behind)
    (short : lexeme.cutOff = true) :
    lexeme.kind = .stringLiteral ∧ lexeme.written ++ behind = '"' :: lexeme.text ∧ '"' ∉ lexeme.text := by
  cases cut with
  | cutOff inside => exact ⟨rfl, by simp [written], inside⟩
  | _ => contradiction

theorem closedQuote {lexeme : Lexeme} (kind : lexeme.kind = .stringLiteral) (whole : lexeme.cutOff = false) :
    lexeme.written = '"' :: (lexeme.text ++ ['"']) := by
  simp [written, kind, whole]

section
variable {c : Config} {text : List Char} {placed : List Placed}

-- The place of a token tells what stands before it, so the quotation mark at that place is its own.
theorem leftOpenCut (tiles : Tiles c {} text placed) {t : Placed} (member : t ∈ placed) (name : String) :
    LeftOpen text (t.token name) ↔ t.lexeme.cutOff = true := by
  obtain ⟨before, behind, parts, place, _, cut⟩ := tilesCut tiles t member
  constructor
  · rintro ⟨kind, other, rest, whole, noQuote, same⟩
    rw [Text.Cursor.positionBehind whole] at same
    obtain rfl : before = other :=
      Position.samePlace ⟨_, parts.symm⟩ ⟨_, whole.symm⟩ (place.symm.trans same)
    refine Bool.eq_true_of_not_eq_false fun closed => noQuote ?_
    rw [parts, closedQuote kind closed, List.cons_append] at whole
    rw [← (List.cons.inj (List.append_cancel_left whole)).2]
    simp
  · intro short
    obtain ⟨kind, rest, noQuote⟩ := cutOffOpen cut short
    rw [rest] at parts
    exact ⟨kind, before, t.lexeme.text, parts, noQuote, place.trans (Text.Cursor.positionBehind parts).symm⟩

theorem cutsComplaint (tiles : Tiles c {} text placed) (name : String) :
    Complaint text (placed.map (Placed.token name)).getLast? (cuts name placed) := by
  rcases List.eq_nil_or_concat placed with rfl | ⟨before, t, rfl⟩
  · exact ⟨by simp, fun _ => rfl⟩
  · rw [List.concat_eq_append] at tiles ⊢
    have told := leftOpenCut tiles (List.mem_append_right before (List.mem_singleton_self t)) name
    rw [cutsLast tiles, List.map_append, List.map_singleton, List.getLast?_concat]
    constructor
    · rintro _ ⟨⟩ left
      simp [cuts, told.mp left, Token.location, Placed.token]
    · intro closed
      simp [cuts, mt told.mpr (closed _ rfl)]

end

/- The lexer is new and pulled to the first end of the text, which is what the stream gives before the first
read that gives nothing or fails. That failure is in the source, as it is among the diagnostics. -/
theorem problemsRecorded {stream : Stream} {c : Config} {text : List Char} (gives : stream.Gives c.width text)
    (name : String) :
    ∃ l tokens ending l' problems, Lexer.start (.ofStream stream c.width name) c = (.ok (), l) ∧
      l.tokenize = (.ok (tokens ++ [ending]), l') ∧ (∀ t ∈ tokens, t.isEnd = false) ∧ ending.isEnd = true ∧
      l'.diagnostics.stored.toList = problems ++ l'.source.readError.toList ∧
      Complaint text tokens.getLast? problems ∧
      l'.source.readError =
        (stream.failure c.width.size).map (fun fault => .readFailed (name ++ ": " ++ fault.message)) ∧
      ∀ n, (l'.again n).diagnostics = l'.diagnostics := by
  have tiles := allTiles c {} text
  obtain ⟨l, l', started, tokens, ended, primed, passed, recorded⟩ :=
    scanFresh (Source.freshStream gives name) c
  have ahead : (Source.ofStream stream c.width name).ahead = text := gives.whole
  have nothing : l'.source.ahead = [] :=
    Source.passedAhead passed (primed.ahead.symm.trans (List.append_nil _).symm)
  have told : l'.source.readError = (Source.ofStream stream c.width name).ending :=
    (Source.endingDone (Source.exhaustedDone passed.sound nothing)).symm.trans
      (passed.ending.trans primed.ending)
  rw [ahead] at tokens recorded
  refine ⟨l, _, _, l', Lexeme.diagnostics c name text, started, tokens, tilesInside tiles name, rfl, ?_,
    cutsComplaint tiles name, told, Lexer.doneAgain ⟨passed.sound, nothing, ended⟩⟩
  rw [recorded, told]
  rfl

theorem brokenStreamRecords :
    brokenStream.Gives Config.narrow.width ['x', '>', '=', '/', '"', 'a'] ∧
    ∃ l tokens ending l', Lexer.start (.ofStream brokenStream Config.narrow.width "f") .narrow = (.ok (), l) ∧
      l.tokenize = (.ok (tokens ++ [ending]), l') ∧
      l'.diagnostics.stored.toList =
        [.unterminatedString (some ⟨"f", 1, 5⟩), .readFailed "f: gone"] ∧
      ∀ n, (l'.again n).diagnostics = l'.diagnostics := by
  have gives : brokenStream.Gives Config.narrow.width ['x', '>', '=', '/', '"', 'a'] := brokenStreamGives
  have failed : brokenStream.failure Config.narrow.width.size = some ⟨.system, "gone"⟩ :=
    (Stream.deliveredWritten (by simp [Stream.Sizeless, brokenStream]) (by simp [brokenStream])
      (by decide) rfl).2
  obtain ⟨l, tokens, ending, l', _, started, scanned, _, _, _, _, _, kept⟩ := problemsRecorded gives "f"
  refine ⟨gives, l, tokens, ending, l', started, scanned, ?_, kept⟩
  have run := runGives gives "f"
  rw [started, Lexer.run, scanned, failed] at run
  rw [(Prod.mk.inj run).2]
  cbv

end WindowLex

import Mathlib
import WindowLex.Proofs.Pulling

/-! Whole runs. A lexer that is started over a stream and runs to the end of the input gives out the tokens
of the delivered text, and the same ones over every other delivery of that text. -/
namespace WindowLex
open Lexical Lexeme

def Lexer.run : Except Fault Unit × Lexer → Except Fault (List Token) × List Diagnostic
  | (.error fault, l) => (.error fault, l.diagnostics.stored.toList)
  | (.ok (), l) => (l.tokenize.1, l.tokenize.2.diagnostics.stored.toList)

structure Source.Fresh (s : Source) : Prop extends Ready s where
  active : s.active = #[]
  standby : s.standby = #[]
  start : s.offset = 0
  position : s.position = {}

theorem Source.freshStream {stream : Stream} {width : Width} {text : List Char}
    (gives : stream.Gives width text) (name : String) : (ofStream stream width name).Fresh :=
  ⟨⟨gives.honest, gives.allowed, rfl, fun _ => rfl⟩, rfl, rfl, rfl, rfl⟩

theorem Source.freshNoted {s : Source} (fresh : s.Fresh) (event : Event) : (s.note event).Fresh :=
  ⟨⟨fresh.honest, fresh.allowed, fresh.opened, fresh.whole⟩, fresh.active, fresh.standby, fresh.start,
    fresh.position⟩

/- A run ends with the tokens of the text ahead, and the collector has room for all that is recorded. -/
theorem scanFresh {s : Source} (fresh : s.Fresh) (c : Config) :
    ∃ l l', Lexer.start s c = (.ok (), l) ∧ l.tokenize = (.ok (Lexeme.tokens c s.name s.ahead), l') ∧
      l'.ended = true ∧ s.Passed [] l.source ∧ l.source.Passed s.ahead l'.source ∧
      l'.diagnostics.stored.toList = Lexeme.diagnostics c s.name s.ahead ++ s.ending.toList := by
  obtain ⟨t, primed, passed⟩ := Source.primePassed fresh.toReady fresh.active fresh.standby fresh.start
  have ahead : t.ahead = s.ahead := passed.ahead.symm
  have position : t.position = {} := passed.position.trans fresh.position
  obtain ⟨l, tokens, pulled, ended⟩ :=
    Lexer.tokensFromPulled (l := { source := t, config := c }) passed.sound []
  have coming : Lexer.upcoming { source := t, config := c } = Lexeme.tokens c s.name s.ahead := by
    simp only [Lexer.upcoming, ahead, position, passed.name]
    rfl
  have problems : Lexer.impending { source := t, config := c } =
      Lexeme.diagnostics c s.name s.ahead ++ s.ending.toList := by
    simp only [Lexer.impending, ahead, position, passed.name, passed.ending]
    rfl
  have few : (Lexeme.diagnostics c s.name s.ahead).length ≤ 1 := cutsFew (allTiles c {} s.ahead) s.name
  refine ⟨{ source := t, config := c }, l, ?_, ?_, ended, passed, ahead ▸ pulled.passed, ?_⟩
  · simp only [Lexer.start, primed]
  · rw [Lexer.tokenize, tokens, coming]
    rfl
  · rw [pulled.diagnostics, problems, Collector.addAllStored]
    · rfl
    · cases s.ending <;> simp <;> omega

theorem runFresh {s : Source} (fresh : s.Fresh) (c : Config) :
    Lexer.run (Lexer.start s c) = (.ok (Lexeme.tokens c s.name s.ahead),
      Lexeme.diagnostics c s.name s.ahead ++ s.ending.toList) := by
  obtain ⟨l, l', started, tokens, _, _, _, recorded⟩ := scanFresh fresh c
  rw [started, Lexer.run, tokens, recorded]

theorem runGives {stream : Stream} {c : Config} {text : List Char} (gives : stream.Gives c.width text)
    (name : String) :
    Lexer.run (Lexer.start (.ofStream stream c.width name) c) = (.ok (Lexeme.tokens c name text),
      Lexeme.diagnostics c name text ++
        ((stream.failure c.width.size).map (Source.ofStream stream c.width name).cutBefore).toList) := by
  have run := runFresh (Source.freshStream gives name) c
  have ahead : (Source.ofStream stream c.width name).ahead = text := gives.whole
  rwa [ahead] at run

theorem runText {c : Config} (fits : c.width.size ≤ sizeLimit) (text : List Char) (name : String) :
    Lexer.run (Lexer.ofText text c name) =
      (.ok (Lexeme.tokens c (sourceName (some name) none) text),
        Lexeme.diagnostics c (sourceName (some name) none) text) := by
  have none := (Stream.textDelivered text c.width.sizePositive fits).2
  rw [Lexer.ofText, Source.ofText, runGives (Stream.textGives fits text), none, Option.map_none,
    Option.toList_none, List.append_nil]

theorem Source.primeTooLarge {s : Source} (more : s.exhausted = false) (opened : s.closed = false)
    (large : s.stream.tooLarge s.width.size = true) : ∃ t, s.prime = (.error .sizeLimit, t) := by
  obtain ⟨stream, gathers⟩ := Stream.gatherTooLarge s.width.sizePositive large []
  simp [prime, fill, more, opened, gathers]

theorem runTooWide {c : Config} (wide : sizeLimit < c.width.size) (text : List Char) (name : String) :
    (Lexer.run (Lexer.ofText text c name)).1 = .error .sizeLimit := by
  have large : (Stream.ofText text).tooLarge c.width.size = true := by
    simpa [Stream.tooLarge, Stream.ofText] using wide
  obtain ⟨s, primes⟩ := Source.primeTooLarge (s := .ofText text c.width name) rfl rfl large
  rw [Lexer.ofText, Lexer.start, primes]
  rfl

structure Config.SameTables (c d : Config) : Prop where
  keywords : c.keywords = d.keywords
  operators : c.operators = d.operators
  prefixes : c.prefixes = d.prefixes

theorem splitTables {c d : Config} (same : c.SameTables d) (first : Char) (rest : List Char) :
    split c first rest = split d first rest := by
  have word : wordKind c = wordKind d := by
    funext text
    rw [wordKind, wordKind, same.keywords]
  unfold split
  rw [word, same.operators, same.prefixes]

theorem allFromTables {c d : Config} (same : c.SameTables d) (p : Position) (text : List Char) :
    allFrom c p text = allFrom d p text := by
  fun_induction allFrom c p text with
  | case1 p text blank => exact (allFromBlank blank).symm
  | case2 p text first rest here start cut ih =>
    rw [allFromTakes here, ← splitTables same]
    exact congrArg _ ih

theorem tokensTables {c d : Config} (same : c.SameTables d) (name : String) (text : List Char) :
    Lexeme.tokens c name text = Lexeme.tokens d name text := by
  rw [Lexeme.tokens, Lexeme.tokens, allFromTables same]

theorem diagnosticsTables {c d : Config} (same : c.SameTables d) (name : String) (text : List Char) :
    Lexeme.diagnostics c name text = Lexeme.diagnostics d name text := by
  rw [Lexeme.diagnostics, Lexeme.diagnostics, allFromTables same]

def Diagnostic.isUnterminated (d : Diagnostic) : Bool := d.family = .unterminatedString

theorem unterminatedKept (c : Config) (name : String) (text : List Char) :
    (Lexeme.diagnostics c name text).filter Diagnostic.isUnterminated = Lexeme.diagnostics c name text := by
  rw [List.filter_eq_self]
  intro d member
  obtain ⟨t, _, rfl⟩ := List.mem_map.mp member
  rfl

theorem cutNotUnterminated (s : Source) (cut : Option Fault) :
    (cut.map s.cutBefore).toList.filter Diagnostic.isUnterminated = [] := by
  cases cut <;> rfl

theorem unterminatedRecorded (s : Source) (cut : Option Fault) (problems : List Diagnostic)
    (place : Option Location) : .unterminatedString place ∈ problems ++ (cut.map s.cutBefore).toList ↔
      .unterminatedString place ∈ problems := by
  cases cut <;> simp [Source.cutBefore]

/- Plain lexing has the whole text in one list, without windows and reads. -/
theorem tokensIgnoreReads {stream : Stream} {c : Config} {text : List Char}
    (gives : stream.Gives c.width text) (name : String) :
    ∃ recorded, Lexer.run (Lexer.start (.ofStream stream c.width name) c) =
        (.ok (Lexeme.tokens c name text), recorded) ∧
      recorded.filter Diagnostic.isUnterminated = Lexeme.diagnostics c name text ∧
      ∀ (other : Stream) (d : Config), other.Gives d.width text → c.SameTables d →
        ∃ others, Lexer.run (Lexer.start (.ofStream other d.width name) d) =
            (.ok (Lexeme.tokens c name text), others) ∧
          others.filter Diagnostic.isUnterminated = recorded.filter Diagnostic.isUnterminated := by
  refine ⟨_, runGives gives name, ?_, fun other d same tables => ?_⟩
  · simp only [List.filter_append, unterminatedKept, cutNotUnterminated, List.append_nil]
  · have run := runGives same name
    rw [← tokensTables tables, ← diagnosticsTables tables] at run
    refine ⟨_, run, ?_⟩
    simp only [List.filter_append, unterminatedKept, cutNotUnterminated]

def brokenStream : Stream where
  script := [.piece ['x', '>', '=', '/'], .piece ['"', 'a'], .failure ⟨.system, "gone"⟩]
  portion := some 2

theorem brokenStreamGives {width : Width} : brokenStream.Gives width ['x', '>', '=', '/', '"', 'a'] :=
  Stream.scriptGives (by decide) (by simp [Stream.Sizeless, brokenStream]) (by simp [brokenStream]) rfl

def Config.narrow : Config := { standard with width := .count 1 (by decide) }

theorem brokenStreamTokens :
    brokenStream.Gives Config.narrow.width ['x', '>', '=', '/', '"', 'a'] ∧
    ∃ tokens recorded, Lexer.run (Lexer.start (.ofStream brokenStream Config.narrow.width) .narrow) =
        (.ok tokens, recorded) ∧
      tokens = [⟨.identifier, "x", ⟨1, 1⟩, "<input>"⟩, ⟨.operator, ">=", ⟨1, 2⟩, "<input>"⟩,
        ⟨.operator, "/", ⟨1, 4⟩, "<input>"⟩, ⟨.stringLiteral, "a", ⟨1, 5⟩, "<input>"⟩,
        ⟨.endOfInput, "EOF", ⟨1, 7⟩, "<input>"⟩] ∧
      recorded.filter Diagnostic.isUnterminated = [.unterminatedString (some ⟨"<input>", 1, 5⟩)] ∧
      (Lexer.run (Lexer.ofText ['x', '>', '=', '/', '"', 'a'] .standard)).1 = .ok tokens := by
  have gives : brokenStream.Gives Config.narrow.width ['x', '>', '=', '/', '"', 'a'] := brokenStreamGives
  obtain ⟨recorded, run, cut, same⟩ := tokensIgnoreReads gives anonymous
  obtain ⟨others, whole, _⟩ := same _ .standard (Stream.textGives (by decide) _) ⟨rfl, rfl, rfl⟩
  refine ⟨gives, _, recorded, run, ?_, cut.trans ?_, congrArg Prod.fst whole⟩
  · cbv
  · cbv

end WindowLex

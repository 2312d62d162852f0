import WindowLex.Proofs.Portions
import WindowLex.Proofs.Runs

/-! Scans of files. Where bytes that cannot be decoded end the text of a file, it ends with the last window that could
be filled before the portion in which they show, so that it depends on the width of the windows. In a file that can
be decoded as a whole the width does not show. -/
namespace WindowLex
open Lexical Lexeme

def wholeWindows (width : Nat) (text : List Char) : List Char := text.take (width * (text.length / width))

namespace Encoding

variable (e : Encoding) (layer : TextLayer) (bytes : List UInt8)

def available (width : Nat) : List Char :=
  match e.textFrom layer bytes width with
  | (text, none) => text
  | (text, some _) => wholeWindows width text

def kept (width : Nat) : Nat :=
  match e.textFrom layer bytes width with
  | (text, none) => text.length
  | (text, some _) => width * (text.length / width)

end Encoding

section
variable {width : Nat} {text : List Char}

theorem wholeWindowsNone (less : text.length < width) : wholeWindows width text = [] := by
  rw [wholeWindows, Nat.div_eq_of_lt less, Nat.mul_zero, List.take_zero]

theorem wholeWindowsMore (positive : 0 < width) (enough : width ≤ text.length) :
    wholeWindows width text = text.take width ++ wholeWindows width (text.drop width) := by
  have one : text.length / width = (text.length - width) / width + 1 :=
    Nat.div_eq_sub_div positive enough
  rw [wholeWindows, wholeWindows, List.length_drop, one, Nat.mul_succ, Nat.add_comm, List.take_add]

theorem wholeWindowsLength (width : Nat) (text : List Char) :
    (wholeWindows width text).length = width * (text.length / width) := by
  rw [wholeWindows, List.length_take, Nat.min_eq_left (Nat.mul_div_le text.length width)]

end

namespace Stream

theorem readGuarded {s : Stream} {text : List Char} {fault : Fault} {width : Nat}
    (script : s.script = [.guarded text fault]) (allowed : s.tooLarge width = false) :
    ∃ s', s'.tooLarge = s.tooLarge ∧
      if width ≤ text.length then
        s.read width = (.ok (text.take width), s') ∧ s'.script = [.guarded (text.drop width) fault]
      else s.read width = (.error fault, s') := by
  obtain ⟨s', reads, left, _, limit⟩ := readAllowed allowed
  refine ⟨s', limit, ?_⟩
  rw [reads, left, script]
  split
  · rename_i enough
    simp [answer, enough]
  · rename_i less
    simp [answer, less]

theorem yieldGuarded {s : Stream} {text : List Char} {fault : Fault} {width : Nat}
    (script : s.script = [.guarded text fault]) (positive : 0 < width) (allowed : s.tooLarge width = false) :
    s.yieldFrom width 0 = (wholeWindows width text, some fault) := by
  have asked : request width 0 = width := if_pos rfl
  obtain ⟨s', limit, answered⟩ := readGuarded script allowed
  split at answered
  · rename_i enough
    obtain ⟨reads, left⟩ := answered
    have full : (text.take width).length = width := by rw [List.length_take, Nat.min_eq_left enough]
    obtain ⟨c, piece, first⟩ := List.exists_cons_of_length_pos (full.symm ▸ positive)
    rw [first, List.length_cons] at full
    rw [yieldFromPiece (by rw [asked, reads, first]), asked, full, Nat.sub_self,
      yieldGuarded left positive (limit ▸ allowed), wholeWindowsMore positive enough, first]
  · rename_i less
    rw [yieldFromFailure (asked.symm ▸ answered), wholeWindowsNone (Nat.lt_of_not_le less)]
  termination_by text.length
  decreasing_by simp only [List.length_drop]; omega

section
variable (e : Encoding) (layer : TextLayer) (bytes : List UInt8) {width : Nat}

theorem fileHonours : (ofBytes e bytes width layer).HonoursSizes := by
  refine scriptHonours fun reply member => ?_
  rw [ofBytes] at member
  split at member <;> cases List.mem_singleton.mp member <;> rfl

theorem fileText {text : List Char} (whole : e.textFrom layer bytes width = (text, none)) :
    ofBytes e bytes width layer = .ofText text := by
  rw [ofBytes, whole, ofText]

theorem fileDelivered (positive : 0 < width) (allowed : (ofBytes e bytes width layer).tooLarge width = false) :
    (ofBytes e bytes width layer).delivered width = e.available layer bytes width := by
  rcases read : e.textFrom layer bytes width with ⟨text, _ | message⟩
  · rw [fileText e layer bytes read] at allowed ⊢
    rw [(textDelivered text positive (textAllowed.mp allowed)).1]
    simp [Encoding.available, read]
  · have script : (ofBytes e bytes width layer).script = [.guarded text ⟨.badValue, message⟩] := by
      simp [ofBytes, read]
    rw [delivered, yieldGuarded script positive allowed]
    simp [Encoding.available, read]

end

theorem fileGives (e : Encoding) (layer : TextLayer) (bytes : List UInt8) {width : Width}
    (fits : width.size ≤ sizeLimit) :
    (ofBytes e bytes width.size layer).Gives width (e.available layer bytes width.size) := by
  have allowed : (ofBytes e bytes width.size layer).tooLarge width.size = false := by
    simpa [ofBytes, tooLarge] using fits
  exact ⟨fileHonours e layer bytes, allowed, fileDelivered e layer bytes width.sizePositive allowed⟩

end Stream

namespace Encoding

theorem namedNoNull {name : String} {e : Encoding} (named : named? name = some e) :
    name.toList.contains '\x00' = false := by
  refine lookupNoNull ?_
  cases found : lookup? name with
  | none => simp [named?, found] at named
  | some meaning => rfl

theorem availableLength (e : Encoding) (layer : TextLayer) (bytes : List UInt8) (width : Nat) :
    (e.available layer bytes width).length = e.kept layer bytes width := by
  rcases read : e.textFrom layer bytes width with ⟨text, _ | message⟩
  · simp [available, kept, read]
  · simp [available, kept, read, wholeWindowsLength]

theorem availableRead (e : Encoding) (layer : TextLayer) (bytes : List UInt8) (width : Nat) :
    e.available layer bytes width <+: (e.textFrom layer bytes width).1 := by
  rcases read : e.textFrom layer bytes width with ⟨text, _ | message⟩
  · simp [available, read]
  · simpa [available, read, wholeWindows] using List.take_prefix _ text

theorem availableWithin (layer : TextLayer) (bytes : List UInt8) (v w : Nat) :
    ∃ whole, utf8.available layer bytes v <+: whole ∧ utf8.available layer bytes w <+: whole := by
  have first := utf8.availableRead layer bytes v
  have second := utf8.availableRead layer bytes w
  rcases Reading.reachedComparable Utf8.decoderIncremental
      (Reading.textReached Utf8.decoderIncremental layer v {} bytes)
      (Reading.textReached Utf8.decoderIncremental layer w {} bytes) with shorter | longer
  · exact ⟨_, first.trans shorter, second⟩
  · exact ⟨_, first, second.trans longer⟩

theorem availableText (layer : TextLayer) (text : List Char) (width : Nat) :
    utf8.textFrom layer (Text.utf8 text) width = (Text.unifyLineEnds text, none) := by
  have whole := Reading.textWhole (r := ({} : Reading Utf8.decoder)) Utf8.decoderIncremental layer width
    (Utf8.decodeText text) rfl
  rwa [List.append_nil] at whole

end Encoding

/- What a started lexer has in front of the end of its input, read without making tokens of it. -/
def Lexer.textAhead : Except Fault Unit × Lexer → Except Fault (List Char)
  | (.error fault, _) => .error fault
  | (.ok (), l) => l.source.drain.1

theorem textFresh {s : Source} (fresh : s.Fresh) (c : Config) :
    Lexer.textAhead (Lexer.start s c) = .ok s.ahead := by
  obtain ⟨l, l', started, _, _, primed, _⟩ := scanFresh fresh c
  obtain ⟨t, taken, _⟩ := Source.takeWhilePassed primed.sound (fun _ => true) []
  have ahead : l.source.ahead = s.ahead := primed.ahead.symm
  rw [started, Lexer.textAhead, Source.drain, taken, ahead]
  simp

theorem widthTables (c : Config) (width : Width) : Config.SameTables { c with width } c := ⟨rfl, rfl, rfl⟩

theorem tokensTell {left right whole : List Char} (first : left <+: whole) (second : right <+: whole)
    (c : Config) (name : String) :
    Lexeme.tokens c name left = Lexeme.tokens c name right ↔ left = right := by
  constructor
  · intro same
    have last := (List.append_inj' same rfl).2
    exact Position.samePlace first second (congrArg Token.position (List.cons.inj last).1)
  · intro same
    rw [same]

section
variable {files : Files} {path : String} {bytes : List UInt8} {c : Config} {e : Encoding} {layer : TextLayer}

theorem fileOpened (file : files path = .file bytes) (plain : '\x00' ∉ path.toList)
    (named : Encoding.named? c.encoding = some e) (layer : TextLayer) :
    Lexer.ofFile files path c layer = .ok (Lexer.start
      ((Source.ofStream (.ofBytes e bytes c.width.size layer) c.width path).note (.opened path)) c) := by
  have path : path.toList.contains '\x00' = false := by simpa using plain
  simp only [Lexer.ofFile, Lexer.ofPath, Source.ofPath, Source.ofFile, Encoding.namedNoNull named, path, file, named]
  rfl

theorem fileScanned (file : files path = .file bytes) (plain : '\x00' ∉ path.toList)
    (named : Encoding.named? c.encoding = some e) (fits : c.width.size ≤ sizeLimit) (layer : TextLayer) :
    ∃ started, Lexer.ofFile files path c layer = .ok started ∧
      (Lexer.run started).1 = .ok (Lexeme.tokens c path (e.available layer bytes c.width.size)) ∧
      Lexer.textAhead started = .ok (e.available layer bytes c.width.size) := by
  have gives := Stream.fileGives e layer bytes fits
  have fresh := Source.freshNoted (Source.freshStream gives path) (.opened path)
  have ahead : ((Source.ofStream (.ofBytes e bytes c.width.size layer) c.width path).note (.opened path)).ahead =
      e.available layer bytes c.width.size := gives.whole
  refine ⟨_, fileOpened file plain named layer, ?_, ?_⟩
  · rw [runFresh fresh, ahead]
    rfl
  · rw [textFresh fresh, ahead]

theorem widthsTold (file : files path = .file bytes) (plain : '\x00' ∉ path.toList)
    (named : Encoding.named? c.encoding = some .utf8) {v w : Width} (vFits : v.size ≤ sizeLimit)
    (wFits : w.size ≤ sizeLimit) (layer : TextLayer) :
    ∃ left right, Lexer.ofFile files path { c with width := v } layer = .ok left ∧
      Lexer.ofFile files path { c with width := w } layer = .ok right ∧
      Lexer.textAhead left = .ok (Encoding.utf8.available layer bytes v.size) ∧
      Lexer.textAhead right = .ok (Encoding.utf8.available layer bytes w.size) ∧
      (Lexer.textAhead left = Lexer.textAhead right ↔
        Encoding.utf8.kept layer bytes v.size = Encoding.utf8.kept layer bytes w.size) ∧
      ((Lexer.run left).1 = (Lexer.run right).1 ↔
        Encoding.utf8.kept layer bytes v.size = Encoding.utf8.kept layer bytes w.size) ∧
      ∀ text, bytes = Text.utf8 text → Lexer.textAhead left = .ok (Text.unifyLineEnds text) := by
  obtain ⟨left, opened, tokens, text⟩ :=
    fileScanned (c := { c with width := v }) file plain named vFits layer
  obtain ⟨right, openedToo, others, other⟩ :=
    fileScanned (c := { c with width := w }) file plain named wFits layer
  obtain ⟨whole, first, second⟩ := Encoding.availableWithin layer bytes v.size w.size
  have agree : Encoding.utf8.available layer bytes v.size = Encoding.utf8.available layer bytes w.size ↔
      Encoding.utf8.kept layer bytes v.size = Encoding.utf8.kept layer bytes w.size := by
    rw [← Encoding.availableLength, ← Encoding.availableLength]
    constructor
    · intro same
      rw [same]
    · intro same
      exact (List.prefix_of_prefix_length_le first second same.le).eq_of_length same
  refine ⟨left, right, opened, openedToo, text, other, ?_, ?_, ?_⟩
  · rw [text, other, Except.ok.injEq]
    exact agree
  · rw [tokens, others, Except.ok.injEq, tokensTables (widthTables c v), tokensTables (widthTables c w),
      tokensTell first second]
    exact agree
  · rintro decoded rfl
    rw [text, Encoding.available, Encoding.availableText]

end

def tornFile : Files := fun _ => .file [0x61, 0x62, 0xC3]

theorem narrowNamed : Encoding.named? Config.narrow.encoding = some .utf8 := by decide +kernel

theorem tornFileAgrees :
    tornFile "f" = .file [0x61, 0x62, 0xC3] ∧ '\x00' ∉ "f".toList ∧
    Encoding.named? Config.narrow.encoding = some .utf8 ∧
    ∃ left right, Lexer.ofFile tornFile "f" { Config.narrow with width := .count 1 (by decide) } = .ok left ∧
      Lexer.ofFile tornFile "f" { Config.narrow with width := .count 2 (by decide) } = .ok right ∧
      Lexer.textAhead left = .ok ['a', 'b'] ∧ Lexer.textAhead right = .ok ['a', 'b'] ∧
      (Lexer.run left).1 = (Lexer.run right).1 := by
  have file : tornFile "f" = .file [0x61, 0x62, 0xC3] := rfl
  have plain : '\x00' ∉ "f".toList := by decide
  obtain ⟨left, right, opened, openedToo, text, other, _, tokens, _⟩ :=
    widthsTold (v := .count 1 (by decide)) (w := .count 2 (by decide)) file plain narrowNamed
      (by decide) (by decide) .standard
  exact ⟨file, plain, narrowNamed, left, right, opened, openedToo, text.trans (by cbv), other.trans (by cbv),
    tokens.mpr (by cbv)⟩

theorem tornFileDiffers : ∃ left right,
    Lexer.ofFile tornFile "f" { Config.narrow with width := .count 1 (by decide) } = .ok left ∧
    Lexer.ofFile tornFile "f" { Config.narrow with width := .count 3 (by decide) } = .ok right ∧
    (Lexer.run left).1 =
      .ok [⟨.identifier, "ab", ⟨1, 1⟩, "f"⟩, ⟨.endOfInput, "EOF", ⟨1, 3⟩, "f"⟩] ∧
    (Lexer.run right).1 = .ok [⟨.endOfInput, "EOF", ⟨1, 1⟩, "f"⟩] ∧
    Lexer.textAhead left = .ok ['a', 'b'] ∧ Lexer.textAhead right = .ok [] := by
  have file : tornFile "f" = .file [0x61, 0x62, 0xC3] := rfl
  have plain : '\x00' ∉ "f".toList := by decide
  obtain ⟨left, opened, tokens, text⟩ :=
    fileScanned (c := { Config.narrow with width := .count 1 (by decide) }) file plain narrowNamed
      (by decide) .standard
  obtain ⟨right, openedToo, others, other⟩ :=
    fileScanned (c := { Config.narrow with width := .count 3 (by decide) }) file plain narrowNamed
      (by decide) .standard
  refine ⟨left, right, opened, openedToo, tokens.trans ?_, others.trans ?_, text.trans ?_, other.trans ?_⟩
  all_goals cbv

end WindowLex

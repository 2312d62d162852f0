import WindowLex.Text.Quoted

/-! Text as it comes from outside. It may hold surrogates, which stand for no character: bytes of a variable or
of a file name that could not be decoded come as such. -/
namespace WindowLex

inductive CodePoint where
  | char (c : Char)
  | surrogate (index : Fin 0x800)
  deriving DecidableEq, Repr

namespace CodePoint

def char? : CodePoint → Option Char
  | char c => some c
  | surrogate _ => none

def isSurrogate (p : CodePoint) : Bool := p.char?.isNone

/-- A surrogate that does not stand for a byte. -/
def isLone : CodePoint → Bool
  | char _ => false
  | surrogate index => index < 0x480 || 0x500 ≤ index

def escape (mark : Char) : CodePoint → List Char
  | char c => Text.escape mark c
  | surrogate index => '\\' :: 'u' :: Text.hexDigits 4 (0xD800 + index)

end CodePoint

structure CodePoints where
  points : List CodePoint
  deriving DecidableEq, Repr

namespace CodePoints

def ofString (text : String) : CodePoints := ⟨text.toList.map .char⟩

instance : Coe String CodePoints := ⟨ofString⟩

theorem ofStringOnly {text other : String} : ofString text = other ↔ text = other := by
  refine ⟨fun same => ?_, fun same => same ▸ rfl⟩
  have chars := congrArg (·.points.filterMap CodePoint.char?) same
  simpa [ofString, List.filterMap_map, Function.comp_def, CodePoint.char?, String.toList_inj] using chars

def text? (p : CodePoints) : Option String :=
  if p.points.any CodePoint.isSurrogate then none
  else some (String.ofList (p.points.filterMap CodePoint.char?))

theorem textOnly {p : CodePoints} {text : String} : p.text? = some text ↔ p = text := by
  obtain ⟨points⟩ := p
  constructor
  · intro read
    rw [text?] at read
    split at read
    · cases read
    · next plain =>
      cases read
      rw [ofString, String.toList_ofList]
      congr 1
      induction points with
      | nil => rfl
      | cons point rest ih =>
        simp only [List.any_cons, Bool.or_eq_true, not_or] at plain
        cases point with
        | char c => simpa [CodePoint.char?] using ih plain.2
        | surrogate index => exact absurd rfl plain.1
  · intro same
    cases same
    simp [text?, CodePoint.isSurrogate, CodePoint.char?, Function.comp_def]

theorem textSame (text : String) : (ofString text).text? = some text := textOnly.mpr rfl

theorem textNone {p : CodePoints} : p.text? = none ↔ p.points.any CodePoint.isSurrogate = true := by
  rw [text?]
  split <;> simp_all

def quoted (p : CodePoints) : String :=
  let mark := Text.delimiter (p.points.filterMap CodePoint.char?)
  String.ofList (mark :: p.points.flatMap (CodePoint.escape mark) ++ [mark])

theorem quotedText (text : String) : (ofString text).quoted = Text.quoted text := by
  simp [quoted, ofString, Text.quoted, Text.quotedChars, CodePoint.char?, List.flatMap_map, CodePoint.escape,
    List.filterMap_map, Function.comp_def]

/-- Why the code points cannot be written as bytes: the first one that none stands for, with all surrogates
directly behind it. -/
def unwritable (p : CodePoints) (refused : CodePoint → Bool) : String :=
  let first := (p.points.takeWhile fun point => !refused point).length
  let stretch := (p.points.drop first).takeWhile CodePoint.isSurrogate
  let place := match stretch with
    | [point] => "character '" ++ String.ofList (point.escape '\'') ++ "' in position " ++ toString first
    | _ => "characters in position " ++ toString first ++ "-" ++ toString (first + stretch.length - 1)
  "'utf-8' codec can't encode " ++ place ++ ": surrogates not allowed"

end CodePoints

end WindowLex

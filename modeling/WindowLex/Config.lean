import WindowLex.Config.Ascending
import WindowLex.Config.Width
import WindowLex.Diagnostic
import WindowLex.Encoding
import WindowLex.Text.CodePoints

/-! The tables that drive classification, the width of the windows and the encoding of files. A
configuration can only be built with values the scanner can work with. -/
namespace WindowLex

structure Config where
  keywords : List String
  operators : List Char
  /-- Operators that take an equals sign directly after them into the same token. -/
  prefixes : List Char
  width : Width
  encoding : String
  keywordsNonempty : "" ∉ keywords
  prefixesAreOperators : ∀ c ∈ prefixes, c ∈ operators
  encodingKnown : Encoding.isKnown encoding = true
  deriving DecidableEq, Repr

def Config.standard : Config where
  keywords := ["bool", "class", "else", "for", "if", "int", "return", "string", "void", "while"]
  operators := ['!', '%', '&', '*', '+', '-', '/', '<', '=', '>', '|']
  prefixes := ['!', '<', '=', '>']
  width := .standard
  encoding := "utf-8"
  keywordsNonempty := by decide
  prefixesAreOperators := by simp
  encodingKnown := by decide +kernel

inductive KeywordSetting where
  | words (list : List String)
  | bare (text : String)
  deriving DecidableEq, Repr

structure Settings where
  keywords : KeywordSetting := .words Config.standard.keywords
  operators : List String := Config.standard.operators.map String.singleton
  prefixes : List String := Config.standard.prefixes.map String.singleton
  width : Offered := Config.standard.width.offered
  encoding : CodePoints := Config.standard.encoding
  deriving Repr

namespace Config

inductive Issue where
  | bareKeywords (text : String)
  | badWidth (shown : String)
  | unshownWidth
  | operatorNotSingle (entry : String)
  | prefixNotSingle (entry : String)
  | prefixNotOperator (entry : String)
  | emptyKeyword
  | unknownEncoding (name : String)
  | surrogateInEncoding (name : CodePoints)
  | nullInEncoding
  deriving Repr

def Issue.message : Issue → String
  | bareKeywords text =>
    "keyword_set must be a collection of words, got the string " ++ Text.quoted text
  | badWidth shown => "buffer_width must be a positive integer, got " ++ shown
  | unshownWidth => "Exceeds the limit (" ++ toString Text.digitLimit
    ++ " digits) for integer string conversion; use sys.set_int_max_str_digits() to increase the limit"
  | operatorNotSingle entry => "operator character " ++ Text.quoted entry ++ " is not a single character"
  | prefixNotSingle entry => "operator prefix " ++ Text.quoted entry ++ " is not a single character"
  | prefixNotOperator entry =>
    "operator prefix " ++ Text.quoted entry ++ " is not in the operator character set"
  | emptyKeyword => "keyword_set contains an empty keyword"
  | unknownEncoding name => "unknown encoding " ++ Text.quoted name
  | surrogateInEncoding name => name.unwritable CodePoint.isSurrogate
  | nullInEncoding => "embedded null character"

def checkWords : KeywordSetting → Except Issue (List String)
  | .words list => .ok list
  | .bare text => .error (.bareKeywords text)

def checkWidth (value : Offered) : Except Issue Width :=
  match Width.ofOffered? value with
  | some width => .ok width
  | none =>
    match value.shown? with
    | some shown => .error (.badWidth shown)
    | none => .error .unshownWidth

def checkOperators : List String → Except Issue (List Char)
  | [] => .ok []
  | entry :: rest =>
    match entry.toList with
    | [c] => do return c :: (← checkOperators rest)
    | _ => .error (.operatorNotSingle entry)

def checkPrefixes (operators : List Char) :
    List String → Except Issue {prefixes : List Char // ∀ c ∈ prefixes, c ∈ operators}
  | [] => .ok ⟨[], by simp⟩
  | entry :: rest =>
    match entry.toList with
    | [c] =>
      if member : c ∈ operators then do
        let tail ← checkPrefixes operators rest
        return ⟨c :: tail.val, by simpa using ⟨member, tail.property⟩⟩
      else .error (.prefixNotOperator entry)
    | _ => .error (.prefixNotSingle entry)

def checkName (name : CodePoints) : Except Issue {name : String // Encoding.isKnown name = true} :=
  match name.text? with
  | none => .error (.surrogateInEncoding name)
  | some name =>
    if known : Encoding.isKnown name = true then .ok ⟨name, known⟩
    else if name.toList.contains '\x00' then .error .nullInEncoding
    else .error (.unknownEncoding name)

/-- The first violated rule is reported: bare keywords, the width, operators, prefixes, empty keywords,
the encoding. -/
def check (s : Settings) : Except Issue Config := do
  let words ← checkWords s.keywords
  let width ← checkWidth s.width
  let operators ← checkOperators s.operators
  let prefixes ← checkPrefixes operators s.prefixes
  if nonempty : "" ∉ words then do
    let ⟨encoding, encodingKnown⟩ ← checkName s.encoding
    return {
      keywords := Ascending.ofList words
      operators := Ascending.ofList operators
      prefixes := Ascending.ofList prefixes.val
      width
      encoding
      keywordsNonempty := mt Ascending.memOfList.mp nonempty
      prefixesAreOperators := fun c member =>
        Ascending.memOfList.mpr (prefixes.property c (Ascending.memOfList.mp member))
      encodingKnown }
  else .error .emptyKeyword

def withKeywords (c : Config) (keywords : KeywordSetting) : Except Issue Config := do
  let words ← checkWords keywords
  if nonempty : "" ∉ words then
    return { c with
      keywords := Ascending.ofList words
      keywordsNonempty := mt Ascending.memOfList.mp nonempty }
  else .error .emptyKeyword

def withWidth (c : Config) (value : Offered) : Except Issue Config := do
  let width ← checkWidth value
  return { c with width }

def agrees (c d : Config) : Bool :=
  c.keywords = d.keywords && c.operators = d.operators && c.prefixes = d.prefixes
    && c.width.size = d.width.size && c.encoding = d.encoding

end Config

end WindowLex

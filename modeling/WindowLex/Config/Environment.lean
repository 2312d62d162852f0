import WindowLex.Config
import WindowLex.Journal
import WindowLex.Text.Numeral

/-! The configuration of an environment. Each variable sets one field; a value that cannot be used is
reported and ignored, and an empty one counts as unset. Only a name of an encoding that cannot even be looked up
ends the reading. -/
namespace WindowLex

/-- Bytes of a variable that are no text come as surrogates. Keywords stand beside scanned text, which has none. -/
structure Environment where
  width : Option CodePoints := none
  keywords : Option String := none
  encoding : Option CodePoints := none
  deriving DecidableEq, Repr

namespace Environment

def given? (value : Option CodePoints) : Option CodePoints := value.filter (· ≠ "")

def widthOf? (value : CodePoints) : Option Width := do
  Width.ofOffered? (.integer (← Text.integer? (← value.text?)))

def words (text : String) : List String :=
  ((Text.fields ',' text.toList).map fun field => String.ofList (Text.trim field)).filter (· ≠ "")

def withWidth (value : Option CodePoints) (c : Config) : Config × List Event :=
  match given? value with
  | none => (c, [])
  | some value =>
    match widthOf? value with
    | some width => ({ c with width }, [])
    | none => (c, [.ignoredWidth value])

theorem emptyNotInWords (text : String) : "" ∉ words text := by simp [words]

def withKeywords (value : Option String) (c : Config) : Config :=
  match value.filter (· ≠ "") with
  | none => c
  | some text => { c with
      keywords := Ascending.ofList (words text)
      keywordsNonempty := mt Ascending.memOfList.mp (emptyNotInWords text) }

def withEncoding (value : Option CodePoints) (c : Config) : Config × List Event :=
  match (given? value).map Config.checkName with
  | none => (c, [])
  | some (.ok ⟨encoding, encodingKnown⟩) => ({ c with encoding, encodingKnown }, [])
  | some (.error (.unknownEncoding name)) => (c, [.ignoredEncoding name])
  | some (.error _) => (c, [])

def config (e : Environment) : Config × List Event :=
  let (c, first) := withWidth e.width .standard
  let (c, second) := withEncoding e.encoding (withKeywords e.keywords c)
  (c, first ++ second)

def failure? (e : Environment) : Option Config.Issue :=
  match (given? e.encoding).map Config.checkName with
  | none | some (.ok _) | some (.error (.unknownEncoding _)) => none
  | some (.error issue) => some issue

def load (e : Environment) : Except Config.Issue Config × List Event :=
  match e.failure? with
  | none => (.ok e.config.1, e.config.2)
  | some issue => (.error issue, e.config.2)

end Environment

end WindowLex

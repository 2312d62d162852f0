import WindowLex.CommandLine.Outcome
import WindowLex.Config.Environment
import WindowLex.Proofs.Demands
import WindowLex.Proofs.Numerals

/-! What the variables of an environment ask for. Whatever width and keywords they hold, the settings that they ask for
are accepted, and what cannot be used is told of. A name of an encoding that cannot even be looked up makes the
reading fail. -/
namespace WindowLex.Environment
open Text

def Unset (value : Option CodePoints) : Prop := ∀ given ∈ value, given = ""

inductive AsksWidth : Option CodePoints → Nat → List Event → Prop where
  | unset {value : Option CodePoints} (unset : Unset value) : AsksWidth value 4096 []
  | taken {text : String} {n : Nat} (numeral : Numeral text.toList n) (positive : 0 < n) : AsksWidth (some text) n []
  | ignored {given : CodePoints} (set : given ≠ "")
      (useless : ∀ (text : String) (n : Int), given = text → Numeral text.toList n → n ≤ 0) :
      AsksWidth (some given) 4096 [.ignoredWidth given]

inductive AsksKeywords : Option String → List String → Prop where
  | unset {value : Option String} (unset : ∀ text ∈ value, text = "") : AsksKeywords value Config.standard.keywords
  | listed {text : String} {parts : List (List Char)} {words : List String} (given : text ≠ "")
      (split : Splits ',' text.toList parts)
      (trimmed : ∀ word, word ∈ words ↔ word ≠ "" ∧ ∃ part ∈ parts, Trims isBlank part word.toList) :
      AsksKeywords (some text) words

inductive AsksEncoding : Option CodePoints → String → List Event → Prop where
  | unset {value : Option CodePoints} (unset : Unset value) : AsksEncoding value "utf-8" []
  | taken {name : String} (given : name ≠ "") (known : Encoding.isKnown name = true) :
      AsksEncoding (some name) name []
  | ignored {name : String} (given : name ≠ "") (unknown : Encoding.isKnown name = false)
      (clean : '\x00' ∉ name.toList) : AsksEncoding (some name) "utf-8" [.ignoredEncoding name]

inductive Asks (e : Environment) : Settings → List Event → Prop where
  | settings {n : Nat} {words : List String} {name : String} {first second : List Event}
      (width : AsksWidth e.width n first) (keywords : AsksKeywords e.keywords words)
      (encoding : AsksEncoding e.encoding name second) :
      Asks e { keywords := .words words, width := .integer n, encoding := name } (first ++ second)

inductive Unreadable : Option CodePoints → String → Prop where
  | surrogate {given : CodePoints} (surrogate : given.points.any CodePoint.isSurrogate = true) :
      Unreadable (some given) (given.unwritable CodePoint.isSurrogate)
  | null {name : String} (null : '\x00' ∈ name.toList) : Unreadable (some name) "embedded null character"

variable {value : Option CodePoints} {given : CodePoints} {text name word : String} {n : Nat} {words : List String}
  {events : List Event}

theorem givenOnly : given? value = none ↔ Unset value := by
  simp [given?, Unset]

theorem unsetOrGiven (value : Option CodePoints) : Unset value ∨ ∃ given, value = some given ∧ given ≠ "" := by
  cases value with
  | none => exact .inl nofun
  | some given =>
    by_cases empty : given = ""
    · exact .inl fun other same => Option.some.inj same ▸ empty
    · exact .inr ⟨given, rfl, empty⟩

theorem givenKept (set : given ≠ "") : given? (some given) = some given := by
  simp [given?, set]

theorem textGiven (set : text ≠ "") : (text : CodePoints) ≠ "" := mt CodePoints.ofStringOnly.mp set

theorem numeralGiven {m : Int} (numeral : Numeral text.toList m) : text ≠ "" := by
  rintro rfl
  exact absurd ((integerRead.mpr numeral).symm.trans (show integer? "" = none by decide)) nofun

theorem widthTaken (numeral : Numeral text.toList n) (positive : 0 < n) :
    widthOf? text = some (.count n positive) := by
  simp [widthOf?, CodePoints.textSame, integerRead.mpr numeral, Width.ofOffered?, positive]

theorem widthUseless :
    widthOf? given = none ↔ ∀ (text : String) (n : Int), given = text → Numeral text.toList n → n ≤ 0 := by
  constructor
  · rintro refused text n rfl numeral
    by_contra positive
    simp [widthOf?, CodePoints.textSame, integerRead.mpr numeral, Width.ofOffered?, not_le.mp positive] at refused
  · intro low
    cases read : given.text? with
    | none => simp [widthOf?, read]
    | some text =>
      cases value : integer? text with
      | none => simp [widthOf?, read, value]
      | some n =>
        have low := low text n (CodePoints.textOnly.mp read) (integerRead.mp value)
        simp [widthOf?, read, value, Width.ofOffered?, not_lt.mpr low]

theorem widthAsked (value : Option CodePoints) : ∃ n events, AsksWidth value n events := by
  obtain unset | ⟨given, rfl, set⟩ := unsetOrGiven value
  · exact ⟨_, _, .unset unset⟩
  · by_cases useless : ∀ (text : String) (n : Int), given = text → Numeral text.toList n → n ≤ 0
    · exact ⟨_, _, .ignored set useless⟩
    · push Not at useless
      obtain ⟨text, n, rfl, numeral, positive⟩ := useless
      obtain ⟨m, rfl⟩ := Int.eq_ofNat_of_zero_le positive.le
      exact ⟨m, _, .taken numeral (by omega)⟩

theorem widthAnswered (asks : AsksWidth value n events) :
    (∃ positive, (withWidth value .standard).1.width = .count n positive) ∧
    (withWidth value .standard).2 = events := by
  cases asks with
  | unset unset =>
    rw [withWidth, givenOnly.mpr unset]
    exact ⟨⟨by decide, rfl⟩, rfl⟩
  | taken numeral positive =>
    simp [withWidth, givenKept (textGiven (numeralGiven numeral)), widthTaken numeral positive, positive]
  | @ignored given set useless =>
    have same : withWidth (some given) .standard = (.standard, [.ignoredWidth given]) := by
      simp only [withWidth, givenKept set, widthUseless.mpr useless]
    exact ⟨⟨by decide, congrArg (·.1.width) same⟩, congrArg Prod.snd same⟩

theorem wordTrimmed {parts : List (List Char)} (split : Splits ',' text.toList parts) :
    word ∈ Environment.words text ↔ word ≠ "" ∧ ∃ part ∈ parts, Trims isBlank part word.toList := by
  simp only [Environment.words, splitsOnly.mp split, List.mem_filter, List.mem_map, trimsOnly, decide_eq_true_iff]
  rw [and_comm]
  refine and_congr_right fun _ => ⟨?_, ?_⟩
  · rintro ⟨part, listed, rfl⟩
    exact ⟨part, listed, by rw [String.toList_ofList, trim]⟩
  · rintro ⟨part, listed, same⟩
    exact ⟨part, listed, by rw [trim, same, String.ofList_toList]⟩

theorem keywordsAsked (value : Option String) : ∃ words, AsksKeywords value words := by
  by_cases unset : ∀ text ∈ value, text = ""
  · exact ⟨_, .unset unset⟩
  · push Not at unset
    obtain ⟨text, rfl, given⟩ := unset
    exact ⟨_, .listed given (fieldsSplit ',' _) fun word => wordTrimmed (fieldsSplit ',' _)⟩

theorem keywordsAnswered {value : Option String} (asks : AsksKeywords value words) :
    (∀ word, word ∈ (withKeywords value .standard).keywords ↔ word ∈ words) ∧
    (withKeywords value .standard).keywords.Pairwise (· < ·) := by
  cases asks with
  | unset unset =>
    have none : value.filter (· ≠ "") = none := by simpa using unset
    rw [withKeywords, none]
    exact ⟨fun word => Iff.rfl, by decide⟩
  | @listed text _ _ given split trimmed =>
    have kept : (some text).filter (· ≠ "") = some text := by simp [given]
    simp only [withKeywords, kept]
    exact ⟨fun word => Ascending.memOfList.trans ((wordTrimmed split).trans (trimmed word).symm),
      Ascending.ofListAscends _⟩

theorem encodingAsked (value : Option CodePoints) :
    (∃ name events, AsksEncoding value name events) ∨ ∃ message, Unreadable value message := by
  obtain unset | ⟨given, rfl, set⟩ := unsetOrGiven value
  · exact .inl ⟨_, _, .unset unset⟩
  · rcases Config.nameCases given with ⟨name, rfl, known⟩ | ⟨name, rfl, unknown, clean⟩ | ⟨name, rfl, null⟩ | surrogate
    · exact .inl ⟨_, _, .taken (mt (congrArg _) set) known⟩
    · exact .inl ⟨_, _, .ignored (mt (congrArg _) set) unknown clean⟩
    · exact .inr ⟨_, .null null⟩
    · exact .inr ⟨_, .surrogate surrogate⟩

theorem encodingAnswered {e : Environment} (asks : AsksEncoding e.encoding name events) :
    (withEncoding e.encoding .standard).1.encoding = name ∧ (withEncoding e.encoding .standard).2 = events ∧
    e.failure? = none := by
  obtain ⟨width, keywords, encoding⟩ := e
  cases asks with
  | unset unset =>
    rw [withEncoding, failure?, givenOnly.mpr unset]
    exact ⟨rfl, rfl, rfl⟩
  | taken given known =>
    rw [withEncoding, failure?, givenKept (textGiven given), Option.map_some, Config.nameTaken known]
    exact ⟨rfl, rfl, rfl⟩
  | ignored given unknown clean =>
    rw [withEncoding, failure?, givenKept (textGiven given), Option.map_some, Config.nameUnknown unknown clean]
    exact ⟨rfl, rfl, rfl⟩

theorem unreadableFails {e : Environment} {message : String} (unreadable : Unreadable e.encoding message) :
    ∃ issue, e.failure? = some issue ∧
      CommandLine.Failure.ofConfigIssue issue = .fault ⟨.badValue, message⟩ ∧
      (withEncoding e.encoding .standard).2 = [] := by
  obtain ⟨width, keywords, encoding⟩ := e
  cases unreadable with
  | @surrogate given surrogate =>
    have set : given ≠ "" := by
      rintro rfl
      cases surrogate
    refine ⟨.surrogateInEncoding given, ?_, rfl, ?_⟩ <;>
      simp [failure?, withEncoding, givenKept set, Config.nameSurrogate surrogate]
  | @null name null =>
    have set : name ≠ "" := by
      rintro rfl
      cases null
    refine ⟨.nullInEncoding, ?_, rfl, ?_⟩ <;>
      simp [failure?, withEncoding, givenKept (textGiven set), Config.nameNull null]

structure Assembled (e : Environment) (c : Config) (events : List Event) : Prop where
  width : c.width = (withWidth e.width .standard).1.width
  keywords : c.keywords = (withKeywords e.keywords .standard).keywords
  encoding : c.encoding = (withEncoding e.encoding .standard).1.encoding
  operators : c.operators = Config.standard.operators
  prefixes : c.prefixes = Config.standard.prefixes
  events : events = (withWidth e.width .standard).2 ++ (withEncoding e.encoding .standard).2

theorem widthFrame (value : Option CodePoints) (c : Config) :
    (withWidth value c).1.keywords = c.keywords ∧ (withWidth value c).1.operators = c.operators ∧
    (withWidth value c).1.prefixes = c.prefixes ∧ (withWidth value c).1.encoding = c.encoding := by
  unfold withWidth
  split
  · exact ⟨rfl, rfl, rfl, rfl⟩
  · split <;> exact ⟨rfl, rfl, rfl, rfl⟩

theorem keywordsFrame (value : Option String) {c d : Config} (same : c.keywords = d.keywords) :
    (withKeywords value c).keywords = (withKeywords value d).keywords ∧
    (withKeywords value c).operators = c.operators ∧ (withKeywords value c).prefixes = c.prefixes ∧
    (withKeywords value c).width = c.width ∧ (withKeywords value c).encoding = c.encoding := by
  unfold withKeywords
  split
  · exact ⟨same, rfl, rfl, rfl, rfl⟩
  · exact ⟨rfl, rfl, rfl, rfl, rfl⟩

theorem encodingFrame (value : Option CodePoints) {c d : Config} (same : c.encoding = d.encoding) :
    (withEncoding value c).1.encoding = (withEncoding value d).1.encoding ∧
    (withEncoding value c).2 = (withEncoding value d).2 ∧
    (withEncoding value c).1.keywords = c.keywords ∧ (withEncoding value c).1.operators = c.operators ∧
    (withEncoding value c).1.prefixes = c.prefixes ∧ (withEncoding value c).1.width = c.width := by
  unfold withEncoding
  split
  · exact ⟨same, rfl, rfl, rfl, rfl, rfl⟩
  · exact ⟨rfl, rfl, rfl, rfl, rfl, rfl⟩
  · exact ⟨same, rfl, rfl, rfl, rfl, rfl⟩
  · exact ⟨same, rfl, rfl, rfl, rfl, rfl⟩

theorem configAssembled (e : Environment) : e.Assembled e.config.1 e.config.2 := by
  obtain ⟨keywords, operators, prefixes, encoding⟩ := widthFrame e.width .standard
  obtain ⟨words, operators', prefixes', width, encoding'⟩ := keywordsFrame e.keywords keywords
  obtain ⟨name, told, words', operators'', prefixes'', width'⟩ :=
    encodingFrame e.encoding (encoding'.trans encoding)
  exact {
    width := width'.trans width
    keywords := words'.trans words
    encoding := name
    operators := operators''.trans (operators'.trans operators)
    prefixes := prefixes''.trans (prefixes'.trans prefixes)
    events := congrArg ((withWidth e.width .standard).2 ++ ·) told }

theorem configDescribes {e : Environment} {s : Settings} (asks : e.Asks s events) :
    e.load = (.ok e.config.1, events) ∧ e.config.1.Describes s ∧ ∀ demand, ¬ s.Breaks demand := by
  obtain ⟨width, keywords, encoding⟩ := asks
  have made := e.configAssembled
  obtain ⟨⟨positive, wide⟩, first⟩ := widthAnswered width
  obtain ⟨words, ascending⟩ := keywordsAnswered keywords
  obtain ⟨named, second, loads⟩ := encodingAnswered encoding
  rw [← made.width] at wide
  rw [← made.keywords] at words ascending
  rw [← made.encoding] at named
  refine ⟨by rw [load, loads, made.events, first, second], ?described, ?kept⟩
  case described => exact {
    keywords := words
    operators := fun x => by simp [made.operators]
    prefixes := fun x => by simp [made.prefixes]
    width := by simp [wide, Width.ofOffered?, positive]
    encoding := congrArg CodePoints.ofString named.symm
    keywordsAscend := ascending
    operatorsAscend := by rw [made.operators]; decide
    prefixesAscend := by rw [made.prefixes]; decide }
  case kept =>
    intro demand
    cases demand with
    | collection => simp [Settings.Breaks]
    | width => exact not_not_intro (.integer (by omega))
    | operators => simp [Settings.Breaks]
    | prefixes => simpa [Settings.Breaks] using Config.standard.prefixesAreOperators
    | words => exact mt (words "").mpr e.config.1.keywordsNonempty
    | encoding =>
      intro broken
      have unknown := broken e.config.1.encoding (congrArg CodePoints.ofString named.symm)
      exact absurd (unknown.symm.trans e.config.1.encodingKnown) Bool.false_ne_true

theorem environmentAsks (e : Environment) : (∃ s events, e.Asks s events) ∨ ∃ message, Unreadable e.encoding message := by
  obtain ⟨n, first, width⟩ := widthAsked e.width
  obtain ⟨words, keywords⟩ := keywordsAsked e.keywords
  refine (encodingAsked e.encoding).imp_left ?_
  rintro ⟨name, second, encoding⟩
  exact ⟨_, _, .settings width keywords encoding⟩

theorem unreadableLoaded {e : Environment} {message : String} (unreadable : Unreadable e.encoding message)
    {first : List Event} (width : AsksWidth e.width n first) :
    ∃ issue, e.load = (.error issue, first) ∧
      CommandLine.Failure.ofConfigIssue issue = .fault ⟨.badValue, message⟩ := by
  obtain ⟨issue, fails, raised, quiet⟩ := unreadableFails unreadable
  obtain ⟨_, told⟩ := widthAnswered width
  refine ⟨issue, ?_, raised⟩
  rw [load, fails, e.configAssembled.events, told, quiet, List.append_nil]

def Warns (event : Event) : Prop := event.level = .warning ∧ event.channel = "streamlex.config"

theorem widthWarns (asks : AsksWidth value n events) : ∀ event ∈ events, Warns event := by
  cases asks with
  | unset unset | taken numeral positive => exact nofun
  | ignored set useless => exact List.forall_mem_singleton.mpr ⟨rfl, rfl⟩

theorem encodingWarns (asks : AsksEncoding value name events) : ∀ event ∈ events, Warns event := by
  cases asks with
  | unset unset | taken given known => exact nofun
  | ignored given unknown clean => exact List.forall_mem_singleton.mpr ⟨rfl, rfl⟩

theorem asksWarn {e : Environment} {s : Settings} (asks : e.Asks s events) : ∀ event ∈ events, Warns event := by
  obtain ⟨width, keywords, encoding⟩ := asks
  exact List.forall_mem_append.mpr ⟨widthWarns width, encodingWarns encoding⟩

theorem loadedConfig {e : Environment} {c : Config} (loaded : e.load.1 = .ok c) : c = e.config.1 := by
  unfold load at loaded
  split at loaded
  · exact (Except.ok.inj loaded).symm
  · cases loaded

end WindowLex.Environment

namespace WindowLex
open Environment

/- Either the name of the encoding cannot be looked up, and the reading fails with what is said then, or the
environment asks for settings and has what they make. A width or an encoding that cannot be used is told of in one
warning each, and nothing else is. What one variable holds shows in one field only. -/
theorem environmentLoaded (e : Environment) :
    ((∃ s warnings, e.Asks s warnings) ↔ ¬ ∃ message, Unreadable e.encoding message) ∧
    (∀ message, Unreadable e.encoding message → ∀ n warnings, AsksWidth e.width n warnings →
      ∃ issue, e.load = (.error issue, warnings) ∧
        CommandLine.Failure.ofConfigIssue issue = .fault ⟨.badValue, message⟩) ∧
    (∀ s warnings, e.Asks s warnings → ∃ c, e.load = (.ok c, warnings) ∧ Config.check s = .ok c ∧
      c.Describes s ∧ (∀ demand, ¬ s.Breaks demand) ∧ ∀ event ∈ warnings, Warns event) ∧
    ∀ (other : Environment) c d, e.load.1 = .ok c → other.load.1 = .ok d →
      (e.width = other.width → c.width = d.width) ∧ (e.keywords = other.keywords → c.keywords = d.keywords) ∧
      (e.encoding = other.encoding → c.encoding = d.encoding) ∧ c.operators = d.operators ∧ c.prefixes = d.prefixes := by
  have settled {s warnings} (asks : e.Asks s warnings) := configDescribes asks
  refine ⟨⟨?readable, e.environmentAsks.resolve_right⟩, ?failed, ?settled, ?apart⟩
  case readable =>
    rintro ⟨s, warnings, asks⟩ ⟨message, unreadable⟩
    obtain ⟨n, first, width⟩ := widthAsked e.width
    obtain ⟨issue, fails, _⟩ := unreadableLoaded unreadable width
    exact absurd (fails.symm.trans (settled asks).1) nofun
  case failed => exact fun message unreadable n warnings => unreadableLoaded unreadable
  case settled =>
    intro s warnings asks
    obtain ⟨loaded, described, kept⟩ := settled asks
    exact ⟨_, loaded, Settings.checkAccepts.mpr ⟨kept, described⟩, described, kept, asksWarn asks⟩
  case apart =>
    intro other c d loaded loadedToo
    obtain rfl := loadedConfig loaded
    obtain rfl := loadedConfig loadedToo
    have made := e.configAssembled
    have made' := other.configAssembled
    refine ⟨fun same => ?_, fun same => ?_, fun same => ?_, ?_, ?_⟩
    · rw [made.width, made'.width, same]
    · rw [made.keywords, made'.keywords, same]
    · rw [made.encoding, made'.encoding, same]
    · rw [made.operators, made'.operators]
    · rw [made.prefixes, made'.prefixes]

theorem byteNameEscapes :
    let e : Environment := { encoding := some ⟨[.surrogate 0x4FF]⟩ }
    Unreadable e.encoding
      "'utf-8' codec can't encode character '\\udcff' in position 0: surrogates not allowed" ∧
    ∃ issue, e.load = (.error issue, []) ∧ CommandLine.Failure.ofConfigIssue issue = .fault ⟨.badValue,
      "'utf-8' codec can't encode character '\\udcff' in position 0: surrogates not allowed"⟩ := by
  intro e
  have surrogate : (CodePoints.mk [.surrogate 0x4FF]).points.any CodePoint.isSurrogate = true := rfl
  have unreadable : Unreadable e.encoding
      "'utf-8' codec can't encode character '\\udcff' in position 0: surrogates not allowed" := .surrogate surrogate
  exact ⟨unreadable, unreadableLoaded unreadable (.unset nofun)⟩

example :
    let e : Environment := { width := some " -1_0", keywords := some " ,", encoding := some "L1" }
    e.failure? = none ∧ e.config.1.width.size = 4096 ∧ e.config.1.keywords = [] ∧ e.config.1.encoding = "L1" ∧
      e.config.2 = [.ignoredWidth " -1_0"] := by decide +kernel

end WindowLex

import WindowLex.CommandLine.Outcome
import WindowLex.Proofs.Demands

/-! Settings that are accepted, and how refused ones are told of. Only which entries are given counts, not in
what order or how often, and a configuration that is built again from its own fields is the same. -/
namespace WindowLex

inductive KeywordSetting.Matches : KeywordSetting → KeywordSetting → Prop
  | words {first second : List String} (same : ∀ word, word ∈ first ↔ word ∈ second) :
      Matches (.words first) (.words second)
  | bare {first second : String} : Matches (.bare first) (.bare second)

theorem matchedEntries {first second : KeywordSetting} (alike : first.Matches second) (word : String) :
    word ∈ first.entries ↔ word ∈ second.entries := by
  cases alike with
  | words same => exact same word
  | bare => exact Iff.rfl

theorem matchedSymmetric {first second : KeywordSetting} (alike : first.Matches second) :
    second.Matches first := by
  cases alike with
  | words same => exact .words fun word => (same word).symm
  | bare => exact .bare

theorem matchedBare {first second : KeywordSetting} (alike : first.Matches second) :
    (∃ text, first = .bare text) ↔ ∃ text, second = .bare text := by
  cases alike with
  | words same => simp
  | bare => simp

namespace Settings
open Config

structure SameEntries (s t : Settings) : Prop where
  keywords : s.keywords.Matches t.keywords
  operators : ∀ entry, entry ∈ s.operators ↔ entry ∈ t.operators
  prefixes : ∀ entry, entry ∈ s.prefixes ↔ entry ∈ t.prefixes
  width : s.width = t.width
  encoding : s.encoding = t.encoding

theorem entriesSymmetric {s t : Settings} (same : s.SameEntries t) : t.SameEntries s where
  keywords := matchedSymmetric same.keywords
  operators entry := (same.operators entry).symm
  prefixes entry := (same.prefixes entry).symm
  width := same.width.symm
  encoding := same.encoding.symm

theorem brokenAlike {s t : Settings} (same : s.SameEntries t) (demand : Demand) :
    s.Breaks demand ↔ t.Breaks demand := by
  cases demand with
  | collection => exact matchedBare same.keywords
  | width => simp only [Breaks, same.width]
  | operators => simp only [Breaks, same.operators]
  | prefixes => simp only [Breaks, same.prefixes, same.operators]
  | words => exact matchedEntries same.keywords ""
  | encoding => simp only [Breaks, same.encoding]

theorem firstAlike {s t : Settings} (same : s.SameEntries t) {demand : Demand}
    (first : s.BreaksFirst demand) : t.BreaksFirst demand where
  broken := (brokenAlike same demand).mp first.broken
  earlier before lower := mt (brokenAlike same before).mpr (first.earlier before lower)

theorem describedAlike {s t : Settings} (same : s.SameEntries t) {c : Config} (described : c.Describes s) :
    c.Describes t where
  keywords word := (described.keywords word).trans (matchedEntries same.keywords word)
  operators x := (described.operators x).trans (same.operators _)
  prefixes x := (described.prefixes x).trans (same.prefixes _)
  width := same.width ▸ described.width
  encoding := same.encoding.symm.trans described.encoding
  keywordsAscend := described.keywordsAscend
  operatorsAscend := described.operatorsAscend
  prefixesAscend := described.prefixesAscend

theorem acceptedAlike {s t : Settings} (same : s.SameEntries t) {c : Config}
    (accepted : Config.check s = .ok c) : Config.check t = .ok c := by
  obtain ⟨keeps, described⟩ := checkAccepts.mp accepted
  exact checkAccepts.mpr ⟨fun demand => mt (brokenAlike same demand).mpr (keeps demand),
    describedAlike same described⟩

inductive Escapes (s : Settings) : Demand → String → Prop
  | width (long : s.width.HoldsLong) : Escapes s .width
      "Exceeds the limit (4300 digits) for integer string conversion; use sys.set_int_max_str_digits() to increase the limit"
  | surrogate (surrogate : s.encoding.points.any CodePoint.isSurrogate = true) :
      Escapes s .encoding (s.encoding.unwritable CodePoint.isSurrogate)
  | null {name : String} (named : s.encoding = name) (null : '\x00' ∈ name.toList) :
      Escapes s .encoding "embedded null character"

theorem escapesNone {s : Settings} {name : String} (named : s.encoding = name) (clean : '\x00' ∉ name.toList)
    (message : String) : ¬ s.Escapes .encoding message := by
  rintro (_ | surrogate | ⟨same, null⟩)
  · exact absurd (CodePoints.textNone.mpr surrogate) (by simp [CodePoints.textOnly.mpr named])
  · exact clean (CodePoints.ofStringOnly.mp (named.symm.trans same) ▸ null)

theorem issueRaised {s : Settings} {issue : Issue} (warranted : s.Warrants issue) :
    (∃ message, s.Escapes issue.demand message ∧
      CommandLine.Failure.ofConfigIssue issue = .fault ⟨.badValue, message⟩) ∨
    (∀ message, ¬ s.Escapes issue.demand message) ∧
      CommandLine.Failure.ofConfigIssue issue = .diagnostic (.config issue.message) := by
  cases warranted with
  | unshownWidth refused long => exact .inl ⟨_, .width long, by decide⟩
  | surrogateInEncoding surrogate => exact .inl ⟨_, .surrogate surrogate, rfl⟩
  | nullInEncoding named null => exact .inl ⟨_, .null named null, rfl⟩
  | badWidth refused written =>
    refine .inr ⟨fun message escapes => ?_, rfl⟩
    cases escapes with
    | width long => exact absurd ((Offered.longUnshown long).symm.trans written) nofun
  | unknownEncoding named unknown clean => exact .inr ⟨escapesNone named clean, rfl⟩
  | bareKeywords | operatorNotSingle | prefixNotSingle | prefixNotOperator | emptyKeyword => exact .inr ⟨nofun, rfl⟩

end Settings

namespace Config

def settings (c : Config) : Settings where
  keywords := .words c.keywords
  operators := c.operators.map String.singleton
  prefixes := c.prefixes.map String.singleton
  width := c.width.offered
  encoding := c.encoding

theorem operatorsRead (operators : List Char) :
    checkOperators (operators.map String.singleton) = .ok operators := by
  induction operators with
  | nil => rfl
  | cons x rest ih => simp [checkOperators, ih, bind, Except.bind, pure, Except.pure]

theorem prefixesRead {operators prefixes : List Char} (within : ∀ x ∈ prefixes, x ∈ operators) :
    checkPrefixes operators (prefixes.map String.singleton) = .ok ⟨prefixes, within⟩ := by
  induction prefixes with
  | nil => rfl
  | cons x rest ih =>
    have tail := ih fun y member => within y (.tail _ member)
    simp [checkPrefixes, tail, within x (.head _), bind, Except.bind, pure, Except.pure]

/- The tables that are kept are ascending already, so that building them again changes nothing. -/
theorem keywordsRebuilt {c : Config} {s : Settings} (described : c.Describes s) (keywords : KeywordSetting) :
    c.withKeywords keywords = Config.check { c.settings with keywords } := by
  cases keywords with
  | bare text => rfl
  | words list =>
    simp [withKeywords, Config.check, settings, checkWords, checkWidth, Width.offeredBack, operatorsRead,
      prefixesRead c.prefixesAreOperators, nameTaken c.encodingKnown, Ascending.ofListSettled described.operatorsAscend,
      Ascending.ofListSettled described.prefixesAscend, bind, Except.bind, pure, Except.pure]

theorem widthRebuilt {c : Config} {s : Settings} (described : c.Describes s) (value : Offered) :
    c.withWidth value = Config.check { c.settings with width := value } := by
  cases offered : Width.ofOffered? value with
  | none =>
    cases shown : value.shown? <;>
      simp only [withWidth, Config.check, settings, checkWords, checkWidth, offered, shown, bind, Except.bind]
  | some width =>
    simp [withWidth, Config.check, settings, checkWords, checkWidth, offered, operatorsRead,
      prefixesRead c.prefixesAreOperators, nameTaken c.encodingKnown, c.keywordsNonempty,
      Ascending.ofListSettled described.keywordsAscend, Ascending.ofListSettled described.operatorsAscend,
      Ascending.ofListSettled described.prefixesAscend, bind, Except.bind, pure, Except.pure]

theorem nameRefused (c : Config) {given : CodePoints} {issue : Issue} (refused : checkName given = .error issue) :
    Config.check { c.settings with encoding := given } = .error issue := by
  simp [Config.check, settings, checkWords, checkWidth, Width.offeredBack, operatorsRead,
    prefixesRead c.prefixesAreOperators, c.keywordsNonempty, refused, bind, Except.bind]

theorem keywordsReplaced {c d : Config} {keywords : KeywordSetting} (made : c.withKeywords keywords = .ok d) :
    d.operators = c.operators ∧ d.prefixes = c.prefixes ∧ d.width = c.width ∧ d.encoding = c.encoding := by
  cases keywords with
  | bare text => cases made
  | words list =>
    simp only [withKeywords, checkWords, bind, Except.bind, pure, Except.pure] at made
    split at made
    · cases made
      exact ⟨rfl, rfl, rfl, rfl⟩
    · cases made

theorem widthReplaced {c d : Config} {value : Offered} (made : c.withWidth value = .ok d) :
    d.keywords = c.keywords ∧ d.operators = c.operators ∧ d.prefixes = c.prefixes ∧
      d.encoding = c.encoding := by
  cases offered : Width.ofOffered? value with
  | none => cases shown : value.shown? <;> simp [withWidth, checkWidth, offered, shown, bind, Except.bind] at made
  | some width =>
    simp only [withWidth, checkWidth, offered, bind, Except.bind, pure, Except.pure] at made
    cases made
    exact ⟨rfl, rfl, rfl, rfl⟩

end Config

open Config in
/- What is made of settings and what is named depends on the sets of entries only, and a replaced field is judged as
it is in settings that have the other fields of the configuration. -/
theorem settingsJudged (s : Settings) :
    ((∃ c, Config.check s = .ok c) ↔ ∀ demand, ¬ s.Breaks demand) ∧
    (∀ demand, s.BreaksFirst demand → ∃ issue, Config.check s = .error issue ∧ s.Warrants issue ∧
      issue.demand = demand ∧
      ((∃ message, s.Escapes demand message ∧
          CommandLine.Failure.ofConfigIssue issue = .fault ⟨.badValue, message⟩) ∨
        (∀ message, ¬ s.Escapes demand message) ∧
          CommandLine.Failure.ofConfigIssue issue = .diagnostic (.config issue.message))) ∧
    (∀ t, s.SameEntries t → (∀ c, Config.check s = .ok c ↔ Config.check t = .ok c) ∧
      ∀ demand, s.BreaksFirst demand ↔ t.BreaksFirst demand) ∧
    ∀ c, Config.check s = .ok c → c.Describes s ∧ Config.check c.settings = .ok c ∧
      (∀ keywords, c.withKeywords keywords = Config.check { c.settings with keywords } ∧
        ∀ d, c.withKeywords keywords = .ok d → d.operators = c.operators ∧ d.prefixes = c.prefixes ∧
          d.width = c.width ∧ d.encoding = c.encoding) ∧
      ∀ value, c.withWidth value = Config.check { c.settings with width := value } ∧
        ∀ d, c.withWidth value = .ok d → d.keywords = c.keywords ∧ d.operators = c.operators ∧
          d.prefixes = c.prefixes ∧ d.encoding = c.encoding := by
  refine ⟨⟨?accepted, s.keptAccepted⟩, ?refused, ?sets, ?replaced⟩
  case accepted =>
    rintro ⟨c, made⟩
    exact (Settings.checkAccepts.mp made).1
  case refused =>
    intro demand first
    obtain ⟨issue, refused, warranted, rfl⟩ := Settings.brokenRefused first
    exact ⟨issue, refused, warranted, rfl, Settings.issueRaised warranted⟩
  case sets =>
    intro t same
    have back := Settings.entriesSymmetric same
    exact ⟨fun c => ⟨Settings.acceptedAlike same, Settings.acceptedAlike back⟩,
      fun demand => ⟨Settings.firstAlike same, Settings.firstAlike back⟩⟩
  case replaced =>
    intro c made
    have described := (Settings.checkAccepts.mp made).2
    have again := (widthRebuilt described c.width.offered).symm
    exact ⟨described, again.trans (withWidthOffered c c.width),
      fun keywords => ⟨keywordsRebuilt described keywords, fun d => keywordsReplaced⟩,
      fun value => ⟨widthRebuilt described value, fun d => widthReplaced⟩⟩

theorem nullNameEscapes :
    let s : Settings := { encoding := "utf-8\x00" }
    s.BreaksFirst .encoding ∧ s.Escapes .encoding "embedded null character" ∧
    ∃ issue, Config.check s = .error issue ∧
      CommandLine.Failure.ofConfigIssue issue = .fault ⟨.badValue, "embedded null character"⟩ := by
  intro s
  have null : '\x00' ∈ "utf-8\x00".toList := by decide
  have refused : Config.check s = .error .nullInEncoding := Config.nameRefused .standard (Config.nameNull null)
  exact ⟨(Settings.checkRefuses refused).2, .null rfl null, _, refused, rfl⟩

end WindowLex

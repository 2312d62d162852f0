import Mathlib.Data.List.Sort
import Mathlib.Data.String.Basic
import WindowLex.Config

/-! What is asked of settings. The demands are looked at in one order, and the first one that is broken is named;
settings that keep them all make the one configuration that holds their entries. -/
namespace WindowLex

namespace Ascending

variable {α : Type} [LT α] [DecidableLT α] [DecidableEq α] [IsStrictTotalOrder α (· < ·)]

theorem insertAscends {x : α} {items : List α} (ascends : items.Pairwise (· < ·)) :
    (insert x items).Pairwise (· < ·) := by
  induction items with
  | nil => exact List.pairwise_singleton _ x
  | cons y rest ih =>
    obtain ⟨least, tail⟩ := List.pairwise_cons.mp ascends
    unfold insert
    split
    · exact ascends
    · next differs =>
      split
      · next below =>
        refine List.pairwise_cons.mpr ⟨fun z member => ?_, ascends⟩
        rcases List.mem_cons.mp member with rfl | later
        · exact below
        · exact trans_of (· < ·) below (least z later)
      · next above =>
        refine List.pairwise_cons.mpr ⟨fun z member => ?_, ih tail⟩
        rcases memInsert.mp member with rfl | later
        · exact ((trichotomous_of (· < ·) z y).resolve_left above).resolve_left differs
        · exact least z later

theorem ofListAscends (items : List α) : (ofList items).Pairwise (· < ·) := by
  induction items with
  | nil => exact List.Pairwise.nil
  | cons x rest ih => exact insertAscends ih

theorem ofListSettled {items : List α} (ascends : items.Pairwise (· < ·)) : ofList items = items :=
  (ofListAscends items).eq_of_mem_iff ascends fun _ => memOfList

end Ascending

inductive Offered.Counts : Offered → Prop
  | integer {value : Int} (positive : 1 ≤ value) : Counts (.integer value)
  | truth : Counts (.truth true)

inductive Offered.HoldsLong : Offered → Prop
  | integer {value : Int} (long : Nat.pow 10 Text.digitLimit ≤ value.natAbs) : HoldsLong (.integer value)
  | item {items : List Offered} {item : Offered} (listed : item ∈ items) (long : item.HoldsLong) :
      HoldsLong (.list items)
  | field {fields : List (String × Offered)} {name : String} {value : Offered} (listed : (name, value) ∈ fields)
      (long : value.HoldsLong) : HoldsLong (.record fields)

namespace Offered

variable {items : List Offered} {fields : List (String × Offered)}

theorem itemsShown : showItems? items = none ↔ ∃ item ∈ items, item.shown? = none := by
  induction items with
  | nil => simp [showItems?]
  | cons item rest ih =>
    cases shown : item.shown? with
    | none => simp [showItems?, shown]
    | some text => cases more : showItems? rest <;> simpa [showItems?, shown, more] using ih

theorem fieldsShown : showFields? fields = none ↔ ∃ field ∈ fields, field.2.shown? = none := by
  induction fields with
  | nil => simp [showFields?]
  | cons field rest ih =>
    cases shown : field.2.shown? with
    | none => simp [showFields?, shown]
    | some text => cases more : showFields? rest <;> simpa [showFields?, shown, more] using ih

theorem longUnshown {value : Offered} (long : value.HoldsLong) : value.shown? = none := by
  induction long with
  | integer long => rw [shown?, if_neg (Nat.not_lt.mpr long)]
  | item listed long ih => simp [shown?, itemsShown.mpr ⟨_, listed, ih⟩]
  | field listed long ih => simp [shown?, fieldsShown.mpr ⟨_, listed, ih⟩]

theorem unshownLong : (value : Offered) → value.shown? = none → value.HoldsLong
  | nothing | truth true | truth false | decimal _ | text _ => by simp [shown?]
  | integer value => by
    intro unshown
    rw [shown?] at unshown
    split at unshown
    · cases unshown
    · next long => exact .integer (Nat.le_of_not_lt long)
  | list items => by
    intro unshown
    have none : showItems? items = none := by
      cases shown : showItems? items with
      | none => rfl
      | some texts => simp [shown?, shown] at unshown
    obtain ⟨item, listed, within⟩ := itemsShown.mp none
    exact .item listed (unshownLong item within)
  | record fields => by
    intro unshown
    have none : showFields? fields = none := by
      cases shown : showFields? fields with
      | none => rfl
      | some texts => simp [shown?, shown] at unshown
    obtain ⟨⟨name, value⟩, listed, within⟩ := fieldsShown.mp none
    exact .field listed (unshownLong value within)
  decreasing_by
    · have := List.sizeOf_lt_of_mem listed
      simp only [list.sizeOf_spec]
      omega
    · have := List.sizeOf_lt_of_mem listed
      simp only [record.sizeOf_spec, Prod.mk.sizeOf_spec] at this ⊢
      omega

end Offered

theorem widthCounts {value : Offered} :
    (∃ width, Width.ofOffered? value = some width) ↔ value.Counts := by
  constructor
  · rintro ⟨width, given⟩
    unfold Width.ofOffered? at given
    split at given
    · split at given
      · next positive => exact .integer positive
      · cases given
    · exact .truth
    · cases given
  · rintro (⟨positive⟩ | _)
    · exact ⟨_, dif_pos positive⟩
    · exact ⟨.truth, rfl⟩

theorem Width.offeredBack (width : Width) : Width.ofOffered? width.offered = some width := by
  cases width with
  | truth => rfl
  | count size positive => simp [offered, ofOffered?, positive]

theorem Config.withWidthOffered (c : Config) (width : Width) : c.withWidth width.offered = .ok { c with width } := by
  simp [withWidth, checkWidth, Width.offeredBack, bind, Except.bind, pure, Except.pure]

def KeywordSetting.entries : KeywordSetting → List String
  | .words list => list
  | .bare _ => []

namespace Config

inductive Demand where
  | collection | width | operators | prefixes | words | encoding
  deriving DecidableEq, Repr

def Demand.place : Demand → Nat
  | collection => 0
  | width => 1
  | operators => 2
  | prefixes => 3
  | words => 4
  | encoding => 5

theorem placeTells {demand other : Demand} (same : demand.place = other.place) : demand = other := by
  cases demand <;> cases other <;> first | rfl | cases same

def Issue.demand : Issue → Demand
  | bareKeywords _ => .collection
  | badWidth _ | unshownWidth => .width
  | operatorNotSingle _ => .operators
  | prefixNotSingle _ | prefixNotOperator _ => .prefixes
  | emptyKeyword => .words
  | unknownEncoding _ | surrogateInEncoding _ | nullInEncoding => .encoding

structure Describes (c : Config) (s : Settings) : Prop where
  keywords : ∀ word, word ∈ c.keywords ↔ word ∈ s.keywords.entries
  operators : ∀ x, x ∈ c.operators ↔ String.singleton x ∈ s.operators
  prefixes : ∀ x, x ∈ c.prefixes ↔ String.singleton x ∈ s.prefixes
  width : Width.ofOffered? s.width = some c.width
  encoding : s.encoding = c.encoding
  keywordsAscend : c.keywords.Pairwise (· < ·)
  operatorsAscend : c.operators.Pairwise (· < ·)
  prefixesAscend : c.prefixes.Pairwise (· < ·)

theorem describedUnique {c d : Config} {s : Settings} (first : c.Describes s) (second : d.Describes s) :
    c = d := by
  have keywords : c.keywords = d.keywords := first.keywordsAscend.eq_of_mem_iff second.keywordsAscend
    fun word => (first.keywords word).trans (second.keywords word).symm
  have operators : c.operators = d.operators := first.operatorsAscend.eq_of_mem_iff second.operatorsAscend
    fun x => (first.operators x).trans (second.operators x).symm
  have prefixes : c.prefixes = d.prefixes := first.prefixesAscend.eq_of_mem_iff second.prefixesAscend
    fun x => (first.prefixes x).trans (second.prefixes x).symm
  have width : c.width = d.width := Option.some.inj (first.width.symm.trans second.width)
  have encoding : c.encoding = d.encoding := CodePoints.ofStringOnly.mp (first.encoding.symm.trans second.encoding)
  cases c
  cases d
  simp_all

end Config

namespace Settings
open Config

def Breaks (s : Settings) : Demand → Prop
  | .collection => ∃ text, s.keywords = .bare text
  | .width => ¬ s.width.Counts
  | .operators => ∃ entry ∈ s.operators, entry.length ≠ 1
  | .prefixes => ∃ entry ∈ s.prefixes, entry.length ≠ 1 ∨ entry ∉ s.operators
  | .words => "" ∈ s.keywords.entries
  | .encoding => ∀ name : String, s.encoding = name → Encoding.isKnown name = false

structure BreaksFirst (s : Settings) (demand : Demand) : Prop where
  broken : s.Breaks demand
  earlier : ∀ before : Demand, before.place < demand.place → ¬ s.Breaks before

inductive Warrants (s : Settings) : Issue → Prop
  | bareKeywords {text} (bare : s.keywords = .bare text) : Warrants s (.bareKeywords text)
  | badWidth {shown} (refused : ¬ s.width.Counts) (written : s.width.shown? = some shown) :
      Warrants s (.badWidth shown)
  | unshownWidth (refused : ¬ s.width.Counts) (long : s.width.HoldsLong) : Warrants s .unshownWidth
  | operatorNotSingle {entry} (listed : entry ∈ s.operators) (size : entry.length ≠ 1) :
      Warrants s (.operatorNotSingle entry)
  | prefixNotSingle {entry} (listed : entry ∈ s.prefixes) (size : entry.length ≠ 1) :
      Warrants s (.prefixNotSingle entry)
  | prefixNotOperator {entry} (listed : entry ∈ s.prefixes) (foreign : entry ∉ s.operators) :
      Warrants s (.prefixNotOperator entry)
  | emptyKeyword (listed : "" ∈ s.keywords.entries) : Warrants s .emptyKeyword
  | unknownEncoding {name : String} (named : s.encoding = name) (unknown : Encoding.isKnown name = false)
      (clean : '\x00' ∉ name.toList) : Warrants s (.unknownEncoding name)
  | surrogateInEncoding (surrogate : s.encoding.points.any CodePoint.isSurrogate = true) :
      Warrants s (.surrogateInEncoding s.encoding)
  | nullInEncoding {name : String} (named : s.encoding = name) (null : '\x00' ∈ name.toList) :
      Warrants s .nullInEncoding

theorem warrantedBroken {s : Settings} {issue : Issue} (warranted : s.Warrants issue) :
    s.Breaks issue.demand := by
  cases warranted with
  | bareKeywords bare => exact ⟨_, bare⟩
  | badWidth refused | unshownWidth refused => exact refused
  | operatorNotSingle listed size => exact ⟨_, listed, size⟩
  | prefixNotSingle listed size => exact ⟨_, listed, .inl size⟩
  | prefixNotOperator listed foreign => exact ⟨_, listed, .inr foreign⟩
  | emptyKeyword listed => exact listed
  | unknownEncoding named unknown clean =>
    exact fun name same => CodePoints.ofStringOnly.mp (named.symm.trans same) ▸ unknown
  | surrogateInEncoding surrogate =>
    exact fun name same => absurd (CodePoints.textNone.mpr surrogate) (by simp [CodePoints.textOnly.mpr same])
  | nullInEncoding named null =>
    exact fun name same => Encoding.nullUnknown (CodePoints.ofStringOnly.mp (named.symm.trans same) ▸ null)

theorem firstUnique {s : Settings} {demand other : Demand} (first : s.BreaksFirst demand)
    (second : s.BreaksFirst other) : demand = other := by
  refine placeTells ?_
  by_contra differ
  rcases Nat.lt_or_gt_of_ne differ with before | before
  · exact second.earlier demand before first.broken
  · exact first.earlier other before second.broken

inductive Judged (s : Settings) : Except Issue Config → Prop
  | refused {issue} (warranted : s.Warrants issue)
      (earlier : ∀ before : Demand, before.place < issue.demand.place → ¬ s.Breaks before) :
      Judged s (.error issue)
  | accepted {c : Config} (keeps : ∀ demand, ¬ s.Breaks demand) (describes : c.Describes s) :
      Judged s (.ok c)

end Settings

namespace Config

theorem singleEntry {entry : String} : entry.length = 1 ↔ ∃ x, entry = String.singleton x := by
  constructor
  · intro size
    obtain ⟨x, one⟩ := List.length_eq_one_iff.mp (String.length_toList.trans size)
    exact ⟨x, String.toList_inj.mp (by simp [one])⟩
  · rintro ⟨x, rfl⟩
    simp

theorem notSingle {entry : String} (split : ∀ x, entry.toList ≠ [x]) : entry.length ≠ 1 := by
  intro size
  obtain ⟨x, rfl⟩ := singleEntry.mp size
  exact split x (by simp)

theorem checkedOperators (entries : List String) :
    (∃ operators, checkOperators entries = .ok operators ∧ entries = operators.map String.singleton) ∨
    ∃ entry ∈ entries, entry.length ≠ 1 ∧ checkOperators entries = .error (.operatorNotSingle entry) := by
  induction entries with
  | nil => exact .inl ⟨[], rfl, rfl⟩
  | cons entry rest ih =>
    unfold checkOperators
    split
    · next x one =>
      have single : entry = String.singleton x := String.toList_inj.mp (by simp [one])
      rcases ih with ⟨operators, found, rfl⟩ | ⟨other, listed, size, refused⟩
      · exact .inl ⟨x :: operators, by simp [found, bind, Except.bind, pure, Except.pure], by simp [single]⟩
      · exact .inr ⟨other, .tail _ listed, size, by simp [refused, bind, Except.bind]⟩
    · next split => exact .inr ⟨entry, .head _, notSingle split, rfl⟩

theorem checkedPrefixes (operators : List Char) (entries : List String) :
    (∃ prefixes, checkPrefixes operators entries = .ok prefixes ∧
      entries = prefixes.val.map String.singleton) ∨
    (∃ entry ∈ entries, entry.length ≠ 1 ∧
      checkPrefixes operators entries = .error (.prefixNotSingle entry)) ∨
    ∃ entry ∈ entries, entry ∉ operators.map String.singleton ∧
      checkPrefixes operators entries = .error (.prefixNotOperator entry) := by
  induction entries with
  | nil => exact .inl ⟨⟨[], by simp⟩, rfl, rfl⟩
  | cons entry rest ih =>
    unfold checkPrefixes
    split
    · next x one =>
      have single : entry = String.singleton x := String.toList_inj.mp (by simp [one])
      split
      · next member =>
        rcases ih with ⟨prefixes, found, rfl⟩ | ⟨other, listed, size, refused⟩ | ⟨other, listed, foreign, refused⟩
        · exact .inl ⟨⟨x :: prefixes.val, by simpa using ⟨member, prefixes.property⟩⟩,
            by simp [found, bind, Except.bind, pure, Except.pure], by simp [single]⟩
        · exact .inr (.inl ⟨other, .tail _ listed, size, by simp [refused, bind, Except.bind]⟩)
        · exact .inr (.inr ⟨other, .tail _ listed, foreign, by simp [refused, bind, Except.bind]⟩)
      · next foreign =>
        refine .inr (.inr ⟨entry, .head _, ?_, rfl⟩)
        rw [single]
        simpa using foreign
    · next split => exact .inr (.inl ⟨entry, .head _, notSingle split, rfl⟩)

section
variable {name : String} {given : CodePoints}

theorem nameTaken (known : Encoding.isKnown name = true) : checkName name = .ok ⟨name, known⟩ := by
  simp [checkName, CodePoints.textSame, known]

theorem nameUnknown (unknown : Encoding.isKnown name = false) (clean : '\x00' ∉ name.toList) :
    checkName name = .error (.unknownEncoding name) := by
  simp [checkName, CodePoints.textSame, unknown, clean]

theorem nameNull (null : '\x00' ∈ name.toList) : checkName name = .error .nullInEncoding := by
  simp [checkName, CodePoints.textSame, Encoding.nullUnknown null, null]

theorem nameSurrogate (surrogate : given.points.any CodePoint.isSurrogate = true) :
    checkName given = .error (.surrogateInEncoding given) := by
  have none : given.text? = none := CodePoints.textNone.mpr surrogate
  unfold checkName
  split
  · rfl
  · next name some => exact absurd (none.symm.trans some) nofun

theorem nameCases (given : CodePoints) :
    (∃ name : String, given = name ∧ Encoding.isKnown name = true) ∨
    (∃ name : String, given = name ∧ Encoding.isKnown name = false ∧ '\x00' ∉ name.toList) ∨
    (∃ name : String, given = name ∧ '\x00' ∈ name.toList) ∨
    given.points.any CodePoint.isSurrogate = true := by
  cases read : given.text? with
  | none => exact .inr (.inr (.inr (CodePoints.textNone.mp read)))
  | some name =>
    have same := CodePoints.textOnly.mp read
    by_cases null : '\x00' ∈ name.toList
    · exact .inr (.inr (.inl ⟨name, same, null⟩))
    · cases known : Encoding.isKnown name with
      | true => exact .inl ⟨name, same, known⟩
      | false => exact .inr (.inl ⟨name, same, known, null⟩)

end

end Config

namespace Settings
open Config

theorem keptBelow {s : Settings} (demand : Demand)
    (below : ∀ before : Demand, before.place < demand.place → ¬ s.Breaks before)
    (kept : ¬ s.Breaks demand) :
    ∀ before : Demand, before.place < demand.place + 1 → ¬ s.Breaks before := by
  intro before lower
  rcases Nat.lt_succ_iff_lt_or_eq.mp lower with earlier | same
  · exact below before earlier
  · exact placeTells same ▸ kept

theorem settingsDescribed {s : Settings} {width : Width} {operators prefixes : List Char}
    (offered : Width.ofOffered? s.width = some width)
    (listed : s.operators = operators.map String.singleton)
    (joined : s.prefixes = prefixes.map String.singleton) (nonempty : "" ∉ s.keywords.entries)
    (within : ∀ x ∈ prefixes, x ∈ operators) {name : String} (named : s.encoding = name)
    (known : Encoding.isKnown name = true) :
    Describes {
      keywords := Ascending.ofList s.keywords.entries
      operators := Ascending.ofList operators
      prefixes := Ascending.ofList prefixes
      width
      encoding := name
      keywordsNonempty := mt Ascending.memOfList.mp nonempty
      prefixesAreOperators := fun x member =>
        Ascending.memOfList.mpr (within x (Ascending.memOfList.mp member))
      encodingKnown := known } s where
  keywords _ := Ascending.memOfList
  operators _ := by rw [listed]; exact Ascending.memOfList.trans (by simp)
  prefixes _ := by rw [joined]; exact Ascending.memOfList.trans (by simp)
  width := offered
  encoding := named
  keywordsAscend := Ascending.ofListAscends _
  operatorsAscend := Ascending.ofListAscends _
  prefixesAscend := Ascending.ofListAscends _

/- Each stage that is passed keeps one demand more; the demands kept so far stand at every refusal. -/
section
variable {s : Settings} {list : List String} {width : Width} (given : s.keywords = .words list)
  (offered : Width.ofOffered? s.width = some width)
include given offered

theorem namesJudged {operators : List Char} {prefixes : {prefixes : List Char // ∀ x ∈ prefixes, x ∈ operators}}
    (found : checkOperators s.operators = .ok operators) (listed : s.operators = operators.map String.singleton)
    (marked : checkPrefixes operators s.prefixes = .ok prefixes)
    (joined : s.prefixes = prefixes.val.map String.singleton)
    (kept : ∀ before : Demand, before.place < Demand.words.place → ¬ s.Breaks before) :
    s.Judged (Config.check s) := by
  unfold Config.check
  simp only [given, checkWords, checkWidth, offered, found, marked, bind, Except.bind]
  split
  · next nonempty =>
    have entries : "" ∉ s.keywords.entries := by rwa [given]
    have wordsKept := keptBelow .words kept entries
    rcases nameCases s.encoding with ⟨name, named, known⟩ | ⟨name, named, unknown, clean⟩ | ⟨name, named, null⟩ |
      surrogate
    · have described := settingsDescribed offered listed joined entries prefixes.property named known
      simp only [given, KeywordSetting.entries] at described
      simp only [named, nameTaken known]
      refine .accepted (fun demand => ?_) described
      refine keptBelow .encoding wordsKept (fun broken => ?_) demand (by cases demand <;> decide)
      exact absurd ((broken name named).symm.trans known) Bool.false_ne_true
    · simp only [named, nameUnknown unknown clean]
      exact .refused (.unknownEncoding named unknown clean) wordsKept
    · simp only [named, nameNull null]
      exact .refused (.nullInEncoding named null) wordsKept
    · simp only [nameSurrogate surrogate]
      exact .refused (.surrogateInEncoding surrogate) wordsKept
  · next empty => exact .refused (.emptyKeyword (by rw [given]; exact not_not.mp empty)) kept

theorem tablesJudged (kept : ∀ before : Demand, before.place < Demand.operators.place → ¬ s.Breaks before) :
    s.Judged (Config.check s) := by
  rcases checkedOperators s.operators with ⟨operators, found, listed⟩ | ⟨entry, listed, size, refused⟩
  · have operatorsKept := keptBelow .operators kept (by simp [Breaks, listed])
    rcases checkedPrefixes operators s.prefixes with
      ⟨prefixes, marked, joined⟩ | ⟨entry, joined, size, refused⟩ | ⟨entry, joined, foreign, refused⟩
    · exact namesJudged given offered found listed marked joined (keptBelow .prefixes operatorsKept
        (by simpa [Breaks, listed, joined] using prefixes.property))
    · have named : Config.check s = .error (.prefixNotSingle entry) := by
        simp only [Config.check, given, checkWords, checkWidth, offered, found, refused, bind, Except.bind]
      exact named ▸ .refused (.prefixNotSingle joined size) operatorsKept
    · have named : Config.check s = .error (.prefixNotOperator entry) := by
        simp only [Config.check, given, checkWords, checkWidth, offered, found, refused, bind, Except.bind]
      exact named ▸ .refused (.prefixNotOperator joined (listed ▸ foreign)) operatorsKept
  · have named : Config.check s = .error (.operatorNotSingle entry) := by
      simp only [Config.check, given, checkWords, checkWidth, offered, refused, bind, Except.bind]
    exact named ▸ .refused (.operatorNotSingle listed size) kept

end

theorem checkJudged (s : Settings) : s.Judged (Config.check s) := by
  have none : ∀ before : Demand, before.place < Demand.collection.place → ¬ s.Breaks before :=
    fun before lower => absurd lower (Nat.not_lt_zero _)
  cases given : s.keywords with
  | bare text =>
    have named : Config.check s = .error (.bareKeywords text) := by
      simp only [Config.check, given, checkWords, bind, Except.bind]
    exact named ▸ .refused (.bareKeywords given) none
  | words list =>
    have collection := keptBelow .collection none (by simp [Breaks, given])
    cases offered : Width.ofOffered? s.width with
    | none =>
      have refused : ¬ s.width.Counts := fun counts => by
        obtain ⟨width, some⟩ := widthCounts.mpr counts
        exact absurd (offered.symm.trans some) nofun
      have named : Config.check s = checkWidth s.width >>= fun _ => .error .emptyKeyword := by
        cases shown : s.width.shown? <;>
          simp only [Config.check, given, checkWords, checkWidth, offered, shown, bind, Except.bind]
      rw [named, checkWidth, offered]
      cases shown : s.width.shown? with
      | none => exact .refused (.unshownWidth refused (Offered.unshownLong _ shown)) collection
      | some text => exact .refused (.badWidth refused shown) collection
    | some width =>
      exact tablesJudged given offered
        (keptBelow .width collection (not_not_intro (widthCounts.mp ⟨width, offered⟩)))

theorem checkRefuses {s : Settings} {issue : Issue} (refused : Config.check s = .error issue) :
    s.Warrants issue ∧ s.BreaksFirst issue.demand := by
  have judged := checkJudged s
  rw [refused] at judged
  cases judged with
  | refused warranted earlier => exact ⟨warranted, warrantedBroken warranted, earlier⟩

theorem checkAccepts {s : Settings} {c : Config} :
    Config.check s = .ok c ↔ (∀ demand, ¬ s.Breaks demand) ∧ c.Describes s := by
  cases checked : Config.check s with
  | ok d =>
    have judged := checkJudged s
    rw [checked] at judged
    cases judged with
    | accepted keeps describes =>
      constructor
      · rintro ⟨⟩
        exact ⟨keeps, describes⟩
      · rintro ⟨-, described⟩
        rw [describedUnique describes described]
  | error issue =>
    exact ⟨nofun, fun ⟨keeps, _⟩ => absurd (checkRefuses checked).2.broken (keeps issue.demand)⟩

theorem keptAccepted {s : Settings} (keeps : ∀ demand, ¬ s.Breaks demand) : ∃ c, Config.check s = .ok c := by
  cases checked : Config.check s with
  | ok c => exact ⟨c, rfl⟩
  | error issue => exact absurd (checkRefuses checked).2.broken (keeps issue.demand)

theorem brokenRefused {s : Settings} {demand : Demand} (first : s.BreaksFirst demand) :
    ∃ issue, Config.check s = .error issue ∧ s.Warrants issue ∧ issue.demand = demand := by
  cases checked : Config.check s with
  | ok c => exact absurd first.broken ((checkAccepts.mp checked).1 demand)
  | error issue =>
    obtain ⟨warranted, named⟩ := checkRefuses checked
    exact ⟨issue, rfl, warranted, firstUnique named first⟩

end Settings

end WindowLex

import Mathlib.Data.List.DropRight
import WindowLex.Collector

/-! What a collector keeps of the diagnostics it is given. Its limit may change at any time, also to less than is
kept, and it may be cleared at any time. A diagnostic is kept if there is room when it comes; room that is made
later does not bring back what was dropped. -/
namespace WindowLex

namespace Collector

inductive Change where
  | add (d : Diagnostic)
  | clear
  | keep (limit : Int)
  deriving DecidableEq, Repr

namespace Change

def apply (k : Collector) : Change → Collector
  | add d => k.add d
  | clear => k.clear
  | keep limit => { k with limit }

def given? : Change → Option Diagnostic
  | add d => some d
  | clear | keep _ => none

def limit? : Change → Option Int
  | keep limit => some limit
  | add _ | clear => none

end Change

def after (k : Collector) (changes : List Change) : Collector := changes.foldl Change.apply k

structure Moment where
  met : Collector
  change : Change
  deriving DecidableEq, Repr

def Moment.hasRoom (m : Moment) : Bool := m.met.stored.size < m.met.limit

def given (moments : List Moment) : List Diagnostic := moments.filterMap (·.change.given?)

def moments (k : Collector) : List Change → List Moment
  | [] => []
  | change :: rest => ⟨k, change⟩ :: (change.apply k).moments rest

def recent (k : Collector) (changes : List Change) : List Moment :=
  (k.moments changes).rtakeWhile (·.change ≠ .clear)

variable {k : Collector} {changes : List Change} {change : Change} {m : Moment} {since : List Moment}

theorem afterOn : k.after (changes ++ [change]) = change.apply (k.after changes) := by
  rw [after, List.foldl_append]
  rfl

theorem momentsOn : k.moments (changes ++ [change]) = k.moments changes ++ [⟨k.after changes, change⟩] := by
  induction changes generalizing k with
  | nil => rfl
  | cons first rest ih =>
    rw [List.cons_append, moments, ih]
    rfl

theorem recentOn : k.recent (changes ++ [change]) =
    if change = .clear then [] else k.recent changes ++ [⟨k.after changes, change⟩] := by
  rw [recent, momentsOn, List.rtakeWhile_concat, ← recent]
  by_cases clears : change = .clear <;> simp [clears]

theorem givenOn : given (since ++ [m]) = given since ++ m.change.given?.toList := by
  rw [given, List.filterMap_append, ← given]
  cases given : m.change.given? <;> simp [given]

theorem givenNothing (none : m.change.given? = none) (p : Moment → Bool) :
    given ((since ++ [m]).filter p) = given (since.filter p) := by
  rw [List.filter_append]
  cases kept : p m <;> simp [kept, givenOn, none]

structure Holds (k : Collector) (since : List Moment) : Prop where
  count : k.count = (given since).length
  stored : k.stored.toList = given (since.filter Moment.hasRoom)
  dropped : k.dropped = (given (since.filter (!·.hasRoom))).length
  steady : (∀ m ∈ since, m.change.limit? = none) → k.stored.toList = (given since).take k.limit.toNat

theorem cleared (k : Collector) : k.clear.Holds [] where
  count := rfl
  stored := rfl
  dropped := rfl
  steady _ := List.take_nil.symm

-- With one limit, what is kept is all that came before the collector was full.
theorem addSteady {d : Diagnostic} {all : List Diagnostic} (full : k.stored.toList = all.take k.limit.toNat) :
    (k.add d).stored.toList = (all ++ [d]).take k.limit.toNat := by
  have size := congrArg List.length full
  rw [Array.length_toList, List.length_take] at size
  unfold add
  split
  · next none =>
    rw [full, List.take_append_of_le_length (by omega)]
  · next room =>
    rw [Array.toList_push, full, List.take_of_length_le (by omega),
      List.take_of_length_le (by rw [List.length_append, List.length_singleton]; omega)]

theorem holdsAdd (holds : k.Holds since) (d : Diagnostic) : (k.add d).Holds (since ++ [⟨k, .add d⟩]) := by
  have limit : (k.add d).limit = k.limit := by
    unfold add
    split <;> rfl
  have more : given (since ++ [⟨k, .add d⟩]) = given since ++ [d] := givenOn
  have steady (same : ∀ m ∈ since ++ [⟨k, .add d⟩], m.change.limit? = none) :
      (k.add d).stored.toList = (given (since ++ [⟨k, .add d⟩])).take (k.add d).limit.toNat := by
    rw [more, limit]
    exact addSteady (holds.steady fun m member => same m (List.mem_append_left _ member))
  have count := holds.count
  by_cases full : k.limit ≤ k.stored.size
  · have none : Moment.hasRoom ⟨k, .add d⟩ = false := decide_eq_false (Int.not_lt.mpr full)
    have added : k.add d = { k with dropped := k.dropped + 1 } := if_pos full
    refine ⟨?_, ?_, ?_, steady⟩
    · rw [more, added, List.length_append, ← holds.count]
      simp only [Collector.count, List.length_singleton]; omega
    · simp [added, none, holds.stored]
    · simp [added, none, holds.dropped, givenOn, Change.given?]
  · have room : Moment.hasRoom ⟨k, .add d⟩ = true := decide_eq_true (Int.not_le.mp full)
    have added : k.add d = { k with stored := k.stored.push d } := if_neg full
    refine ⟨?_, ?_, ?_, steady⟩
    · rw [more, added, List.length_append, ← holds.count]
      simp only [Collector.count, Array.size_push, List.length_singleton]; omega
    · simp [added, room, holds.stored, givenOn, Change.given?]
    · simp [added, room, holds.dropped]

theorem holdsKeep (holds : k.Holds since) (limit : Int) :
    ({ k with limit } : Collector).Holds (since ++ [⟨k, .keep limit⟩]) where
  count := by
    have none : given (since ++ [⟨k, .keep limit⟩]) = given since := by simp [givenOn, Change.given?]
    rw [none]
    exact holds.count
  stored := by rw [givenNothing rfl]; exact holds.stored
  dropped := by rw [givenNothing rfl]; exact holds.dropped
  steady same := absurd (same _ (List.mem_append_right _ (.head _))) nofun

theorem holdsAfter (limit : Int) (changes : List Change) :
    (({ limit } : Collector).after changes).Holds (({ limit } : Collector).recent changes) := by
  induction changes using List.reverseRecOn with
  | nil => exact cleared { limit }
  | append_singleton changes change ih =>
    rw [afterOn, recentOn]
    cases change with
    | add d => exact holdsAdd ih d
    | clear => exact cleared _
    | keep limit => exact holdsKeep ih limit

theorem limitAfter (k : Collector) (changes : List Change) :
    (k.after changes).limit = (changes.filterMap Change.limit?).getLast?.getD k.limit := by
  induction changes using List.reverseRecOn with
  | nil => rfl
  | append_singleton changes change ih =>
    rw [afterOn, List.filterMap_append]
    cases change with
    | add d =>
      simp only [Change.apply, add]
      split <;> simpa [Change.limit?] using ih
    | clear => simpa [Change.apply, clear, Change.limit?] using ih
    | keep limit => simp [Change.apply, Change.limit?]

theorem linesJoined (lines : List String) (last : String) :
    "\n".intercalate (lines ++ [last]) = String.join (lines.map (· ++ "\n")) ++ last := by
  induction lines with
  | nil => simp
  | cons line rest ih =>
    rw [List.cons_append, String.intercalate_cons_of_ne_nil (by simp), ih]
    simp [String.append_assoc]

theorem reportText (k : Collector) : k.report =
    String.join (k.stored.toList.map fun d => d.text ++ "\n\n") ++
      (if 0 < k.dropped then "... " ++ toString k.dropped ++ " more not shown\n" else "") ++
      (toString k.count ++ if k.count = 1 then " diagnostic" else " diagnostics") := by
  have shown (kept : List Diagnostic) : String.join ((kept.flatMap fun d => [d.text, ""]).map (· ++ "\n")) =
      String.join (kept.map fun d => d.text ++ "\n\n") := by
    induction kept with
    | nil => rfl
    | cons d rest ih =>
      have two : "\n\n" = "\n" ++ "\n" := by decide
      simp only [List.flatMap_cons, List.cons_append, List.nil_append, List.map_cons, String.join_cons, ih, two,
        String.append_assoc, String.empty_append]
  rw [report, reportLines, linesJoined, List.map_append, String.join_append, shown]
  by_cases none : k.dropped = 0
  · simp [none]
  · simp [none, Nat.pos_of_ne_zero none, String.append_assoc]

theorem countedAny (k : Collector) : k.hasAny = true ↔ k.count ≠ 0 := by
  rw [hasAny, count, Bool.or_eq_true, decide_eq_true_iff, decide_eq_true_iff]
  omega

theorem summaryTold {raised : Diagnostic} (k : Collector) : k.summary? = some raised ↔
    k.count ≠ 0 ∧ raised.family = .summary ∧ raised.text = k.report := by
  rw [summary?, Option.ite_none_right_eq_some, countedAny, Option.some.injEq]
  refine and_congr_right fun _ => ⟨?_, ?_⟩
  · rintro rfl
    exact ⟨rfl, rfl⟩
  · rintro ⟨family, text⟩
    cases raised <;> cases family
    exact congrArg Diagnostic.summary text.symm

end Collector

open Collector in
theorem diagnosticsCollected (limit : Int) (changes : List Change) :
    ∃ k since, ({ limit } : Collector).after changes = k ∧ ({ limit } : Collector).recent changes = since ∧
      k.limit = (changes.filterMap Change.limit?).getLast?.getD limit ∧
      k.count = (given since).length ∧
      k.stored.toList = given (since.filter Moment.hasRoom) ∧
      k.dropped = (given (since.filter (!·.hasRoom))).length ∧
      ((∀ m ∈ since, m.change.limit? = none) → k.stored.toList = (given since).take k.limit.toNat) ∧
      (k.hasAny = true ↔ k.count ≠ 0) ∧
      (∀ raised, k.summary? = some raised ↔
        k.count ≠ 0 ∧ raised.family = .summary ∧ raised.text = k.report) ∧
      k.report = String.join (k.stored.toList.map fun d => d.text ++ "\n\n") ++
        (if 0 < k.dropped then "... " ++ toString k.dropped ++ " more not shown\n" else "") ++
        (toString k.count ++ if k.count = 1 then " diagnostic" else " diagnostics") := by
  have holds := holdsAfter limit changes
  exact ⟨_, _, rfl, rfl, limitAfter _ changes, holds.count, holds.stored, holds.dropped, holds.steady,
    countedAny _, fun _ => summaryTold _, reportText _⟩

example : ({ limit := 2 } : Collector).after [.add (.general "a"), .keep 0, .add (.general "b"), .keep 5,
      .add (.general "c")] = { stored := #[.general "a", .general "c"], dropped := 1, limit := 5 } := by
  decide

end WindowLex

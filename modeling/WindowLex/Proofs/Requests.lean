import WindowLex.Proofs.Delivery

/-! Requests to any stream, also to one that fails again and again. Filling a window is some requests one
after another. When a fault escapes, what came before it is lost and a reply of the script is used up, so
that it can happen only so often. -/
namespace WindowLex

def Reply.moderate : Reply → Bool
  | .whole text => text.length ≤ 1
  | _ => true

namespace Stream

/- Requests one after another and all that came. The later stream knows what was asked. -/
inductive Gave : Stream → List Char → Stream → Prop where
  | nothing {s} : Gave s [] s
  | piece {s t u size text later} (answered : s.read size = (.ok text, t)) (rest : Gave t later u) :
      Gave s (text ++ later) u
  | failed {s t u size fault later} (answered : s.read size = (.error fault, t)) (rest : Gave t later u) :
      Gave s later u

def returned (s : Stream) : List Nat → List Char
  | [] => []
  | size :: sizes => (s.read size).1.toOption.getD [] ++ (s.read size).2.returned sizes

def Within (size : Nat) : Except Fault (List Char) → Prop
  | .ok text => text.length ≤ size
  | .error _ => True

def Moderate (s : Stream) : Prop :=
  ∀ sizes size, (∀ n ∈ sizes, 0 < n) → 0 < size → Within size ((s.readAll sizes).read size).1

variable {s t u : Stream} {text first second : List Char} {size needed : Nat}

theorem answerScript (portion : Option Nat) (size : Nat) (script : List Reply) :
    (answer portion size script).2.length ≤ script.length := by
  unfold answer
  split
  · simp
  · split <;> simp
  · simp
  · simp
  · simp
  · split <;> simp

theorem answerFault {portion : Option Nat} {script left : List Reply} {fault : Fault}
    (failed : answer portion size script = (.error fault, left)) : left.length < script.length := by
  unfold answer at failed
  split at failed
  · cases failed
  · split at failed <;> cases failed
  · cases failed
  · cases failed
  · cases failed
    exact Nat.lt_succ_self _
  · split at failed <;> cases failed
    exact Nat.lt_succ_self _

theorem readKept {given : Except Fault (List Char)} (answered : s.read size = (given, t)) :
    t.asked = s.asked.push size ∧ t.limit = s.limit ∧ t.script.length ≤ s.script.length := by
  unfold read at answered
  split at answered <;> cases answered
  · exact ⟨rfl, rfl, Nat.le_refl _⟩
  · exact ⟨rfl, rfl, answerScript ..⟩

theorem readFault {fault : Fault} (allowed : s.tooLarge size = false)
    (answered : s.read size = (.error fault, t)) : t.script.length < s.script.length := by
  simp only [read, allowed, Bool.false_eq_true, if_false, Prod.mk.injEq] at answered
  obtain ⟨failed, rfl⟩ := answered
  exact answerFault (Prod.ext failed rfl)

theorem gaveReturned (s : Stream) (sizes : List Nat) : s.Gave (s.returned sizes) (s.readAll sizes) := by
  induction sizes generalizing s with
  | nil => exact .nothing
  | cons size sizes ih =>
    rw [returned, readAll, List.foldl_cons, ← readAll]
    rcases answered : s.read size with ⟨fault | text, t⟩
    · exact .failed answered (ih t)
    · exact .piece answered (ih t)

theorem gaveOn (left : s.Gave first t) (right : t.Gave second u) : s.Gave (first ++ second) u := by
  induction left with
  | nothing => exact right
  | piece answered rest ih =>
    rw [List.append_assoc]
    exact .piece answered (ih right)
  | failed answered rest ih => exact .failed answered (ih right)

theorem gaveSize (gave : s.Gave text t) : text.length + t.size ≤ s.size := by
  induction gave with
  | nothing => simp
  | piece answered rest ih =>
    have := readSize answered
    rw [List.length_append]; omega
  | failed answered rest ih => exact Nat.le_trans ih (readFailureSize answered)

theorem gaveKept (gave : s.Gave text t) :
    s.asked.toList <+: t.asked.toList ∧ t.limit = s.limit ∧ t.script.length ≤ s.script.length := by
  induction gave with
  | nothing => exact ⟨List.prefix_refl _, rfl, Nat.le_refl _⟩
  | piece answered rest ih | failed answered rest ih =>
    obtain ⟨asked, limit, script⟩ := readKept answered
    obtain ⟨later, same, less⟩ := ih
    rw [asked, Array.toList_push] at later
    exact ⟨(List.prefix_append ..).trans later, same.trans limit, Nat.le_trans less script⟩

theorem gaveAsked {given : Except Fault (List Char)} (answered : s.read size = (given, t))
    (rest : t.Gave text u) : u.asked[s.asked.size]? = some size := by
  obtain ⟨later, same⟩ := (gaveKept rest).1
  rw [(readKept answered).1, Array.toList_push, List.append_assoc] at same
  rw [← Array.getElem?_toList, ← same, ← Array.length_toList, List.getElem?_append_right (Nat.le_refl _)]
  simp

theorem gaveSame {given other : Except Fault (List Char)} {n : Nat} {t' : Stream}
    (answered : s.read size = (given, t)) (rest : t.Gave first u)
    (also : s.read n = (other, t')) (more : t'.Gave second u) : (given, t) = (other, t') := by
  obtain rfl := Option.some.inj ((gaveAsked answered rest).symm.trans (gaveAsked also more))
  exact answered.symm.trans also

theorem gaveOnce (left : s.Gave first t) (right : s.Gave second t) : first = second := by
  induction left generalizing second with
  | nothing =>
    cases right with
    | nothing => rfl
    | piece answered rest | failed answered rest => simpa using gaveAsked answered rest
  | piece answered rest ih =>
    cases right with
    | nothing => simpa using gaveAsked answered rest
    | piece also more =>
      cases gaveSame answered rest also more
      rw [ih more]
    | failed also more => cases gaveSame answered rest also more
  | failed answered rest ih =>
    cases right with
    | nothing => simpa using gaveAsked answered rest
    | piece also more => cases gaveSame answered rest also more
    | failed also more =>
      cases gaveSame answered rest also more
      exact ih more

theorem moderateRead (moderate : s.Moderate) (positive : 0 < size) : (s.read size).2.Moderate := by
  intro sizes n sizesPositive nPositive
  exact moderate (size :: sizes) n (by simpa using ⟨positive, sizesPositive⟩) nPositive

theorem moderateAnswer (moderate : s.Moderate) (positive : 0 < size)
    (answered : s.read size = (.ok text, t)) : text.length ≤ size ∧ t.Moderate := by
  have within : Within size (s.read size).1 := moderate [] size (by simp) positive
  have later := moderateRead moderate positive
  rw [answered] at within later
  exact ⟨within, later⟩

theorem answerModerate {portion : Option Nat} {script : List Reply} (positive : 0 < size)
    (moderate : ∀ r ∈ script, r.moderate = true) :
    Within size (answer portion size script).1 ∧ ∀ r ∈ (answer portion size script).2, r.moderate = true := by
  cases script with
  | nil => exact ⟨Nat.zero_le size, moderate⟩
  | cons reply rest =>
    obtain ⟨first, later⟩ := List.forall_mem_cons.mp moderate
    cases reply with
    | piece text =>
      rw [answerPiece]
      refine ⟨Nat.le_trans (List.length_take_le ..) (roomWithin portion size), ?_⟩
      dsimp only
      split
      · exact later
      · exact List.forall_mem_cons.mpr ⟨rfl, later⟩
    | whole text =>
      have short : text.length ≤ 1 := by simpa [Reply.moderate] using first
      exact ⟨Nat.le_trans short positive, later⟩
    | nothing => exact ⟨Nat.zero_le size, later⟩
    | failure fault => exact ⟨trivial, later⟩
    | guarded text fault =>
      simp only [answer]
      split
      · exact ⟨List.length_take_le .., List.forall_mem_cons.mpr ⟨rfl, later⟩⟩
      · exact ⟨trivial, later⟩

theorem scriptModerate (moderate : ∀ r ∈ s.script, r.moderate = true) : s.Moderate := by
  intro sizes size sizesPositive positive
  induction sizes generalizing s with
  | nil =>
    simp only [readAll, List.foldl_nil, read]
    split
    · trivial
    · exact (answerModerate positive moderate).1
  | cons n sizes ih =>
    obtain ⟨first, later⟩ := List.forall_mem_cons.mp sizesPositive
    refine ih (s := (s.read n).2) ?_ later
    unfold read
    split
    · exact moderate
    · exact (answerModerate first moderate).2

structure Drew (s : Stream) (needed : Nat) (text : List Char) (t : Stream) : Prop where
  gave : s.Gave text t
  moderate : s.Moderate → text.length ≤ needed ∧ t.Moderate

structure Lost (s : Stream) (needed : Nat) (text : List Char) (t : Stream) : Prop where
  gave : s.Gave text t
  used : s.tooLarge needed = false → t.script.length < s.script.length
  moderate : s.Moderate → text.length < needed ∧ t.Moderate

theorem gatherDrew {got all : List Char} {cut : Option Fault}
    (gathered : s.gather needed got = (.ok (all, cut), t)) :
    ∃ text, all = got ++ text ∧ s.Drew needed text t := by
  fun_induction gather s needed got with
  | case1 s got =>
    cases gathered
    exact ⟨[], by simp, .nothing, fun moderate => ⟨by simp, moderate⟩⟩
  | case2 s needed got short s' answered =>
    cases gathered
    exact ⟨[], by simp, .piece answered .nothing, fun moderate =>
      ⟨by simp, (moderateAnswer moderate (Nat.pos_of_ne_zero short) answered).2⟩⟩
  | case3 s needed got short c piece s' answered ih =>
    obtain ⟨text, rfl, drew⟩ := ih gathered
    refine ⟨c :: piece ++ text, by simp, .piece answered drew.gave, fun moderate => ?_⟩
    obtain ⟨fits, later⟩ := moderateAnswer moderate (Nat.pos_of_ne_zero short) answered
    obtain ⟨fill, last⟩ := drew.moderate later
    refine ⟨?_, last⟩
    simp only [List.length_append, List.length_cons] at *; omega
  | case4 s needed got short fault s' answered ends =>
    cases gathered
    refine ⟨[], by simp, .failed answered .nothing, fun moderate => ⟨by simp, ?_⟩⟩
    simpa only [answered] using moderateRead moderate (Nat.pos_of_ne_zero short)
  | case5 => cases gathered

theorem gatherLost {got : List Char} {fault : Fault} (escaped : s.gather needed got = (.error fault, t)) :
    ∃ text, s.Lost needed text t := by
  fun_induction gather s needed got with
  | case1 => cases escaped
  | case2 => cases escaped
  | case3 s needed got short c piece s' answered ih =>
    obtain ⟨text, lost⟩ := ih escaped
    refine ⟨c :: piece ++ text, .piece answered lost.gave, fun allowed => ?_, fun moderate => ?_⟩
    · have limit := readTooLarge s needed needed
      rw [answered] at limit
      have smaller := tooLargeMono (limit.trans allowed) (Nat.sub_le needed (piece.length + 1))
      exact Nat.lt_of_lt_of_le (lost.used smaller) (readKept answered).2.2
    · obtain ⟨fits, later⟩ := moderateAnswer moderate (Nat.pos_of_ne_zero short) answered
      obtain ⟨less, last⟩ := lost.moderate later
      refine ⟨?_, last⟩
      simp only [List.length_append, List.length_cons] at *; omega
  | case4 => cases escaped
  | case5 s needed got short fault s' answered goes =>
    cases escaped
    refine ⟨[], .failed answered .nothing, fun allowed => readFault allowed answered, fun moderate => ?_⟩
    have positive := Nat.pos_of_ne_zero short
    exact ⟨positive, by simpa only [answered] using moderateRead moderate positive⟩

end Stream

end WindowLex

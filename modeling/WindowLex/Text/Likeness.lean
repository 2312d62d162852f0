/-! How alike two texts are: the share of their characters that stand in runs common to both, taken
longest first. -/
namespace WindowLex.Text

structure CommonRun where
  first : Nat
  second : Nat
  size : Nat
  deriving DecidableEq, Repr

def commonStart : List Char → List Char → Nat
  | x :: first, y :: second => if x = y then commonStart first second + 1 else 0
  | _, _ => 0

def commonRuns (first second : List Char) : List CommonRun :=
  (List.range first.length).flatMap fun i => (List.range second.length).map fun j =>
    ⟨i, j, commonStart (first.drop i) (second.drop j)⟩

def longestRun (first second : List Char) : CommonRun :=
  (commonRuns first second).foldl (fun best run => if best.size < run.size then run else best)
    ⟨0, 0, 0⟩

theorem foldlBest (runs : List CommonRun) (best : CommonRun) :
    let found := runs.foldl (fun best run => if best.size < run.size then run else best) best
    found = best ∨ found ∈ runs := by
  induction runs generalizing best with
  | nil => exact .inl rfl
  | cons run rest ih =>
    simp only [List.foldl_cons, List.mem_cons]
    split
    · rcases ih run with same | later
      · exact .inr (.inl same)
      · exact .inr (.inr later)
    · rcases ih best with same | later
      · exact .inl same
      · exact .inr (.inr later)

theorem longestRunInside {first second : List Char} (h : 0 < (longestRun first second).size) :
    (longestRun first second).first < first.length := by
  rcases foldlBest (commonRuns first second) ⟨0, 0, 0⟩ with none | found
  · rw [longestRun, none] at h; exact absurd h (Nat.lt_irrefl 0)
  · change longestRun first second ∈ commonRuns first second at found
    simp only [commonRuns, List.mem_flatMap, List.mem_range, List.mem_map] at found
    obtain ⟨i, inside, j, _, same⟩ := found
    rw [← same]; exact inside

def shared (first second : List Char) : Nat :=
  let run := longestRun first second
  if inside : 0 < run.size then
    have := longestRunInside inside
    shared (first.take run.first) (second.take run.second) + run.size
      + shared (first.drop (run.first + run.size)) (second.drop (run.second + run.size))
  else 0
  termination_by first.length
  decreasing_by
    all_goals
      change 0 < (longestRun first second).size at inside
      simp only [List.length_take, List.length_drop]
      omega

def isAlike (first second : List Char) : Bool :=
  let length := first.length + second.length
  3 * length ≤ 10 * min first.length second.length && 3 * length ≤ 10 * shared first second

def isLiker (word first second : String) : Bool :=
  let weight (text other : String) : Nat :=
    shared text.toList word.toList * (other.length + word.length)
  weight second first < weight first second
    || (weight first second = weight second first && second ≤ first)

def closest (count : Nat) (word : String) (texts : List String) : List String :=
  let alike := texts.filter fun text => isAlike text.toList word.toList
  ((alike.mergeSort (isLiker word)).take count).mergeSort

end WindowLex.Text

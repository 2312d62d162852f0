/-! Finite sets as ascending lists without repetition, one list for each set. -/
namespace WindowLex.Ascending

variable {α : Type} [LT α] [DecidableLT α] [DecidableEq α]

def insert (x : α) : List α → List α
  | [] => [x]
  | y :: rest =>
    if x = y then y :: rest else if x < y then x :: y :: rest else y :: insert x rest

def ofList (items : List α) : List α := items.foldr insert []

theorem memInsert {x y : α} {items : List α} : y ∈ insert x items ↔ y = x ∨ y ∈ items := by
  induction items with
  | nil => simp [insert]
  | cons z rest ih =>
    unfold insert
    split
    · simp_all
    · split
      · simp
      · simp only [List.mem_cons, ih]; grind

theorem memOfList {y : α} {items : List α} : y ∈ ofList items ↔ y ∈ items := by
  induction items with
  | nil => simp [ofList]
  | cons x rest ih =>
    rw [List.mem_cons, ← ih]
    exact memInsert

end WindowLex.Ascending

/-! Control sequences of terminals in a text: an escape character and an opening bracket, parameters of
ASCII digits, semicolons and question marks, and an ASCII letter. -/
namespace WindowLex.Text

def escapeChar : Char := '\x1b'

def isParameter (c : Char) : Bool := c.isDigit || c = ';' || c = '?'

def behindControl? : List Char → Option (List Char)
  | [] => none
  | c :: rest =>
    if c.isAlpha then some rest else if isParameter c then behindControl? rest else none

theorem behindControlShorter {text rest : List Char} (h : behindControl? text = some rest) :
    rest.length < text.length := by
  induction text with
  | nil => cases h
  | cons c tail ih =>
    simp only [behindControl?] at h
    split at h
    · cases h; exact Nat.lt_succ_self _
    · split at h
      · exact Nat.lt_succ_of_lt (ih h)
      · cases h

/-- The text without its control sequences. Those that only arise by leaving out others stay. -/
def dropControls : List Char → List Char
  | [] => []
  | [c] => [c]
  | c :: d :: rest =>
    if c = escapeChar ∧ d = '[' then
      match found : behindControl? rest with
      | some behind =>
        have := behindControlShorter found
        dropControls behind
      | none => c :: dropControls (d :: rest)
    else c :: dropControls (d :: rest)
  termination_by text => text.length
  decreasing_by all_goals simp only [List.length_cons]; omega

theorem dropControlsPlain {text : List Char} (plain : escapeChar ∉ text) : dropControls text = text := by
  fun_induction dropControls text with
  | case1 => rfl
  | case2 => rfl
  | case3 c d rest opens behind found shorter ih => exact absurd (opens.1 ▸ .head _) plain
  | case4 c d rest opens none ih => exact absurd (opens.1 ▸ .head _) plain
  | case5 c d rest closed ih => rw [ih (fun later => plain (.tail _ later))]

def withoutControls (text : String) : String := String.ofList (dropControls text.toList)

theorem withoutControlsPlain {text : String} (plain : escapeChar ∉ text.toList) :
    withoutControls text = text := by
  rw [withoutControls, dropControlsPlain plain, String.ofList_toList]

end WindowLex.Text

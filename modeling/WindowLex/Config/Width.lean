import WindowLex.Config.Offered

/-! How many characters a window holds: at least one. -/
namespace WindowLex

inductive Width where
  | count (size : Nat) (positive : 0 < size)
  | truth
  deriving DecidableEq, Repr

namespace Width

def size : Width → Nat
  | count size _ => size
  | truth => 1

theorem sizePositive (w : Width) : 0 < w.size := by
  cases w with
  | count size positive => exact positive
  | truth => exact Nat.one_pos

theorem toNatPositive {value : Int} (positive : 0 < value) : 0 < value.toNat := by omega

def ofOffered? : Offered → Option Width
  | .integer value =>
    if h : 0 < value then some (.count value.toNat (toNatPositive h)) else none
  | .truth true => some .truth
  | _ => none

def offered : Width → Offered
  | count size _ => .integer size
  | truth => .truth true

def standard : Width := .count 4096 (by decide)

end Width

end WindowLex

/-! Membership in a table of code point ranges. -/
namespace ClassText.Text

/-- Whether a number lies in one of the closed ranges, which are listed in ascending order. -/
def within : List (Nat × Nat) → Nat → Bool
  | [], _ => false
  | (low, high) :: rest, n => if n < low then false else decide (n ≤ high) || within rest n

end ClassText.Text

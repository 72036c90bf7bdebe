/-!
# Ranges of code points

Character properties are kept as lists of closed ranges of code points.
-/

namespace TenantIam.Text

/-- Whether the code point of `c` lies in one of the closed ranges. -/
def inRanges (ranges : List (Nat × Nat)) (c : Char) : Bool :=
  ranges.any fun (low, high) => low ≤ c.toNat && c.toNat ≤ high

/-- Ranges are ascending when each is nonempty and lies strictly below the next. -/
def ascending : List (Nat × Nat) → Bool
  | [] => true
  | [(low, high)] => low ≤ high
  | (low, high) :: (low', high') :: rest =>
    low ≤ high && high < low' && ascending ((low', high') :: rest)

def sizeOfRanges (ranges : List (Nat × Nat)) : Nat :=
  ranges.foldl (fun size (low, high) => size + (high + 1 - low)) 0

end TenantIam.Text

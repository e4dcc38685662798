/-!
# Sets of code points as closed ranges

Character properties are tables of closed ranges, ascending and apart.

* `Ranges.contains`    membership of a code point.
-/

namespace OverloadTables.Text

/-- Closed ranges of code points, ascending and apart. -/
abbrev Ranges := List (Nat × Nat)

namespace Ranges

/-- Some range holds the code point.  The search ends at the first range that starts above it. -/
def contains : Ranges → Nat → Bool
  | [], _ => false
  | (lo, hi) :: rs, n => lo ≤ n && (n ≤ hi || contains rs n)

end Ranges
end OverloadTables.Text

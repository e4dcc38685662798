/-!
# Sorting by insertion

* `sortBy le l`        the list in the order of `le`; equal members keep their order;
* `ascending lt l`     the members in ascending order, each once.
-/

namespace OverloadTables

variable {α : Type}

/-- Places `a` before the first member it may precede. -/
def insertBy (le : α → α → Bool) (a : α) : List α → List α
  | [] => [a]
  | b :: l => if le a b then a :: b :: l else b :: insertBy le a l

/-- Sorts by inserting the members from the last to the first. -/
def sortBy (le : α → α → Bool) (l : List α) : List α := l.foldr (insertBy le) []

variable [DecidableEq α]

/-- Places `a` in an ascending list unless it is there. -/
def insertOnce (lt : α → α → Bool) (a : α) : List α → List α
  | [] => [a]
  | b :: l => if a = b then b :: l else if lt a b then a :: b :: l else b :: insertOnce lt a l

/-- The members of a list in ascending order, each once. -/
def ascending (lt : α → α → Bool) (l : List α) : List α := l.foldr (insertOnce lt) []

end OverloadTables

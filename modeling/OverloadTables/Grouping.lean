/-!
# Grouping by name

* `group name l`       the members of `l` under their names, names in the order of first sight and
                       members in their own order.
-/

namespace OverloadTables

variable {α : Type}

/-- The groups, each with its name. -/
abbrev Groups (α : Type) := List (String × List α)

/-- Adds a member to the end of its group, or as a new group at the end. -/
def Groups.add (name : String) (a : α) : Groups α → Groups α
  | [] => [(name, [a])]
  | (n, as) :: gs => if n = name then (n, as ++ [a]) :: gs else (n, as) :: Groups.add name a gs

/-- The members of a list in groups. -/
def group (name : α → String) (l : List α) : Groups α :=
  l.foldl (fun gs a => gs.add (name a) a) []

end OverloadTables

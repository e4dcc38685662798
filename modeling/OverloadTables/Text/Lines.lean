/-!
# Lines of a text

* `joinLines`          lines to text, with a line feed between neighbours;
* `unifyLineEnds`      every carriage return, alone or before a line feed, read as a line feed.
-/

namespace OverloadTables.Text

/-- The lines with a line feed between neighbours. -/
def joinLines (ls : List String) : String := "\n".intercalate ls

/-- CR LF and lone CR become LF. -/
def unifyLineEnds : List Char → List Char
  | '\r' :: '\n' :: cs => '\n' :: unifyLineEnds cs
  | '\r' :: cs => '\n' :: unifyLineEnds cs
  | c :: cs => c :: unifyLineEnds cs
  | [] => []

end OverloadTables.Text

/-!
# `Text.Indentation` — the blanks at the front of a line
-/

namespace Script
namespace Text

/-- Four blanks for each level of nesting. -/
def indentation (depth : Nat) : String := String.ofList (List.replicate (4 * depth) ' ')

end Text
end Script

/-!
# `Text.Split` — a text cut at a separator

The separator is looked for from left to right, and its occurrences do not overlap. The empty
separator occurs between any two characters and at both ends.
-/

namespace Script
namespace Text

/-- The pieces of a text between occurrences of a separator that is not empty. `piece` is what was
    read of the current piece, backwards; the first `skip` characters belong to a separator. -/
def pieces (separator : List Char) : Nat → List Char → List Char → List (List Char)
  | _, piece, [] => [piece.reverse]
  | skip + 1, piece, _ :: rest => pieces separator skip piece rest
  | 0, piece, c :: rest =>
    if separator.isPrefixOf (c :: rest) then
      piece.reverse :: pieces separator (separator.length - 1) [] rest
    else pieces separator 0 (c :: piece) rest

/-- The pieces of a text between the occurrences of a separator. -/
def split (text separator : String) : List String :=
  if separator.isEmpty then "" :: text.toList.map (String.ofList [·]) ++ [""]
  else (pieces separator.toList 0 [] text.toList).map String.ofList

end Text
end Script

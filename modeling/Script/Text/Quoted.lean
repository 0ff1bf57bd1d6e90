import Script.Text.Printable

/-!
# `Text.Quoted` — a text shown between quotes

The form in which tokens, trees and collections show a text: quote and backslash are escaped, the
common controls have letters of their own, and every other character that could not be read off
the page is given by its code point.
-/

namespace Script
namespace Text

/-- The hexadecimal digits of a code point, in lower case and without padding. -/
def hexDigits (c : Char) : List Char := Nat.toDigits 16 c.toNat

/-- One character as it stands between two `quote` marks. -/
def escapeWithin (quote c : Char) : List Char :=
  if c = '\x00' then ['\\', '0']
  else if c = '\t' then ['\\', 't']
  else if c = '\r' then ['\\', 'r']
  else if c = '\n' then ['\\', 'n']
  else if c = quote || c = '\\' then ['\\', c]
  else if extendsGrapheme c || !isPrintable c then
    ['\\', 'u', '\x7b'] ++ hexDigits c ++ ['\x7d']
  else [c]

/-- A text between double quotes. -/
def quoted (s : String) : String :=
  String.ofList ('"' :: s.toList.flatMap (escapeWithin '"') ++ ['"'])

/-- A character between single quotes. -/
def quotedChar (c : Char) : String :=
  String.ofList ('\x27' :: escapeWithin '\x27' c ++ ['\x27'])

end Text
end Script

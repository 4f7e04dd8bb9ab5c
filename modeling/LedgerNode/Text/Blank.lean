namespace LedgerNode

/-!
# Blanks

The blanks of a text are the characters that Unicode counts as white space.
They are looked at from both ends of a text only.
-/

namespace Text

/-- A character that counts as white space. -/
def isBlank (character : Char) : Bool :=
  let code := character.toNat
  (9 ≤ code && code ≤ 13) || code == 0x20 || code == 0x85 || code == 0xA0 ||
    code == 0x1680 || (0x2000 ≤ code && code ≤ 0x200A) || code == 0x2028 ||
    code == 0x2029 || code == 0x202F || code == 0x205F || code == 0x3000

/-- Characters without the blanks at both ends. -/
def trim (characters : List Char) : List Char :=
  ((characters.dropWhile isBlank).reverse.dropWhile isBlank).reverse

/-- The parts between the characters that satisfy a test; there is one more of
them than of such characters. -/
def splitOn (test : Char → Bool) : List Char → List (List Char)
  | [] => [[]]
  | character :: rest =>
    if test character then [] :: splitOn test rest
    else match splitOn test rest with
      | [] => [[character]]
      | part :: parts => (character :: part) :: parts

end Text

end LedgerNode

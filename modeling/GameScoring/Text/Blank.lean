/-! # Blank characters and text

A character is blank if it separates words: the Unicode spaces and the line, paragraph and information
separators. The zero-width characters are not blank.
-/
namespace GameScoring.Text

def isBlank (c : Char) : Bool :=
  let code := c.toNat
  (9 ≤ code && code ≤ 13) || (28 ≤ code && code ≤ 32) || code == 0x85 || code == 0xA0 || code == 0x1680 ||
    (0x2000 ≤ code && code ≤ 0x200A) || code == 0x2028 || code == 0x2029 || code == 0x202F ||
    code == 0x205F || code == 0x3000

/-- No character that can be seen: empty text is blank. -/
def isBlankText (text : String) : Bool := text.toList.all isBlank

/-- Text without the characters of a class at its two ends. -/
def stripWhere (drop : Char → Bool) (text : List Char) : List Char :=
  ((text.dropWhile drop).reverse.dropWhile drop).reverse

def strip (text : List Char) : List Char := stripWhere isBlank text

end GameScoring.Text

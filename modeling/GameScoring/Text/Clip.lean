/-! # Clipped text -/
namespace GameScoring.Text

/-- The first `count` characters; a negative count leaves out as many at the end. -/
def keep (count : Int) (text : List Char) : List Char :=
  if 0 ≤ count then text.take count.toNat else text.take (text.length - count.natAbs)

/-- Text of more than `most` characters is cut so that a suffix fits behind it. -/
def clip (text : String) (most : Int) (suffix : String) : String :=
  if text.length ≤ most then text
  else String.ofList (keep (most - suffix.length) text.toList) ++ suffix

end GameScoring.Text

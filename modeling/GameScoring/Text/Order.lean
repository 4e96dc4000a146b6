/-! # The order of text

Text is ordered by the numbers of its characters, and a row of texts by the first two that differ.
-/
namespace GameScoring.Text

def precedes : List Char → List Char → Bool
  | _, [] => false
  | [], _ :: _ => true
  | c :: cs, d :: ds => c.toNat < d.toNat || (c == d && precedes cs ds)

/-- Whether a row of texts does not come after another one. -/
def inOrder : List String → List String → Bool
  | [], _ => true
  | _ :: _, [] => false
  | s :: ss, t :: ts => precedes s.toList t.toList || (s == t && inOrder ss ts)

end GameScoring.Text

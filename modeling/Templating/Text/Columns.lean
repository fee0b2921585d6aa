import Templating.Text.Case
import Templating.Text.WidthRanges

/-!
# Columns

How many columns of a terminal a character takes.
-/

namespace Templating.Text

/-- Columns of a character: none for a mark, two for ideographs and the like, three for a Khmer sign
that stands for three letters, otherwise one. Controls count as one. -/
def columns (c : Char) : Nat :=
  if c.toNat < 0xA0 then 1
  else if inRanges unspacedRanges c then 0
  else if inRanges wideRanges c then 2
  else if c = '\u17D8' then 3
  else 1

end Templating.Text

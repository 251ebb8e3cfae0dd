/-
The lowest and the highest total of a die. Every die shows at least one
and at most its number of sides, so the bounds are sums over the groups;
each step of the sums stops at the ends of the 64-bit range.
-/
import DiceNotation.Die

namespace DiceNotation

/-- The total of a group when every die shows one. -/
def Group.lowest (g : Group) : Int64 :=
  Word.addSaturating (Word.widen g.count.val) g.bonus.toInt64

/-- The total of a group when every die shows its number of sides. -/
def Group.highest (g : Group) : Int64 :=
  Word.addSaturating (Word.mulSaturating g.count.val g.sides.val)
    g.bonus.toInt64

namespace Die

/-- The lowest total of a die. -/
def lowest : Die → Int64
  | .group g => g.lowest
  | .join left right => Word.addSaturating left.lowest right.lowest

/-- The highest total of a die. -/
def highest : Die → Int64
  | .group g => g.highest
  | .join left right => Word.addSaturating left.highest right.highest

end Die

end DiceNotation

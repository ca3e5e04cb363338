/-!
# Percentages

Shares are reported as percentages in binary64, rounded as the operations round:
first the quotient, then the product with 100.
-/

namespace ScriptModules

/-- `part / whole` as a percentage from 0 to 100; 0 if there is no whole. -/
def percentage (part whole : Nat) : Float :=
  if whole = 0 then 0
  else
    let share := Float.ofNat part / Float.ofNat whole * 100
    if 100 < share then 100 else share

end ScriptModules

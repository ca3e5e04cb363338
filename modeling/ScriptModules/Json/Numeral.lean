import ScriptModules.Json.Form

/-!
# The value of a JSON number

An integer written without point and exponent is exact if it fits 64 bits,
unsigned or signed.  Every other number is a binary64 value, found in two steps:
digits are gathered into a significand as long as it fits 64 bits, and the
significand is multiplied or divided by a power of ten.  A result past the
largest finite value is refused.
-/

namespace ScriptModules.Json

/-- A number: exact, or a binary64 value. -/
inductive Number where
  | exact (value : Int)
  | float (value : Float)

namespace Numeral

/-- One past the largest significand. -/
def significandLimit : Nat := 2 ^ 64

/-- Gathers the digits of the whole part.  From the first digit that does not fit,
digits are only counted. -/
def gatherWhole : (significand dropped : Nat) → List Char → Nat × Nat
  | significand, dropped, [] => (significand, dropped)
  | significand, dropped, d :: ds =>
    let next := 10 * significand + (d.toNat - 48)
    if dropped = 0 ∧ next < significandLimit then gatherWhole next 0 ds
    else gatherWhole significand (dropped + 1) ds

/-- Gathers the digits of the fraction up to the first that does not fit, and
counts those gathered. -/
def gatherFraction : (significand taken : Nat) → List Char → Nat × Nat
  | significand, taken, [] => (significand, taken)
  | significand, taken, d :: ds =>
    let next := 10 * significand + (d.toNat - 48)
    if next < significandLimit then gatherFraction next (taken + 1) ds else (significand, taken)

/-- An exponent that is past every number which is neither zero nor infinite. -/
def exponentBound : Nat := 2 ^ 31

/-- The exponent decimal digits name, or `exponentBound` if it is larger. -/
def exponentOf (ds : List Char) : Nat :=
  Text.numeralUpTo exponentBound 10 ds

/-- `f · 10^exponent`.  Tables of powers end at 308, so a smaller exponent takes
several divisions, which stop once nothing is left. -/
def scale : (fuel : Nat) → (f : Float) → (exponent : Int) → Option Float
  | 0, f, _ => some f
  | fuel + 1, f, exponent =>
    if exponent.natAbs ≤ 308 then
      let power := Float.ofScientific 1 false exponent.natAbs
      if 0 ≤ exponent then
        let product := f * power
        if product.isInf then none else some product
      else some (f / power)
    else if f == 0 then some f
    else if 0 ≤ exponent then none
    else scale fuel (f / Float.ofScientific 1 false 308) (exponent + 308)

/-- The value of a number, if it is in range. -/
def value? (n : Numeral) : Option Number :=
  let sign (f : Float) : Float := if n.negative then -f else f
  let (significand, dropped) := gatherWhole 0 0 n.whole
  if dropped = 0 ∧ n.fraction = [] ∧ n.exponent = none then
    if ¬ n.negative then some (.exact significand)
    else if significand = 0 ∨ 2 ^ 63 < significand then
      some (.float (sign (Float.ofNat significand)))
    else some (.exact (-(significand : Int)))
  else
    let (significand, taken) := gatherFraction significand 0 n.fraction
    let shift : Int := match n.exponent with
      | none => 0
      | some (negative, ds) => if negative then -(exponentOf ds : Int) else exponentOf ds
    (scale 8 (Float.ofNat significand) ((dropped : Int) - taken + shift)).map (.float <| sign ·)

end Numeral

end ScriptModules.Json

import ScriptModules.Text.Split

/-!
# Punycode

The text that a label of small letters, digits and hyphens encodes (RFC 3492).  The
characters in ASCII stand before the last hyphen as they are.  After it comes a
number for each other character, in the order of their code points.  It says how far
the next place to put a character is away from the last, when every place is passed
for one code point before the first place is reached for the next code point.

A number is written with digits of base 36, the lowest first.  Each digit has a
threshold, and a digit below its threshold ends the number.  Thresholds depend on a
bias, which follows the size of the numbers so far.
-/

namespace ScriptModules.Url.Punycode

/-- The number of digits. -/
def base : Nat := 36

/-- Numbers have to stay below this one. -/
def limit : Nat := 2 ^ 32

/-- The number a digit stands for. -/
def digit? (c : Char) : Option Nat :=
  if 'a' ≤ c ∧ c ≤ 'z' then some (c.toNat - 97)
  else if 'A' ≤ c ∧ c ≤ 'Z' then some (c.toNat - 65)
  else if '0' ≤ c ∧ c ≤ '9' then some (c.toNat - 22)
  else none

/-- The threshold of a digit, whose place is given as a multiple of the base. -/
def threshold (bias place : Nat) : Nat :=
  if place ≤ bias then 1 else min 26 (place - bias)

/-- Divides a number until it is small.  Gives the bias. -/
def settle (delta k : Nat) : Nat :=
  if 455 < delta then settle (delta / 35) (k + base) else k + base * delta / (delta + 38)
termination_by delta
decreasing_by exact Nat.div_lt_self (by omega) (by omega)

/-- The bias after a number, when there are `count` characters. -/
def adapt (delta count : Nat) (isFirst : Bool) : Nat :=
  let delta := if isFirst then delta / 700 else delta / 2
  settle (delta + delta / count) 0

/-- Reads a number and adds it to `sum`.  `weight` is what the next digit counts.
Gives the sum and the rest of the text. -/
def number? (bias : Nat) : (place weight sum : Nat) → List Char → Option (Nat × List Char)
  | _, _, _, [] => none
  | place, weight, sum, c :: cs => do
    let digit ← digit? c
    let sum := sum + digit * weight
    let t := threshold bias place
    if limit ≤ sum then none
    else if digit < t then some (sum, cs)
    else if limit ≤ weight * (base - t) then none
    else number? bias (place + base) (weight * (base - t)) sum cs

/-- Reading a number takes at least one digit. -/
theorem length_of_number? {bias place weight sum n : Nat} {text rest : List Char}
    (h : number? bias place weight sum text = some (n, rest)) : rest.length < text.length := by
  induction text generalizing place weight sum with
  | nil => simp [number?] at h
  | cons c cs ih =>
    rw [number?] at h
    cases hd : digit? c with
    | none => simp [hd] at h
    | some d =>
      simp only [hd, Option.bind_eq_bind, Option.bind_some] at h
      split at h
      · simp at h
      · split at h
        · simp only [Option.some.injEq, Prod.mk.injEq] at h
          simp [← h.2]
        · split at h
          · simp at h
          · exact Nat.lt_succ_of_lt (ih h)

/-- Puts characters in, one for each number.  `code` and `place` say where the last
one went. -/
def insertAll? (bias code place : Nat) (decoded : List Char) (text : List Char) :
    Option (List Char) :=
  match text with
  | [] => some decoded
  | c :: cs =>
    match h : number? bias base 1 place (c :: cs) with
    | none => none
    | some (sum, rest) =>
      have : rest.length < (c :: cs).length := length_of_number? h
      let count := decoded.length + 1
      let code := code + sum / count
      if code.isValidChar then
        insertAll? (adapt (sum - place) count (place == 0)) code (sum % count + 1)
          (decoded.insertIdx (sum % count) (Char.ofNat code)) rest
      else none
termination_by text.length
decreasing_by assumption

/-- The parts of a text around its last hyphen.  Without one, or with one at the
very front, all is in the second part. -/
def partsAtHyphen (text : List Char) : List Char × List Char :=
  let back := (text.reverse.takeWhile (· != '-')).reverse
  let front := text.take (text.length - back.length - 1)
  if front = [] then ([], text) else (front, back)

/-- The text that another one encodes. -/
def decode? (text : List Char) : Option (List Char) :=
  let (front, back) := partsAtHyphen text
  insertAll? 72 0x80 0 front back

example : decode? "bcher-kva".toList = some "bücher".toList := by decide +kernel
example : decode? "ls8h".toList = some ['💩'] := by decide +kernel
example : decode? "bcher-kvb".toList = some "bcǈher".toList := by decide +kernel

end ScriptModules.Url.Punycode

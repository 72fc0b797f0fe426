/-!
# Double-precision numbers

A finite value is kept as a significand below `2 ^ 53` times a power of two, so that reading and
writing decimals is exact arithmetic on natural numbers.
-/

namespace ApiDoc.Number

inductive Binary64 where
  | nan
  | infinite (negative : Bool)
  /-- `significand * 2 ^ exponent`, negated if `negative`. The significand is at least `2 ^ 52`
  unless the exponent is the least one, `-1074`. -/
  | finite (negative : Bool) (significand : Nat) (exponent : Int)
deriving DecidableEq, Repr

namespace Binary64

def minExponent : Int := -1074

def maxExponent : Int := 971

/-- The quotient rounded to the nearest integer, a half to the even one. -/
def roundDiv (num den : Nat) : Nat :=
  let q := num / den
  let r := num % den
  if 2 * r < den then q
  else if den < 2 * r then q + 1
  else if q % 2 = 0 then q else q + 1

/-- `num * 2 ^ (-e) / den` as a fraction of natural numbers. -/
def scaled (num den : Nat) (e : Int) : Nat × Nat :=
  if e < 0 then (num * Nat.pow 2 e.natAbs, den) else (num, den * Nat.pow 2 e.natAbs)

/-- The double nearest to `num / den`, for a positive numerator. -/
def ofPositive (negative : Bool) (num den : Nat) : Binary64 :=
  let guess : Int := (num.log2 : Int) - den.log2 - 52
  let (n, d) := scaled num den guess
  let fitted := if n < d * Nat.pow 2 52 then guess - 1 else guess
  let e := max fitted minExponent
  let (n, d) := scaled num den e
  let s := roundDiv n d
  let (s, e) := if s = Nat.pow 2 53 then (Nat.pow 2 52, e + 1) else (s, e)
  if maxExponent < e then .infinite negative else .finite negative s e

/-- The double nearest to `digits * 10 ^ exponent`. Exponents that leave the range of doubles by a
wide margin are settled without computing the power. -/
def ofDecimal (negative : Bool) (digits : Nat) (exponent : Int) : Binary64 :=
  let size : Int := (Nat.toDigits 10 digits).length + exponent
  if digits = 0 || size < -400 then .finite negative 0 minExponent
  else if 400 < size then .infinite negative
  else if exponent < 0 then ofPositive negative digits (Nat.pow 10 exponent.natAbs)
  else ofPositive negative (digits * Nat.pow 10 exponent.natAbs) 1

/-- The integer that a double is, if it is one. -/
def toInt? : Binary64 → Option Int
  | .finite negative s e =>
    let magnitude : Option Nat :=
      if 0 ≤ e then some (s * Nat.pow 2 e.natAbs)
      else if s % Nat.pow 2 e.natAbs = 0 then some (s / Nat.pow 2 e.natAbs) else none
    magnitude.map fun m => if negative then -(m : Int) else m
  | _ => none

def neg : Binary64 → Binary64
  | .nan => .nan
  | .infinite n => .infinite !n
  | .finite n s e => .finite (!n) s e

end Binary64

end ApiDoc.Number

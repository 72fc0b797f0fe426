import ApiDoc.Number.Binary64

/-!
# Shortest decimal text of a double

A double is written with the fewest digits that read back as it; of two decimals with that many
digits the nearer one. The reals that round to `m * 2 ^ q` form an interval around it, and if a
decimal grid has a point in the interval, then one of the two grid points next to the value is in
it. So grids are tried from the coarsest on.
-/

namespace ApiDoc.Number

/-- A decimal: `digits * 10 ^ exponent`. -/
structure Decimal where
  digits : Nat
  exponent : Int
deriving DecidableEq, Repr

namespace Binary64

/-- A positive value and the interval that rounds to it, in quarters of its unit in the last
place. -/
structure Span where
  low : Nat
  value : Nat
  high : Nat
  /-- The ends belong to the interval. -/
  closed : Bool

/-- Below a power of two the neighbour is only half as far away. -/
def span (significand : Nat) (exponent : Int) : Span :=
  { low := if significand = Nat.pow 2 52 && minExponent < exponent then 4 * significand - 1
      else 4 * significand - 2
    value := 4 * significand
    high := 4 * significand + 2
    closed := significand % 2 = 0 }

/-- The fraction `x * 2 ^ (exponent - 2) / 10 ^ grid`. -/
def onGrid (x : Nat) (exponent grid : Int) : Nat × Nat :=
  let e := exponent - 2
  let num := x * (if 0 ≤ e then Nat.pow 2 e.natAbs else 1) * (if grid < 0 then Nat.pow 10 grid.natAbs else 1)
  let den := (if e < 0 then Nat.pow 2 e.natAbs else 1) * (if 0 ≤ grid then Nat.pow 10 grid.natAbs else 1)
  (num, den)

/-- The decimal exponent of the leading digit. -/
def leadingExponent (significand : Nat) (exponent : Int) : Int :=
  let estimate := ((significand.log2 : Int) + exponent) * 30103 / 100000
  let reaches (k : Int) : Bool :=
    let (n, d) := onGrid (4 * significand) exponent k
    d ≤ n
  if reaches (estimate + 1) then estimate + 1
  else if reaches estimate then estimate
  else estimate - 1

/-- The point of a decimal grid that reads back as the value, nearest first. -/
def hit? (significand : Nat) (exponent grid : Int) : Option Nat :=
  let s := span significand exponent
  let (v, d) := onGrid s.value exponent grid
  let (lo, _) := onGrid s.low exponent grid
  let (hi, _) := onGrid s.high exponent grid
  let inside (k : Nat) : Bool := if s.closed then lo ≤ k * d && k * d ≤ hi else lo < k * d && k * d < hi
  let below := v / d
  let nearBelow := 2 * (v % d) < d || (2 * (v % d) = d && below % 2 = 0)
  let (first, second) := if nearBelow then (below, below + 1) else (below + 1, below)
  if inside first then some first else if inside second then some second else none

/-- Tries the grids of 1, 2, … significant digits; seventeen always suffice. -/
def shortest (significand : Nat) (exponent : Int) : Decimal :=
  let lead := leadingExponent significand exponent
  let grids := (List.range 17).map fun (n : Nat) => lead - (n : Int)
  match grids.findSome? fun g => (hit? significand exponent g).map fun k => (k, g) with
  | some (k, g) => ⟨k, g⟩
  | none => ⟨0, 0⟩

/-- How decimals are laid out. -/
structure Layout where
  /-- The point stands after digit number `n` in positional notation if `least < n ≤ most`. -/
  least : Int
  most : Int
  /-- What follows an integer in positional notation. -/
  integerSuffix : List Char
  exponentDigits : Nat
  notNumber : String
  infinity : String

def padLeft (width : Nat) (ds : List Char) : List Char :=
  List.replicate (width - ds.length) '0' ++ ds

def Layout.exponentText (layout : Layout) (e : Int) : List Char :=
  'e' :: (if e < 0 then '-' else '+') :: padLeft layout.exponentDigits (Nat.toDigits 10 e.natAbs)

/-- Digits with the decimal point after digit number `point`. -/
def Layout.digitText (layout : Layout) (ds : List Char) (point : Int) : List Char :=
  if layout.least < point && point ≤ layout.most then
    if point ≤ 0 then '0' :: '.' :: List.replicate point.natAbs '0' ++ ds
    else if ds.length ≤ point.toNat then
      ds ++ List.replicate (point.toNat - ds.length) '0' ++ layout.integerSuffix
    else ds.take point.toNat ++ '.' :: ds.drop point.toNat
  else
    match ds with
    | [] => []
    | [d] => d :: layout.exponentText (point - 1)
    | d :: rest => d :: '.' :: rest ++ layout.exponentText (point - 1)

def Layout.text (layout : Layout) : Binary64 → String
  | .nan => layout.notNumber
  | .infinite negative => (if negative then "-" else "") ++ layout.infinity
  | .finite negative s e =>
    let sign := if negative then ['-'] else []
    if s = 0 then String.ofList (sign ++ '0' :: layout.integerSuffix)
    else
      let d := shortest s e
      let ds := Nat.toDigits 10 d.digits
      let stripped := (ds.reverse.dropWhile (· = '0')).reverse
      String.ofList (sign ++ layout.digitText stripped (ds.length + d.exponent))

end Binary64

end ApiDoc.Number

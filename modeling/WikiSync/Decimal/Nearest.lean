/-!
# The double nearest to a rational number

`nearest num den` is the double closest to `num / den`, a tie going to the even mantissa, with
infinity beyond the largest finite double. It is computed in exact natural number arithmetic and
assembled from its bits, so that reading decimal text and scaling by powers of ten round exactly
once.
-/

namespace WikiSync.Decimal

/-- `⌊log₂ (num / den)⌋` for positive `num` and `den`. -/
def log2Ratio (num den : Nat) : Int :=
  let b0 : Int := (Nat.log2 num : Int) - (Nat.log2 den : Int)
  let below (b : Int) : Bool :=
    if 0 ≤ b then num < den * Nat.pow 2 b.toNat else num * Nat.pow 2 (-b).toNat < den
  if below b0 then b0 - 1 else b0

/-- `num / den` rounded to an integer, a tie going to the even neighbour. -/
def roundHalfEven (num den : Nat) : Nat :=
  let q := num / den
  let r := num % den
  if 2 * r > den || (2 * r == den && q % 2 == 1) then q + 1 else q

/-- The non-negative double nearest to `num / den`; zero when `num` is zero. -/
def nearest (num den : Nat) : Float :=
  if num == 0 || den == 0 then Float.ofBits 0
  else
    let b := log2Ratio num den
    -- the weight of the last mantissa bit: 2 ^ (b - 52) for normal numbers, 2 ^ -1074 below
    let unit : Int := if b < -1022 then -1074 else b - 52
    let q := if 0 ≤ unit then roundHalfEven num (den * Nat.pow 2 unit.toNat)
      else roundHalfEven (num * Nat.pow 2 (-unit).toNat) den
    if q < Nat.pow 2 52 then Float.ofBits q.toUInt64
    else
      -- rounding may carry into the next binade
      let (q, unit) := if q == Nat.pow 2 53 then (Nat.pow 2 52, unit + 1) else (q, unit)
      let field := unit + 1075
      if field ≥ 2047 then Float.ofBits 0x7FF0000000000000
      else Float.ofBits (field.toNat * Nat.pow 2 52 + (q - Nat.pow 2 52)).toUInt64

/-- The double nearest to `10 ^ k`. -/
def powTen (k : Nat) : Float :=
  nearest (Nat.pow 10 k) 1

/-- The double nearest to the decimal `digits · 10 ^ exp`, with its sign. -/
def ofDecimal (negative : Bool) (digits : Nat) (exp : Int) : Float :=
  let x := if 0 ≤ exp then nearest (digits * Nat.pow 10 exp.toNat) 1 else nearest digits (Nat.pow 10 (-exp).toNat)
  if negative then -x else x

end WikiSync.Decimal

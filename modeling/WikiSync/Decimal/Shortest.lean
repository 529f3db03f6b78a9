/-!
# Shortest decimal text of a double

A finite double `x = m · 2^e` stands for every real number that rounds to it: the interval whose
ends lie half-way to its two neighbours, ends included when `m` is even. The shortest decimal text
of `x` has the fewest significant digits of any decimal in that interval, and of two such
decimals the nearer to `x`, a tie going to the even digit. Everything is computed in exact natural
number arithmetic on `m`, `e` and powers of ten.

Two layouts write those digits: `scientific` leaves positional notation for an exponent once the
number has more than sixteen integer digits or more than five leading fraction zeros, and writes
`.0` after a whole number; `positional` never uses an exponent and writes no fraction for a whole
number.
-/

namespace WikiSync.Decimal

/-- A finite double split into sign, integer mantissa and binary exponent, so that its
magnitude is `mantissa · 2 ^ exponent`. -/
structure Binary where
  /-- The sign bit. -/
  negative : Bool
  /-- The integer mantissa, the hidden bit included for normal numbers. -/
  mantissa : Nat
  /-- The binary exponent of the last mantissa bit. -/
  exponent : Int
  /-- The next smaller double lies half as far away as the next larger one. -/
  narrowBelow : Bool

/-- Split a double into its parts. -/
def Binary.ofFloat (x : Float) : Binary :=
  let bits := x.toBits.toNat
  let field := (bits / Nat.pow 2 52) % 2048
  let frac := bits % Nat.pow 2 52
  let negative := bits / Nat.pow 2 63 == 1
  if field == 0 then ⟨negative, frac, -1074, false⟩
  else ⟨negative, frac + Nat.pow 2 52, Int.ofNat field - 1075, frac == 0 && field > 1⟩

/-- Compare `c · 10 ^ k` with `n · 2 ^ a`, exactly. -/
def compareScaled (c : Nat) (k : Int) (n : Nat) (a : Int) : Ordering :=
  compare (c * Nat.pow 10 k.toNat * Nat.pow 2 (-a).toNat) (n * Nat.pow 2 a.toNat * Nat.pow 10 (-k).toNat)

/-- `⌊n · 2 ^ a / 10 ^ k⌋`, exactly. -/
def floorScaled (n : Nat) (a : Int) (k : Int) : Nat :=
  (n * Nat.pow 2 a.toNat * Nat.pow 10 (-k).toNat) / (Nat.pow 2 (-a).toNat * Nat.pow 10 k.toNat)

/-- The decimal exponent `p` with `10 ^ p ≤ m · 2 ^ e < 10 ^ (p + 1)`, for `m > 0`. -/
def decimalExponent (m : Nat) (e : Int) : Int :=
  let b : Int := (Nat.log2 m : Int) + e
  let p0 := (b * 78913) / 262144
  let up (p : Int) : Int := if compareScaled 1 (p + 1) m e != .gt then p + 1 else p
  let down (p : Int) : Int := if compareScaled 1 p m e == .gt then p - 1 else p
  down (down (up (up p0)))

/-- Drop the trailing zeros of a digit string `d · 10 ^ k`, raising the exponent. -/
def stripZeros : Nat → Nat → Int → Nat × Int
  | 0, d, k => (d, k)
  | fuel + 1, d, k => if d ≠ 0 && d % 10 == 0 then stripZeros fuel (d / 10) (k + 1) else (d, k)

/-- The shortest decimal `d · 10 ^ k` that reads back as the positive double `m · 2 ^ e`. -/
def shortest (b : Binary) : Nat × Int :=
  let m := b.mantissa
  let a := b.exponent - 2
  let v := 4 * m
  let hi := 4 * m + 2
  let lo := if b.narrowBelow then 4 * m - 1 else 4 * m - 2
  let inclusive := m % 2 == 0
  let inside (c : Nat) (k : Int) : Bool :=
    let aboveLo := compareScaled c k lo a
    let belowHi := compareScaled c k hi a
    (aboveLo == .gt || (inclusive && aboveLo == .eq)) &&
      (belowHi == .lt || (inclusive && belowHi == .eq))
  let p := decimalExponent m b.exponent
  let pick (n : Nat) : Option (Nat × Int) :=
    let k : Int := p - n + 1
    let q := floorScaled v a k
    match inside q k, inside (q + 1) k with
    | true, true =>
      match compareScaled (2 * q + 1) k (2 * v) a with
      | .gt => some (q, k)
      | .lt => some (q + 1, k)
      | .eq => if q % 2 == 0 then some (q, k) else some (q + 1, k)
    | true, false => some (q, k)
    | false, true => some (q + 1, k)
    | false, false => none
  let found := ((List.range 17).map (· + 1)).findSome? pick
  let (d, k) := found.getD (floorScaled v a (p - 16), p - 16)
  stripZeros 20 d k

/-- A run of zero digits. -/
def zeros (n : Nat) : String :=
  String.ofList (List.replicate n '0')

/-- The decimal text of an integer, with a minus sign when negative. -/
def intText (n : Int) : String :=
  if n < 0 then "-" ++ Nat.repr n.natAbs else Nat.repr n.toNat

/-- An exponent with its sign always written: `+` when it is not negative. -/
def exponentText (e : Int) : String :=
  if e < 0 then intText e else "+" ++ intText e

/-- Shortest text in the scientific layout: positional for decimal exponents that leave at most
sixteen integer digits and at most five leading fraction zeros, `.0` after whole numbers,
otherwise one digit, a fraction if any, and `e` with the exponent, signed either way. -/
def scientific (x : Float) : String :=
  let b := Binary.ofFloat x
  let sign := if b.negative then "-" else ""
  if b.mantissa == 0 then sign ++ "0.0"
  else
    let (d, k) := shortest b
    let ds := Nat.repr d
    let len : Int := ds.length
    let kk := len + k
    let body :=
      if 0 ≤ k && kk ≤ 16 then ds ++ zeros k.toNat ++ ".0"
      else if 0 < kk && kk ≤ 16 then
        String.ofList (ds.toList.take kk.toNat) ++ "." ++ String.ofList (ds.toList.drop kk.toNat)
      else if -5 < kk && kk ≤ 0 then "0." ++ zeros (-kk).toNat ++ ds
      else if len == 1 then ds ++ "e" ++ exponentText (kk - 1)
      else
        String.ofList (ds.toList.take 1) ++ "." ++ String.ofList (ds.toList.drop 1) ++ "e" ++
          exponentText (kk - 1)
    sign ++ body

/-- Shortest text in the positional layout: never an exponent, and no fraction for whole
numbers. -/
def positional (x : Float) : String :=
  let b := Binary.ofFloat x
  let sign := if b.negative then "-" else ""
  if b.mantissa == 0 then sign ++ "0"
  else
    let (d, k) := shortest b
    let ds := Nat.repr d
    let len : Int := ds.length
    let kk := len + k
    let body :=
      if 0 ≤ k then ds ++ zeros k.toNat
      else if 0 < kk then
        String.ofList (ds.toList.take kk.toNat) ++ "." ++ String.ofList (ds.toList.drop kk.toNat)
      else "0." ++ zeros (-kk).toNat ++ ds
    sign ++ body

/-- Whether a double is neither infinite nor NaN. -/
def isFinite (x : Float) : Bool :=
  (x.toBits.toNat / Nat.pow 2 52) % 2048 != 2047

/-- Whether a double is NaN. -/
def isNaN (x : Float) : Bool :=
  (x.toBits.toNat / Nat.pow 2 52) % 2048 == 2047 && x.toBits.toNat % Nat.pow 2 52 != 0

/-- Whether a double has its sign bit set. -/
def signBit (x : Float) : Bool :=
  x.toBits.toNat / Nat.pow 2 63 == 1

end WikiSync.Decimal

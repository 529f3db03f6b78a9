/-!
# UTF-8 bytes

Files hold bytes; documents hold text. This module encodes text as UTF-8 and decodes bytes
back, either strictly (any ill-formed sequence rejects the whole input) or leniently, where each
ill-formed sequence becomes one replacement character `U+FFFD`.

An ill-formed sequence is the longest start of a well-formed sequence that the bytes offer, or
one byte when no well-formed sequence starts there; this is the "maximal subpart" rule of the
Unicode standard, so `F0 9F 98` followed by `41` decodes as `U+FFFD A`.
-/

namespace WikiSync.Utf8

/-- Whether a byte continues a multi-byte sequence (`10xxxxxx`). -/
def isTrail (b : UInt8) : Bool :=
  0x80 ≤ b && b ≤ 0xBF

/-- The payload bits of a trailing byte. -/
def trailBits (b : UInt8) : Nat :=
  b.toNat % 64

/-- The bytes of one character. -/
def encodeChar (c : Char) : List UInt8 :=
  let n := c.toNat
  if n < 0x80 then [n.toUInt8]
  else if n < 0x800 then [(0xC0 + n / 64).toUInt8, (0x80 + n % 64).toUInt8]
  else if n < 0x10000 then
    [(0xE0 + n / 4096).toUInt8, (0x80 + n / 64 % 64).toUInt8, (0x80 + n % 64).toUInt8]
  else
    [(0xF0 + n / 262144).toUInt8, (0x80 + n / 4096 % 64).toUInt8,
      (0x80 + n / 64 % 64).toUInt8, (0x80 + n % 64).toUInt8]

/-- The UTF-8 bytes of a text. -/
def encode (s : String) : List UInt8 :=
  s.toList.flatMap encodeChar

/-- Whether the second byte of a three-byte sequence fits its lead byte: no overlong forms and
no surrogates. -/
def secondOfThree (lead b : UInt8) : Bool :=
  if lead == 0xE0 then 0xA0 ≤ b && b ≤ 0xBF
  else if lead == 0xED then 0x80 ≤ b && b ≤ 0x9F
  else isTrail b

/-- Whether the second byte of a four-byte sequence fits its lead byte: no overlong forms and
nothing above `U+10FFFF`. -/
def secondOfFour (lead b : UInt8) : Bool :=
  if lead == 0xF0 then 0x90 ≤ b && b ≤ 0xBF
  else if lead == 0xF4 then 0x80 ≤ b && b ≤ 0x8F
  else isTrail b

/-- The first character of some bytes, or none for an ill-formed sequence, with the bytes after
it. At least one byte is consumed. -/
def next (b : UInt8) (rest : List UInt8) : Option Char × List UInt8 :=
  if b < 0x80 then (some (Char.ofNat b.toNat), rest)
  else if 0xC2 ≤ b && b ≤ 0xDF then
      match rest with
      | c :: rest' =>
        if isTrail c then (some (Char.ofNat ((b.toNat - 0xC0) * 64 + trailBits c)), rest')
        else (none, rest)
      | [] => (none, rest)
    else if 0xE0 ≤ b && b ≤ 0xEF then
      match rest with
      | c1 :: rest1 =>
        if !secondOfThree b c1 then (none, rest)
        else match rest1 with
          | c2 :: rest2 =>
            if isTrail c2 then
              (some (Char.ofNat ((b.toNat - 0xE0) * 4096 + trailBits c1 * 64 + trailBits c2)), rest2)
            else (none, rest1)
          | [] => (none, rest1)
      | [] => (none, rest)
    else if 0xF0 ≤ b && b ≤ 0xF4 then
      match rest with
      | c1 :: rest1 =>
        if !secondOfFour b c1 then (none, rest)
        else match rest1 with
          | c2 :: rest2 =>
            if !isTrail c2 then (none, rest1)
            else match rest2 with
              | c3 :: rest3 =>
                if isTrail c3 then
                  (some (Char.ofNat ((b.toNat - 0xF0) * 262144 + trailBits c1 * 4096
                    + trailBits c2 * 64 + trailBits c3)), rest3)
                else (none, rest2)
              | [] => (none, rest2)
          | [] => (none, rest1)
      | [] => (none, rest)
    else (none, rest)

/-- The bytes left after one step never outnumber those after the lead byte. -/
theorem next_rest_length (b : UInt8) (rest : List UInt8) : (next b rest).2.length ≤ rest.length := by
  unfold next
  repeat' split
  all_goals simp
  all_goals omega

/-- The characters of some bytes, each ill-formed sequence as `none`. -/
def chunks : List UInt8 → List (Option Char)
  | [] => []
  | b :: rest => (next b rest).1 :: chunks (next b rest).2
termination_by bs => bs.length
decreasing_by
  have := next_rest_length b rest
  simp only [List.length_cons]
  omega

/-- The text of some bytes, or none when they are not well-formed UTF-8. -/
def decode? (bs : List UInt8) : Option String :=
  (chunks bs).mapM id |>.map String.ofList

/-- The text of some bytes, each ill-formed sequence replaced by `U+FFFD`. -/
def decodeLossy (bs : List UInt8) : String :=
  String.ofList ((chunks bs).map fun c => c.getD '�')

end WikiSync.Utf8

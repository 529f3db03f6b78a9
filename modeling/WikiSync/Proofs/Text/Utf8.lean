import WikiSync.Text.Utf8

/-!
# Reading UTF-8 back

A character is written as one lead byte that says how many bytes follow, and one to three
trailing bytes of six payload bits each. Reading the lead byte and the bytes after it gives the
character back, whatever follows (`next_encodeChar`): the lead byte falls in the range of its
length, the trailing bytes are trailing bytes, and the second byte of a three- or four-byte
sequence passes the checks against overlong forms, surrogates and values above `U+10FFFF`
because the character is a Unicode scalar value. So the strict decoder reads the bytes of every
text back as the text (`decode?_encode`).
-/

namespace WikiSync.Utf8

theorem toNat_toUInt8 {k : Nat} (h : k < 256) : k.toUInt8.toNat = k := by
  simp [Nat.toUInt8, Nat.mod_eq_of_lt h]

/-! ## One character, by the length of its bytes -/

theorem next_one (n : Nat) (rest : List UInt8) (h1 : n < 0x80) :
    next n.toUInt8 rest = (some (Char.ofNat n), rest) := by
  have hb : n.toUInt8.toNat = n := toNat_toUInt8 (by omega)
  simp [next, UInt8.lt_iff_toNat_lt, hb, h1]

theorem next_two (n : Nat) (rest : List UInt8) (h1 : ¬ n < 0x80) (h2 : n < 0x800) :
    next (0xC0 + n / 64).toUInt8 ([(0x80 + n % 64).toUInt8] ++ rest) =
      (some (Char.ofNat n), rest) := by
  have hb : (0xC0 + n / 64).toUInt8.toNat = 0xC0 + n / 64 := toNat_toUInt8 (by omega)
  have hb1 : (0x80 + n % 64).toUInt8.toNat = 0x80 + n % 64 := toNat_toUInt8 (by omega)
  have hv : (0xC0 + n / 64 - 0xC0) * 64 + (0x80 + n % 64) % 64 = n := by omega
  simp only [next, isTrail, trailBits, UInt8.lt_iff_toNat_lt, UInt8.le_iff_toNat_le, hb, hb1,
    UInt8.reduceToNat, List.cons_append, List.nil_append]
  rw [if_neg (by omega), if_pos (by simp; omega), if_pos (by simp; omega), hv]

/-- The second byte of a three-byte sequence rules out overlong forms after `E0` and surrogates
after `ED`: a character from `U+0800` on that is no surrogate passes. -/
theorem next_three (n : Nat) (rest : List UInt8) (h2 : ¬ n < 0x800) (h3 : n < 0x10000)
    (hs : n < 0xd800 ∨ 0xdfff < n) :
    next (0xE0 + n / 4096).toUInt8
      ([(0x80 + n / 64 % 64).toUInt8, (0x80 + n % 64).toUInt8] ++ rest) =
      (some (Char.ofNat n), rest) := by
  have hb : (0xE0 + n / 4096).toUInt8.toNat = 0xE0 + n / 4096 := toNat_toUInt8 (by omega)
  have hb1 : (0x80 + n / 64 % 64).toUInt8.toNat = 0x80 + n / 64 % 64 := toNat_toUInt8 (by omega)
  have hb2 : (0x80 + n % 64).toUInt8.toNat = 0x80 + n % 64 := toNat_toUInt8 (by omega)
  have hv : (0xE0 + n / 4096 - 0xE0) * 4096 + (0x80 + n / 64 % 64) % 64 * 64 +
      (0x80 + n % 64) % 64 = n := by omega
  have hsecond :
      secondOfThree (0xE0 + n / 4096).toUInt8 (0x80 + n / 64 % 64).toUInt8 = true := by
    simp only [secondOfThree, isTrail, UInt8.le_iff_toNat_le, beq_iff_eq, ← UInt8.toNat_inj, hb,
      hb1, UInt8.reduceToNat]
    split <;> try split
    all_goals simp
    all_goals omega
  simp only [next, isTrail, trailBits, UInt8.lt_iff_toNat_lt, UInt8.le_iff_toNat_le, hb, hb1, hb2,
    UInt8.reduceToNat, List.cons_append, List.nil_append, hsecond, Bool.not_true]
  rw [if_neg (by omega), if_neg (by simp; omega), if_pos (by simp; omega), if_neg (by simp),
    if_pos (by simp; omega), hv]

/-- The second byte of a four-byte sequence rules out overlong forms after `F0` and values above
`U+10FFFF` after `F4`. -/
theorem next_four (n : Nat) (rest : List UInt8) (h3 : ¬ n < 0x10000) (h4 : n < 0x110000) :
    next (0xF0 + n / 262144).toUInt8
      ([(0x80 + n / 4096 % 64).toUInt8, (0x80 + n / 64 % 64).toUInt8, (0x80 + n % 64).toUInt8] ++
        rest) = (some (Char.ofNat n), rest) := by
  have hb : (0xF0 + n / 262144).toUInt8.toNat = 0xF0 + n / 262144 := toNat_toUInt8 (by omega)
  have hb1 : (0x80 + n / 4096 % 64).toUInt8.toNat = 0x80 + n / 4096 % 64 :=
    toNat_toUInt8 (by omega)
  have hb2 : (0x80 + n / 64 % 64).toUInt8.toNat = 0x80 + n / 64 % 64 := toNat_toUInt8 (by omega)
  have hb3 : (0x80 + n % 64).toUInt8.toNat = 0x80 + n % 64 := toNat_toUInt8 (by omega)
  have hv : (0xF0 + n / 262144 - 0xF0) * 262144 + (0x80 + n / 4096 % 64) % 64 * 4096 +
      (0x80 + n / 64 % 64) % 64 * 64 + (0x80 + n % 64) % 64 = n := by omega
  have hsecond :
      secondOfFour (0xF0 + n / 262144).toUInt8 (0x80 + n / 4096 % 64).toUInt8 = true := by
    simp only [secondOfFour, isTrail, UInt8.le_iff_toNat_le, beq_iff_eq, ← UInt8.toNat_inj, hb,
      hb1, UInt8.reduceToNat]
    split <;> try split
    all_goals simp
    all_goals omega
  simp only [next, isTrail, trailBits, UInt8.lt_iff_toNat_lt, UInt8.le_iff_toNat_le, hb, hb1, hb2,
    hb3, UInt8.reduceToNat, List.cons_append, List.nil_append, hsecond, Bool.not_true]
  rw [if_neg (by omega), if_neg (by simp; omega), if_neg (by simp; omega),
    if_pos (by simp; omega), if_neg (by simp), if_neg (by simp; omega), if_pos (by simp; omega), hv]

/-- The bytes of a character read back as the character, leaving what follows them. -/
theorem next_encodeChar (c : Char) (rest : List UInt8) :
    ∃ b bs, encodeChar c = b :: bs ∧ next b (bs ++ rest) = (some c, rest) := by
  have hvalid : c.toNat < 0xd800 ∨ (0xdfff < c.toNat ∧ c.toNat < 0x110000) := c.valid
  generalize hn : c.toNat = n at hvalid
  have hc : Char.ofNat n = c := by rw [← hn, Char.ofNat_toNat]
  unfold encodeChar
  rw [hn, ← hc]
  -- one case per length, as the encoder chooses it
  by_cases h1 : n < 0x80
  · exact ⟨_, [], by rw [if_pos h1], next_one n rest h1⟩
  by_cases h2 : n < 0x800
  · exact ⟨_, _, by rw [if_neg h1, if_pos h2], next_two n rest h1 h2⟩
  by_cases h3 : n < 0x10000
  · exact ⟨_, _, by rw [if_neg h1, if_neg h2, if_pos h3], next_three n rest h2 h3 (by omega)⟩
  · exact ⟨_, _, by rw [if_neg h1, if_neg h2, if_neg h3], next_four n rest h3 (by omega)⟩

/-! ## Texts -/

/-- The bytes of some characters, followed by more bytes, read as those characters first. -/
theorem chunks_flatMap_encodeChar (cs : List Char) (rest : List UInt8) :
    chunks (cs.flatMap encodeChar ++ rest) = cs.map some ++ chunks rest := by
  induction cs with
  | nil => rfl
  | cons c cs ih =>
    obtain ⟨b, bs, henc, hnext⟩ := next_encodeChar c (cs.flatMap encodeChar ++ rest)
    simp only [List.flatMap_cons, henc, List.cons_append, List.append_assoc]
    rw [chunks, hnext, ih]
    rfl

theorem mapM_some (cs : List Char) : cs.mapM some = some cs := by
  induction cs with
  | nil => rfl
  | cons c cs ih => simp [List.mapM_cons, ih]

/-- Strict decoding undoes encoding. -/
theorem decode?_encode (s : String) : decode? (encode s) = some s := by
  have hchunks : chunks (encode s) = s.toList.map some := by
    simpa [encode, chunks] using chunks_flatMap_encodeChar s.toList []
  rw [decode?, hchunks]
  simp [List.mapM_map, mapM_some]

end WikiSync.Utf8

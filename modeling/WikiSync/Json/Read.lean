import WikiSync.Json.Value
import WikiSync.Decimal.Nearest

/-!
# Reading JSON

A reader for JSON text that reports the first fault with its line and its byte column. Blanks are
space, tab, line feed and carriage return. Objects keep one member per key, ordered by key, the
last duplicate winning. Nesting deeper than 127 arrays or objects is refused.

Numbers follow one rule: an integer without fraction or exponent stays exact while it fits the
unsigned 64-bit range, or, when negative, the signed one; `-0` and every other number become a
double, built from at most nineteen significant digits by one multiplication or division by a
power of ten, and a double that overflows is an error.

A fault is reported at the reader's position after the characters it consumed, or, when it
judged only by looking at the next character, one byte further on.
-/

namespace WikiSync.Json

/-- What went wrong while reading JSON. -/
inductive Problem where
  | eofList
  | eofObject
  | eofString
  | eofValue
  | expectedColon
  | expectedListCommaOrEnd
  | expectedObjectCommaOrEnd
  | expectedIdent
  | expectedValue
  | invalidEscape
  | invalidNumber
  | numberOutOfRange
  | controlCharacter
  | keyMustBeString
  | loneLeadingSurrogate
  | trailingComma
  | trailingCharacters
  | unexpectedEndOfHexEscape
  | recursionLimit
  deriving DecidableEq, Repr

/-- The wording of a problem. -/
def Problem.text : Problem → String
  | .eofList => "EOF while parsing a list"
  | .eofObject => "EOF while parsing an object"
  | .eofString => "EOF while parsing a string"
  | .eofValue => "EOF while parsing a value"
  | .expectedColon => "expected `:`"
  | .expectedListCommaOrEnd => "expected `,` or `]`"
  | .expectedObjectCommaOrEnd => "expected `,` or `\x7d`"
  | .expectedIdent => "expected ident"
  | .expectedValue => "expected value"
  | .invalidEscape => "invalid escape"
  | .invalidNumber => "invalid number"
  | .numberOutOfRange => "number out of range"
  | .controlCharacter => "control character (\\u0000-\\u001F) found while parsing a string"
  | .keyMustBeString => "key must be a string"
  | .loneLeadingSurrogate => "lone leading surrogate in hex escape"
  | .trailingComma => "trailing comma"
  | .trailingCharacters => "trailing characters"
  | .unexpectedEndOfHexEscape => "unexpected end of hex escape"
  | .recursionLimit => "recursion limit exceeded"

/-- A reading fault and where it was found. -/
structure ReadError where
  /-- What went wrong. -/
  problem : Problem
  /-- The line, counted from one. -/
  line : Nat
  /-- The byte column within the line, counted from zero. -/
  column : Nat

/-- The message of a reading fault. -/
def ReadError.message (e : ReadError) : String :=
  e.problem.text ++ " at line " ++ Nat.repr e.line ++ " column " ++ Nat.repr e.column

/-- Where a reader stands: the characters left, and the line and byte column reached. -/
structure Cursor where
  /-- The characters not yet read. -/
  rest : List Char
  /-- The current line, counted from one. -/
  line : Nat
  /-- The byte offset within the current line. -/
  column : Nat

/-- A cursor at the start of a text. -/
def Cursor.start (s : String) : Cursor := ⟨s.toList, 1, 0⟩

/-- The cursor after one more character. -/
def Cursor.next (c : Cursor) : Cursor :=
  match c.rest with
  | [] => c
  | '\n' :: r => ⟨r, c.line + 1, 0⟩
  | ch :: r => ⟨r, c.line, c.column + ch.utf8Size⟩

/-- A fault at the cursor. -/
def Cursor.fail (c : Cursor) (p : Problem) : ReadError := ⟨p, c.line, c.column⟩

/-- A fault found by looking at the next character: one byte further on. -/
def Cursor.failAhead (c : Cursor) (p : Problem) : ReadError :=
  match c.rest with
  | [] => ⟨p, c.line, c.column⟩
  | '\n' :: _ => ⟨p, c.line + 1, 0⟩
  | _ => ⟨p, c.line, c.column + 1⟩

/-- Skip the blanks of JSON text. -/
def skipBlanksFrom : List Char → Nat → Nat → Cursor
  | ' ' :: r, l, col => skipBlanksFrom r l (col + 1)
  | '\t' :: r, l, col => skipBlanksFrom r l (col + 1)
  | '\r' :: r, l, col => skipBlanksFrom r l (col + 1)
  | '\n' :: r, l, _ => skipBlanksFrom r (l + 1) 0
  | r, l, col => ⟨r, l, col⟩

/-- The cursor after the blanks ahead of it. -/
def Cursor.skipBlanks (c : Cursor) : Cursor :=
  skipBlanksFrom c.rest c.line c.column

/-- The value of a hex digit. -/
def hexValue (c : Char) : Option Nat :=
  if '0' ≤ c && c ≤ '9' then some (c.val.toNat - 48)
  else if 'a' ≤ c && c ≤ 'f' then some (c.val.toNat - 87)
  else if 'A' ≤ c && c ≤ 'F' then some (c.val.toNat - 55)
  else none

/-- The value of four hex digits. -/
def hexValue4 (ds : List Char) : Option Nat :=
  ds.foldl (fun acc d => do let a ← acc; let v ← hexValue d; pure (16 * a + v)) (some 0)

/-- The character an escape letter stands for. -/
def simpleEscape (c : Char) : Option Char :=
  match c with
  | '"' => some '"'
  | '\\' => some '\\'
  | '/' => some '/'
  | 'b' => some (Char.ofNat 8)
  | 'f' => some (Char.ofNat 12)
  | 'n' => some '\n'
  | 'r' => some '\r'
  | 't' => some '\t'
  | _ => none

/-- Where a string reader is within an escape. -/
inductive Escape where
  /-- Outside any escape. -/
  | none
  /-- Just after a backslash. -/
  | backslash
  /-- Gathering the hex digits of a `\u` escape; `high` is a leading surrogate waiting for its
  partner. -/
  | hex (digits : List Char) (high : Option Nat)
  /-- After a leading surrogate, expecting the backslash of its partner. -/
  | wantBackslash (high : Nat)
  /-- After a leading surrogate and a backslash, expecting `u`. -/
  | wantU (high : Nat)

/-- The character of a code point known to be a scalar value. -/
def scalar (n : Nat) : Char := Char.ofNat n

/-- What a finished `\u` escape contributes: a character, a leading surrogate to pair, or a
fault. -/
def hexOutcome (n : Nat) (high : Option Nat) : Except Problem (Option Char ⊕ Nat) :=
  match high with
  | none =>
    if 0xDC00 ≤ n && n ≤ 0xDFFF then .error .loneLeadingSurrogate
    else if 0xD800 ≤ n && n ≤ 0xDBFF then .ok (.inr n)
    else .ok (.inl (some (scalar n)))
  | some h =>
    if 0xDC00 ≤ n && n ≤ 0xDFFF then
      .ok (.inl (some (scalar ((h - 0xD800) * 0x400 + (n - 0xDC00) + 0x10000))))
    else .error .loneLeadingSurrogate

/-- The line and column one byte into a character: a fault is reported there when the
character read is the wrong one. -/
def intoChar (c : Char) (l col : Nat) : Nat × Nat :=
  if c == '\n' then (l + 1, 0) else (l, col + 1)

/-- The line and column after `n` more bytes of `cs`, or `none` when fewer are left. -/
def bytesAhead : Nat → List Char → Nat → Nat → Option (Nat × Nat)
  | 0, _, l, col => some (l, col)
  | _ + 1, [], _, _ => none
  | n + 1, c :: r, l, col =>
    if c == '\n' then bytesAhead n r (l + 1) 0
    else if c.utf8Size ≤ n + 1 then bytesAhead (n + 1 - c.utf8Size) r l (col + c.utf8Size)
    else some (l, col + n + 1)

/-- The line and column at the end of `cs`. -/
def endOf : List Char → Nat → Nat → Nat × Nat
  | [], l, col => (l, col)
  | c :: r, l, col => if c == '\n' then endOf r (l + 1) 0 else endOf r l (col + c.utf8Size)

/-- The fault of a `\u` escape whose digits are not all hex: the four bytes after the `u` are
taken as a block, so the fault stands after them, or at the end of the text when fewer than
four are left. `cs` starts at the first byte not yet taken, `taken` bytes after the `u`. -/
def hexFault (taken : Nat) (cs : List Char) (l col : Nat) : ReadError :=
  match bytesAhead (4 - taken) cs l col with
  | some (l', col') => ⟨.invalidEscape, l', col'⟩
  | none => let (l', col') := endOf cs l col; ⟨.eofString, l', col'⟩

/-- Read the rest of a string after its opening quote, one character at a time; `acc` holds the
characters read, reversed. A fault at a character is reported one byte into it. -/
def readStringFrom : List Char → Nat → Nat → Escape → List Char →
    Except ReadError (String × Cursor)
  | [], l, col, _, _ => .error ⟨.eofString, l, col⟩
  | c :: r, l, col, .none, acc =>
    let col' := col + c.utf8Size
    if c == '"' then .ok (String.ofList acc.reverse, ⟨r, l, col'⟩)
    else if c == '\\' then readStringFrom r l col' .backslash acc
    else if c.val < 0x20 then
      let (l', col'') := intoChar c l col
      .error ⟨.controlCharacter, l', col''⟩
    else readStringFrom r l col' .none (c :: acc)
  | c :: r, l, col, .backslash, acc =>
    let col' := col + c.utf8Size
    if c == 'u' then readStringFrom r l col' (.hex [] none) acc
    else match simpleEscape c with
      | some e => readStringFrom r l col' .none (e :: acc)
      | none =>
        let (l', col'') := intoChar c l col
        .error ⟨.invalidEscape, l', col''⟩
  | c :: r, l, col, .hex ds high, acc =>
    if (hexValue c).isNone then .error (hexFault ds.length (c :: r) l col)
    else
    let col' := col + 1
    let ds := ds ++ [c]
    if ds.length < 4 then readStringFrom r l col' (.hex ds high) acc
    else match hexValue4 ds with
      | none => .error ⟨.invalidEscape, l, col'⟩
      | some n =>
        match hexOutcome n high with
        | .error p => .error ⟨p, l, col'⟩
        | .ok (.inl (some ch)) => readStringFrom r l col' .none (ch :: acc)
        | .ok (.inl none) => readStringFrom r l col' .none acc
        | .ok (.inr h) => readStringFrom r l col' (.wantBackslash h) acc
  | c :: r, l, col, .wantBackslash h, acc =>
    if c == '\\' then readStringFrom r l (col + 1) (.wantU h) acc
    else
      let (l', col') := intoChar c l col
      .error ⟨.unexpectedEndOfHexEscape, l', col'⟩
  | c :: r, l, col, .wantU h, acc =>
    if c == 'u' then readStringFrom r l (col + 1) (.hex [] (some h)) acc
    else
      let (l', col') := intoChar c l col
      .error ⟨.unexpectedEndOfHexEscape, l', col'⟩

/-- Read a string whose opening quote is just behind the cursor. -/
def readString (c : Cursor) : Except ReadError (String × Cursor) :=
  readStringFrom c.rest c.line c.column .none []

/-- Check the letters of `null`, `true` or `false` after their first one. -/
def readIdent : List Char → Cursor → Except ReadError Cursor
  | [], c => .ok c
  | x :: xs, c =>
    match c.rest with
    | [] => .error (c.fail .eofValue)
    | y :: _ => if x == y then readIdent xs c.next else .error (c.failAhead .expectedIdent)

/-- The largest unsigned 64-bit integer. -/
def u64Max : Nat := 18446744073709551615

/-- Whether appending a digit to a 64-bit significand overflows it. -/
def overflows (sig d : Nat) : Bool :=
  sig ≥ u64Max / 10 && (sig > u64Max / 10 || d > u64Max % 10)

/-- The leading decimal digits ahead of a cursor, and the cursor after them. -/
def spanDigits : List Char → Nat → Nat → List Nat → List Nat × Cursor
  | d :: r, l, col, acc =>
    if d.isDigit then spanDigits r l (col + 1) ((d.val.toNat - 48) :: acc)
    else (acc.reverse, ⟨d :: r, l, col⟩)
  | [], l, col, acc => (acc.reverse, ⟨[], l, col⟩)

/-- Fold digits into a 64-bit significand until one would overflow it: the significand, the
number of digits taken, and whether one was refused. -/
def takeSignificand : Nat → Nat → List Nat → Nat × Nat × Bool
  | sig, n, [] => (sig, n, false)
  | sig, n, d :: ds => if overflows sig d then (sig, n, true) else takeSignificand (sig * 10 + d) (n + 1) ds

/-- Scale a significand by a power of ten the way the number reader does: one multiplication or
division by the double nearest that power, after dividing by `10^308` as long as the power is
out of the table; an infinite product is an overflow. -/
def scaleByTen : Nat → Float → Int → Except Problem Float
  | 0, f, _ => .ok f
  | fuel + 1, f, e =>
    if e.natAbs ≤ 308 then
      if 0 ≤ e then
        let g := f * Decimal.powTen e.toNat
        if g.isInf then .error .numberOutOfRange else .ok g
      else .ok (f / Decimal.powTen e.natAbs)
    else if f == 0 then .ok f
    else if 0 ≤ e then .error .numberOutOfRange
    else scaleByTen fuel (f / Decimal.powTen 308) (e + 308)

/-- The double for a sign, a significand and a decimal exponent. Four rounds of scaling are
enough: a 64-bit significand divided twice by `10^308` is zero. -/
def fromParts (positive : Bool) (sig : Nat) (e : Int) : Except Problem Float :=
  match scaleByTen 4 (Float.ofNat sig) e with
  | .ok f => .ok (if positive then f else -f)
  | .error p => .error p

/-- Clamp to the signed 32-bit range. -/
def clampI32 (n : Int) : Int :=
  if n > 2147483647 then 2147483647 else if n < -2147483648 then -2147483648 else n

/-- Whether appending a digit to a 32-bit exponent overflows it. -/
def expOverflows (e d : Nat) : Bool :=
  e ≥ 214748364 && (e > 214748364 || d > 7)

/-- Finish a double from its parts at the cursor. -/
def finishFloat (positive : Bool) (sig : Nat) (e : Int) (c : Cursor) :
    Except ReadError (Number × Cursor) :=
  match fromParts positive sig e with
  | .ok f => .ok (.float f, c)
  | .error p => .error (c.fail p)

/-- Fold exponent digits after the first into a 32-bit exponent: the exponent, the number of
digits consumed, and whether the last one consumed overflowed it. -/
def takeExponent : Nat → Nat → List Nat → Nat × Nat × Bool
  | e, n, [] => (e, n, false)
  | e, n, d :: ds => if expOverflows e d then (e, n + 1, true) else takeExponent (e * 10 + d) (n + 1) ds

/-- Read an exponent after its `e`, for a significand and the exponent gathered so far. An
exponent too large for 32 bits is an overflow unless the significand is zero or the exponent
negative, and then the number is zero. -/
def readExponent (positive : Bool) (sig : Nat) (start : Int) (c : Cursor) :
    Except ReadError (Number × Cursor) :=
  let (positiveExp, c) :=
    match c.rest with
    | '+' :: _ => (true, c.next)
    | '-' :: _ => (false, c.next)
    | _ => (true, c)
  match c.rest with
  | [] => .error (c.fail .eofValue)
  | d :: _ =>
    if !d.isDigit then .error (c.failAhead .invalidNumber)
    else
      let (ds, after) := spanDigits c.rest c.line c.column []
      let (e, consumed, spilled) := takeExponent (ds.headD 0) 1 (ds.drop 1)
      if spilled then
        if sig != 0 && positiveExp then .error ⟨.numberOutOfRange, c.line, c.column + consumed⟩
        else .ok (.float (if positive then 0.0 else -0.0), after)
      else
        let final := clampI32 (if positiveExp then start + e else start - e)
        finishFloat positive sig final after

/-- Read a fraction after its point, for a significand and the exponent gathered so far. -/
def readFraction (positive : Bool) (sig : Nat) (start : Int) (c : Cursor) :
    Except ReadError (Number × Cursor) :=
  let (ds, after) := spanDigits c.rest c.line c.column []
  let (sig', taken, spilled) := takeSignificand sig 0 ds
  if !spilled && taken == 0 then
    match after.rest with
    | [] => .error (after.failAhead .eofValue)
    | _ => .error (after.failAhead .invalidNumber)
  else
    let e := start - taken
    match after.rest with
    | 'e' :: _ => readExponent positive sig' e after.next
    | 'E' :: _ => readExponent positive sig' e after.next
    | _ => finishFloat positive sig' e after

/-- Read a number whose sign, if any, is behind the cursor. -/
def readNumber (positive : Bool) (c : Cursor) : Except ReadError (Number × Cursor) :=
  match c.rest with
  | [] => .error (c.fail .eofValue)
  | d :: r =>
    if d == '0' then
      match r with
      | x :: _ => if x.isDigit then .error (c.next.failAhead .invalidNumber)
        else readAfterInteger positive 0 0 false c.next
      | [] => readAfterInteger positive 0 0 false c.next
    else if d.isDigit then
      let (ds, after) := spanDigits c.rest c.line c.column []
      let (sig, taken, spilled) := takeSignificand 0 0 ds
      readAfterInteger positive sig (if spilled then (ds.length - taken : Nat) else 0) spilled after
    else .error (c.failAhead .invalidNumber)
where
  /-- Continue after the integer digits: `extra` digits did not fit the significand. -/
  readAfterInteger (positive : Bool) (sig extra : Nat) (spilled : Bool) (c : Cursor) :
      Except ReadError (Number × Cursor) :=
    match c.rest with
    | '.' :: _ => readFraction positive sig extra c.next
    | 'e' :: _ => readExponent positive sig extra c.next
    | 'E' :: _ => readExponent positive sig extra c.next
    | _ =>
      if spilled then finishFloat positive sig extra c
      else if positive then .ok (.int sig, c)
      else if sig == 0 then .ok (.float (-0.0), c)
      else if sig ≤ Nat.pow 2 63 then .ok (.int (-(sig : Int)), c)
      else .ok (.float (-(Float.ofNat sig)), c)

mutual

/-- Read one value, with `fuel` bounding the work and `depth` the nesting still allowed. -/
def readValue : Nat → Nat → Cursor → Except ReadError (Json × Cursor)
  | 0, _, c => .error (c.fail .eofValue)
  | fuel + 1, depth, c =>
    let c := c.skipBlanks
    match c.rest with
    | [] => .error (c.failAhead .eofValue)
    | 'n' :: _ => (readIdent ['u', 'l', 'l'] c.next).map fun c => (.null, c)
    | 't' :: _ => (readIdent ['r', 'u', 'e'] c.next).map fun c => (.bool true, c)
    | 'f' :: _ => (readIdent ['a', 'l', 's', 'e'] c.next).map fun c => (.bool false, c)
    | '-' :: _ => (readNumber false c.next).map fun (n, c) => (.num n, c)
    | '"' :: _ => (readString c.next).map fun (s, c) => (.str s, c)
    | '[' :: _ =>
      if depth ≤ 1 then .error (c.failAhead .recursionLimit)
      else readItems fuel (depth - 1) c.next true []
    | '{' :: _ =>
      if depth ≤ 1 then .error (c.failAhead .recursionLimit)
      else readMembers fuel (depth - 1) c.next true []
    | d :: _ =>
      if d.isDigit then (readNumber true c).map fun (n, c) => (.num n, c)
      else .error (c.failAhead .expectedValue)

/-- Read the items of an array after its opening bracket; `acc` holds them reversed. -/
def readItems : Nat → Nat → Cursor → Bool → List Json → Except ReadError (Json × Cursor)
  | 0, _, c, _, _ => .error (c.fail .eofList)
  | fuel + 1, depth, c, first, acc =>
    let c := c.skipBlanks
    match c.rest with
    | [] => .error (c.failAhead .eofList)
    | ']' :: _ => .ok (.arr acc.reverse, c.next)
    | ',' :: _ =>
      if first then itemAt fuel depth c acc
      else
        let c := c.next.skipBlanks
        match c.rest with
        | [] => .error (c.failAhead .eofValue)
        | ']' :: _ => .error (c.failAhead .trailingComma)
        | _ => itemAt fuel depth c acc
    | _ => if first then itemAt fuel depth c acc else .error (c.failAhead .expectedListCommaOrEnd)

/-- Read one array item at the cursor and go on with the rest of the array. -/
def itemAt : Nat → Nat → Cursor → List Json → Except ReadError (Json × Cursor)
  | 0, _, c, _ => .error (c.fail .eofList)
  | fuel + 1, depth, c, acc =>
    match readValue fuel depth c with
    | .error e => .error e
    | .ok (v, c) => readItems fuel depth c false (v :: acc)

/-- Read the members of an object after its opening brace. -/
def readMembers : Nat → Nat → Cursor → Bool → List (String × Json) →
    Except ReadError (Json × Cursor)
  | 0, _, c, _, _ => .error (c.fail .eofObject)
  | fuel + 1, depth, c, first, acc =>
    let c := c.skipBlanks
    match c.rest with
    | [] => .error (c.failAhead .eofObject)
    | '}' :: _ => .ok (.obj acc, c.next)
    | ',' :: _ =>
      if first then .error (c.failAhead .keyMustBeString)
      else
        let c := c.next.skipBlanks
        match c.rest with
        | [] => .error (c.failAhead .eofValue)
        | '}' :: _ => .error (c.failAhead .trailingComma)
        | '"' :: _ => memberAt fuel depth c acc
        | _ => .error (c.failAhead .keyMustBeString)
    | '"' :: _ => if first then memberAt fuel depth c acc
      else .error (c.failAhead .expectedObjectCommaOrEnd)
    | _ => if first then .error (c.failAhead .keyMustBeString)
      else .error (c.failAhead .expectedObjectCommaOrEnd)

/-- Read one member, its key starting at the cursor, and go on with the rest of the object. -/
def memberAt : Nat → Nat → Cursor → List (String × Json) → Except ReadError (Json × Cursor)
  | 0, _, c, _ => .error (c.fail .eofObject)
  | fuel + 1, depth, c, acc =>
    match readString c.next with
    | .error e => .error e
    | .ok (k, c) =>
      let c := c.skipBlanks
      match c.rest with
      | [] => .error (c.failAhead .eofObject)
      | ':' :: _ =>
        match readValue fuel depth c.next with
        | .error e => .error e
        | .ok (v, c) => readMembers fuel depth c false (insertMember k v acc)
      | _ => .error (c.failAhead .expectedColon)

end

/-- Read a whole text as one JSON value; only blanks may follow it. -/
def parse (s : String) : Except ReadError Json :=
  let c := Cursor.start s
  match readValue (4 * s.length + 4) 128 c with
  | .error e => .error e
  | .ok (v, c) =>
    let c := c.skipBlanks
    match c.rest with
    | [] => .ok v
    | _ => .error (c.failAhead .trailingCharacters)

end WikiSync.Json

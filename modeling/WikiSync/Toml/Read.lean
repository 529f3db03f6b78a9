import WikiSync.Toml.Value
import WikiSync.Toml.Quoting
import WikiSync.Decimal.Nearest

/-!
# Reading TOML

A recursive-descent reader for TOML 1.0 documents. Every failure carries the position where
reading stopped and the context it passed through on the way out: the names of what was being
read (`key`, `table header`, `basic string`, ...), what would have been accepted there, and the
cause when a value was read but could not stand. Failures are either soft, letting an
alternative be tried, or hard, ending the read; the message names the innermost context.

A document is built table by table. Key/value lines fill the current table; a header closes it
into the document and opens another. Defining a key twice, reopening a table that was defined by
a header or by dotted keys, and extending a value with dotted keys are refused with the key and
the table it was in.
-/

namespace WikiSync.Toml

/-- A failure while reading, with the context it passed through. -/
structure Failure where
  /-- Where reading stopped, in characters from the start. -/
  pos : Nat
  /-- What was being read, innermost first. -/
  labels : List String := []
  /-- What would have been accepted. -/
  expected : List String := []
  /-- Why a value that was read cannot stand. -/
  cause : Option String := none
  /-- Whether no alternative may be tried. -/
  hard : Bool := false
  deriving Inhabited

namespace Failure

/-- Note what was being read. -/
def label (f : Failure) (l : String) : Failure := { f with labels := f.labels ++ [l] }

/-- Note what would have been accepted. -/
def expect (f : Failure) (es : List String) : Failure := { f with expected := f.expected ++ es }

/-- Forbid alternatives. -/
def harden (f : Failure) : Failure := { f with hard := true }

/-- The message: the innermost thing being read, what was expected, and the cause. -/
def message (f : Failure) : String :=
  let parts := (f.labels.head?.map ("invalid " ++ ·)).toList ++
    (if f.expected.isEmpty then [] else ["expected " ++ ", ".intercalate f.expected]) ++
    f.cause.toList
  "\n".intercalate parts

end Failure

/-- Where reading stands: the characters left and how many came before. -/
structure Cursor where
  /-- The characters not yet read. -/
  rest : List Char
  /-- The number of characters read. -/
  pos : Nat
  deriving Inhabited

namespace Cursor

/-- The next character. -/
def peek? (c : Cursor) : Option Char := c.rest.head?

/-- Skip `n` characters. -/
def skip (c : Cursor) (n : Nat) : Cursor := ⟨c.rest.drop n, c.pos + min n c.rest.length⟩

/-- Skip the characters that satisfy `p`. -/
def skipWhile (c : Cursor) (p : Char → Bool) : Cursor := c.skip (c.rest.takeWhile p).length

/-- Whether the characters ahead start with a text. -/
def sees (c : Cursor) (s : String) : Bool := s.toList.isPrefixOf c.rest

/-- A soft failure here. -/
def fail (c : Cursor) : Failure := { pos := c.pos }

/-- The text read from this cursor up to a later one. -/
def upTo (c later : Cursor) : String := String.ofList (c.rest.take (later.pos - c.pos))

end Cursor

/-- A blank within a line. -/
def isBlank (c : Char) : Bool := c == ' ' || c == '\t'

/-- A hexadecimal digit. -/
def isHexDigit (c : Char) : Bool :=
  isDigit c || ('a' ≤ c && c ≤ 'f') || ('A' ≤ c && c ≤ 'F')

/-- An octal digit. -/
def isOctDigit (c : Char) : Bool := '0' ≤ c && c ≤ '7'

/-- A binary digit. -/
def isBinDigit (c : Char) : Bool := c == '0' || c == '1'

/-- A character beyond ASCII. -/
def isNonAscii (c : Char) : Bool := c.toNat ≥ 0x80

/-- A character allowed in a comment. -/
def isCommentChar (c : Char) : Bool :=
  c == '\t' || (0x20 ≤ c.toNat && c.toNat ≤ 0x7E) || isNonAscii c

/-- A character standing for itself in a basic string. -/
def isBasicChar (c : Char) : Bool :=
  isBlank c || c.toNat == 0x21 || (0x23 ≤ c.toNat && c.toNat ≤ 0x5B) ||
    (0x5D ≤ c.toNat && c.toNat ≤ 0x7E) || isNonAscii c

/-- A character of a literal string. -/
def isLiteralChar (c : Char) : Bool :=
  c == '\t' || (0x20 ≤ c.toNat && c.toNat ≤ 0x26) || (0x28 ≤ c.toNat && c.toNat ≤ 0x7E) ||
    isNonAscii c

/-! ## Blanks, comments and line ends -/

/-- Skip blanks. -/
def blanks (c : Cursor) : Cursor := c.skipWhile isBlank

/-- Skip a comment, if one starts here. -/
def comment? (c : Cursor) : Option Cursor :=
  if c.peek? == some '#' then some ((c.skip 1).skipWhile isCommentChar) else none

/-- Skip a line break: a line feed, or a carriage return and a line feed. -/
def newline? (c : Cursor) : Option Cursor :=
  match c.rest with
  | '\n' :: _ => some (c.skip 1)
  | '\r' :: '\n' :: _ => some (c.skip 2)
  | _ => none

/-- Skip a line break, or stay at the end of the text. -/
def lineEnd? (c : Cursor) : Option Cursor :=
  if c.rest.isEmpty then some c else newline? c

/-- The rest of a line after a value or header: blanks, a comment, and the line's end. -/
def lineTrailing (c : Cursor) : Except Failure Cursor :=
  let c := blanks c
  let c := (comment? c).getD c
  match lineEnd? c with
  | some c => .ok c
  | none => .error (c.fail.expect ["newline", "`#`"])

/-- Skip blanks, line breaks and comments. -/
def blankLines : Nat → Cursor → Cursor
  | 0, c => c
  | fuel + 1, c =>
    let c := blanks c
    match newline? c with
    | some c' => blankLines fuel c'
    | none => match comment? c with
      | some c' => blankLines fuel c'
      | none => c

/-! ## Strings -/

/-- The value of a hexadecimal digit. -/
def hexDigitValue (c : Char) : Nat :=
  if isDigit c then c.toNat - 48
  else if 'a' ≤ c && c ≤ 'f' then c.toNat - 87
  else c.toNat - 55

/-- The value of digits in a base. -/
def digitsValue (base : Nat) (ds : List Char) : Nat :=
  ds.foldl (fun acc d => acc * base + hexDigitValue d) 0

/-- Whether a number names a Unicode scalar value. -/
def isScalar (n : Nat) : Bool := n < 0xD800 || (0xE000 ≤ n && n ≤ 0x10FFFF)

/-- The character of a `\u` or `\U` escape: exactly `n` hex digits naming a scalar value. -/
def hexEscape (n : Nat) (what : String) (c : Cursor) : Except Failure (Char × Cursor) :=
  let ds := (c.rest.take n).takeWhile isHexDigit
  let v := digitsValue 16 ds
  if ds.length != n then .error (c.fail.label what).harden
  else if isScalar v then .ok (Char.ofNat v, c.skip n)
  else .error { (c.fail.label what) with cause := "value is out of range", hard := true }

/-- The failure of an unknown escape. -/
def badEscape (c : Cursor) : Failure :=
  (c.fail.label "escape sequence").expect
    ["`b`", "`f`", "`n`", "`r`", "`t`", "`u`", "`U`", "`\\`", "`\"`"] |>.harden

/-- The character an escape stands for; the cursor is after the backslash. -/
def escape (c : Cursor) : Except Failure (Char × Cursor) :=
  match c.rest with
  | [] => .error c.fail
  | e :: _ =>
    let c' := c.skip 1
    match e with
    | 'b' => .ok (Char.ofNat 8, c')
    | 'f' => .ok (Char.ofNat 12, c')
    | 'n' => .ok ('\n', c')
    | 'r' => .ok ('\r', c')
    | 't' => .ok ('\t', c')
    | '\\' => .ok ('\\', c')
    | '"' => .ok ('"', c')
    | 'u' => hexEscape 4 "unicode 4-digit hex code" c'
    | 'U' => hexEscape 8 "unicode 8-digit hex code" c'
    -- the escape letter is taken as one byte, so the fault stands after it when it is ASCII
    -- and on it otherwise
    | _ => .error (badEscape (if e.utf8Size == 1 then c' else c))

/-- The body of a basic string up to its closing quote. -/
def basicBody : Nat → Cursor → List Char → Except Failure (String × Cursor)
  | 0, c, _ => .error (c.fail.label "basic string").harden
  | fuel + 1, c, acc =>
    match c.rest with
    | '"' :: _ => .ok (String.ofList acc.reverse, c.skip 1)
    | '\\' :: _ =>
      match escape (c.skip 1) with
      | .ok (ch, c') => basicBody fuel c' (ch :: acc)
      -- a backslash ending the text is not an escape: the string ends unclosed before it
      | .error f => .error (if f.hard then f else (c.fail.label "basic string").harden)
    | ch :: _ =>
      if isBasicChar ch then basicBody fuel (c.skip 1) (ch :: acc)
      else .error (c.fail.label "basic string").harden
    | [] => .error (c.fail.label "basic string").harden

/-- A basic string; the cursor is at its opening quote. -/
def basicString (c : Cursor) : Except Failure (String × Cursor) :=
  basicBody (c.rest.length + 1) (c.skip 1) []

/-- A literal string; the cursor is at its opening apostrophe. -/
def literalString (c : Cursor) : Except Failure (String × Cursor) :=
  let start := c.skip 1
  let c' := start.skipWhile isLiteralChar
  if c'.peek? == some '\'' then .ok (start.upTo c', c'.skip 1)
  else .error (c'.fail.label "literal string").harden

/-- The number of a character at the front of a list, in a row. -/
def runOf (q : Char) (cs : List Char) : Nat := (cs.takeWhile (· == q)).length

/-- Skip blanks and line breaks. -/
def blanksAndBreaks : Nat → Cursor → Cursor
  | 0, c => c
  | fuel + 1, c =>
    let c := blanks c
    match newline? c with
    | some c' => blanksAndBreaks fuel c'
    | none => c

/-- One piece of a multi-line string's body other than its quotes: a character, a line break,
a line-ending backslash with the blanks and breaks after it, or an escape. A soft failure means
that no piece starts here. -/
def multiPiece (escapes : Bool) (ok : Char → Bool) (c : Cursor) :
    Except Failure (List Char × Cursor) :=
  match c.rest with
  | [] => .error c.fail
  | ch :: more =>
    if escapes && ch == '\\' then
      let after := blanks (c.skip 1)
      match newline? after with
      | some c' => .ok ([], blanksAndBreaks c'.rest.length c')
      | none =>
        match escape (c.skip 1) with
        | .ok (e, c') => .ok ([e], c')
        | .error f => .error (if f.hard then f else c.fail)
    else if ch == '\n' then .ok (['\n'], c.skip 1)
    else if ch == '\r' && more.head? == some '\n' then .ok (['\n'], c.skip 2)
    else if ok ch then .ok ([ch], c.skip 1)
    else .error c.fail

/-- The body of a multi-line string up to its closing delimiter of three `q`. One or two `q`
inside the body belong to it only when a piece of the body follows them, and up to two `q`
before the delimiter belong to it; the string fails where anything else stands. That is where
the run of quotes starts, except that in a basic string (with `escapes`) quotes followed by a
character are passed over, and the failure stands at that character. With `escapes`,
backslashes escape characters, and one at the end of a line joins it with the next non-blank
text. -/
def multiBody (q : Char) (escapes : Bool) (ok : Char → Bool) (what : String) :
    Nat → Cursor → List Char → Except Failure (String × Cursor)
  | 0, c, _ => .error (c.fail.label what).harden
  | fuel + 1, c, acc =>
    let k := runOf q c.rest
    if k ≥ 3 then
      let extra := min (k - 3) 2
      .ok (String.ofList (acc.reverse ++ List.replicate extra q), c.skip (extra + 3))
    else
      match multiPiece escapes ok (c.skip k) with
      | .ok (s, c') =>
        multiBody q escapes ok what fuel c' (s.reverse ++ List.replicate k q ++ acc)
      | .error f =>
        let spot := if escapes && !(c.skip k).rest.isEmpty then c.skip k else c
        .error (if f.hard then f.label what else (spot.fail.label what).harden)

/-- A multi-line string; the cursor is at its opening delimiter. -/
def multiString (q : Char) (escapes : Bool) (ok : Char → Bool) (what : String) (c : Cursor) :
    Except Failure (String × Cursor) :=
  let c := c.skip 3
  let c := (newline? c).getD c
  multiBody q escapes ok what (c.rest.length + 1) c []

/-- Any string; the cursor is at its opening quote. -/
def string (c : Cursor) : Except Failure (String × Cursor) :=
  if c.sees "\"\"\"" then multiString '"' true isBasicChar "multiline basic string" c
  else if c.peek? == some '"' then basicString c
  else if c.sees "'''" then multiString '\'' false isLiteralChar "multiline literal string" c
  else literalString c

/-! ## Keys -/

/-- A bare or quoted key. -/
def simpleKey (c : Cursor) : Except Failure (Key × Cursor) :=
  match c.peek? with
  | some '"' => do let (s, c') ← basicString c; pure (⟨c.upTo c', s⟩, c')
  | some '\'' => do let (s, c') ← literalString c; pure (⟨c.upTo c', s⟩, c')
  | _ =>
    let c' := c.skipWhile isBareKeyChar
    if c'.pos == c.pos then .error c.fail else .ok (⟨c.upTo c', c.upTo c'⟩, c')

/-- More parts of a dotted key. A dot not followed by a key is left unread. -/
def keyParts : Nat → Cursor → List Key → Except Failure (List Key × Cursor)
  | 0, c, acc => .ok (acc.reverse, c)
  | fuel + 1, c, acc =>
    if c.peek? == some '.' then
      match simpleKey (blanks (c.skip 1)) with
      | .ok (k, c') => keyParts fuel (blanks c') (k :: acc)
      | .error f => if f.hard then .error (f.label "key") else .ok (acc.reverse, c)
    else .ok (acc.reverse, c)

/-- The most parts a dotted key, and the most arrays and inline tables a value, may nest. -/
def nestingLimit : Nat := 80

/-- The failure of a key or value nested too deeply. -/
def tooDeep (c : Cursor) : Failure := { c.fail with cause := "recursion limit exceeded" }

/-- A key, possibly dotted, with the blanks around its parts. A key of too many parts is a soft
failure where it starts. -/
def key (c : Cursor) : Except Failure (List Key × Cursor) :=
  match simpleKey (blanks c) with
  | .error f => .error (f.label "key")
  | .ok (k, c') =>
    match keyParts c'.rest.length (blanks c') [k] with
    | .ok (ks, c'') => if ks.length < nestingLimit then .ok (ks, c'') else .error (tooDeep c)
    | .error f => .error f

/-! ## Numbers and dates -/

/-- Digits with single underscores between them; a `_` not followed by a digit is final. -/
def digitRun (isD : Char → Bool) : Nat → Cursor → Except Failure Cursor
  | 0, c => .ok c
  | fuel + 1, c =>
    match c.rest with
    | d :: more =>
      if isD d then digitRun isD fuel (c.skip 1)
      else if d == '_' then
        match more with
        | e :: _ => if isD e then digitRun isD fuel (c.skip 2)
          else .error ((c.skip 1).fail.expect ["digit"]).harden
        | [] => .error ((c.skip 1).fail.expect ["digit"]).harden
      else .ok c
    | [] => .ok c

/-- An optional sign. -/
def sign (c : Cursor) : Cursor :=
  if c.peek? == some '+' || c.peek? == some '-' then c.skip 1 else c

/-- A decimal integer as written: a sign, then `0` or digits not starting with `0`. -/
def decInt (c : Cursor) : Except Failure Cursor :=
  let c1 := sign c
  let r : Except Failure Cursor := match c1.rest with
    | d :: _ =>
      if '1' ≤ d && d ≤ '9' then digitRun isDigit c1.rest.length (c1.skip 1)
      else if d == '0' then .ok (c1.skip 1)
      else .error c1.fail
    | [] => .error c1.fail
  match r with
  | .ok c' => .ok c'
  | .error f => .error (f.label "integer")

/-- Digits that may start with `0`, with single underscores between them. -/
def zeroPrefixable (c : Cursor) : Except Failure Cursor :=
  match c.peek? with
  | some d => if isDigit d then digitRun isDigit c.rest.length (c.skip 1) else .error c.fail
  | none => .error c.fail

/-- The largest value of a signed 64-bit integer. -/
def i64Max : Nat := 9223372036854775807

/-- Read the text of an integer, underscores and sign included, as a signed 64-bit value. -/
def integerValue (text : String) : Except String Int :=
  let cs := text.toList.filter (· != '_')
  let (neg, ds) := match cs with
    | '-' :: r => (true, r)
    | '+' :: r => (false, r)
    | r => (false, r)
  let v := digitsValue 10 ds
  if neg then
    if v > i64Max + 1 then .error "number too small to fit in target type" else .ok (-(v : Int))
  else if v > i64Max then .error "number too large to fit in target type" else .ok v

/-- The double nearest to a decimal `digits · 10 ^ exp`, infinite or zero far out of range. -/
def decimalFloat (negative : Bool) (digits : Nat) (exp : Int) : Float :=
  let size : Int := (toString digits).length
  if digits == 0 then Decimal.ofDecimal negative 0 0
  else if exp + size > 330 then (if negative then -1.0 else 1.0) / 0.0
  else if exp + size < -345 then Decimal.ofDecimal negative 0 0
  else Decimal.ofDecimal negative digits exp

/-- The value of a float as written: sign, integer part, fraction and exponent. -/
def floatValue (text : String) : Float :=
  let cs := text.toList.filter (· != '_')
  let (neg, cs) := match cs with
    | '-' :: r => (true, r)
    | '+' :: r => (false, r)
    | r => (false, r)
  let mant := cs.takeWhile (fun c => c != 'e' && c != 'E')
  let expPart := (cs.dropWhile (fun c => c != 'e' && c != 'E')).drop 1
  let intDigits := mant.takeWhile (· != '.')
  let fracDigits := (mant.dropWhile (· != '.')).drop 1
  let (eneg, eds) := match expPart with
    | '-' :: r => (true, r)
    | '+' :: r => (false, r)
    | r => (false, r)
  let e : Int := if eneg then -(digitsValue 10 eds : Int) else digitsValue 10 eds
  decimalFloat neg (digitsValue 10 (intDigits ++ fracDigits)) (e - fracDigits.length)

/-- Positive infinity. -/
def infinity : Float := 1.0 / 0.0

/-- A float: digits with a fraction, an exponent or both, or a signed `inf` or `nan`. -/
def float (c : Cursor) : Except Failure (Float × Cursor) :=
  let withLabel (f : Failure) : Failure := f.label "floating-point number"
  let special : Except Failure (Float × Cursor) :=
    let c1 := sign c
    let negative := c.peek? == some '-'
    if c1.sees "inf" then .ok ((if negative then -infinity else infinity), c1.skip 3)
    else if c1.sees "nan" then
      .ok ((if negative then Float.ofBits 0xFFF8000000000000 else Float.ofBits 0x7FF8000000000000),
        c1.skip 3)
    else .error c1.fail
  let expPart (c1 : Cursor) : Option (Except Failure Cursor) :=
    if c1.peek? == some 'e' || c1.peek? == some 'E' then
      some (match zeroPrefixable (sign (c1.skip 1)) with
        | .ok c2 => .ok c2
        | .error f => .error f.harden)
    else none
  let shape : Except Failure Cursor := do
    let c1 ← decInt c
    match expPart c1 with
    | some r => r
    | none =>
      if c1.peek? == some '.' then
        match zeroPrefixable (c1.skip 1) with
        | .error f => throw (f.expect ["digit"]).harden
        | .ok c2 => match expPart c2 with
          | some r => r
          | none => pure c2
      else throw c1.fail
  match shape with
  | .ok c' =>
    let x := floatValue (c.upTo c')
    if x == infinity then .error (withLabel c.fail).harden else .ok (x, c')
  | .error f =>
    if f.hard then .error (withLabel f)
    else match special with
      | .ok r => .ok r
      | .error f => .error (withLabel f)

/-- An integer in a base after its prefix: digits with single underscores between them. -/
def radixInt (base : Nat) (isD : Char → Bool) (what : String) (c : Cursor) : Except Failure (Int × Cursor) :=
  let body := c.skip 2
  let run : Except Failure Cursor := match body.peek? with
    | some d => if isD d then digitRun isD body.rest.length (body.skip 1) else .error body.fail
    | none => .error body.fail
  match run with
  | .error f => .error (f.label what).harden
  | .ok c' =>
    let v := digitsValue base ((body.upTo c').toList.filter (· != '_'))
    if v > i64Max then .error { c.fail with cause := "number too large to fit in target type", hard := true }
    else .ok (v, c')

/-- An integer: decimal, or hexadecimal, octal or binary after `0x`, `0o` or `0b`. -/
def integer (c : Cursor) : Except Failure (Int × Cursor) :=
  if c.sees "0x" then radixInt 16 isHexDigit "hexadecimal integer" c
  else if c.sees "0o" then radixInt 8 isOctDigit "octal integer" c
  else if c.sees "0b" then radixInt 2 isBinDigit "binary integer" c
  else do
    let c' ← decInt c
    match integerValue (c.upTo c') with
    | .ok n => pure (n, c')
    | .error why => throw { c.fail with cause := why, hard := true }

/-- Exactly `n` digits, and their value. -/
def fixedDigits (n : Nat) (c : Cursor) : Except Failure (Nat × Cursor) :=
  let ds := (c.rest.take n).takeWhile isDigit
  if ds.length == n then .ok (digitsValue 10 ds, c.skip n) else .error c.fail

/-- Two digits in a range. -/
def ranged (lo hi : Nat) (c : Cursor) : Except Failure (Nat × Cursor) := do
  let (v, c') ← fixedDigits 2 c
  if lo ≤ v && v ≤ hi then pure (v, c')
  else throw { c.fail with cause := "value is out of range" }

/-- A character that must come next. -/
def char (ch : Char) (c : Cursor) : Except Failure Cursor :=
  if c.peek? == some ch then .ok (c.skip 1) else .error c.fail

/-- Harden the failures of a step. -/
def hardened {α : Type} (r : Except Failure α) : Except Failure α :=
  match r with
  | .ok v => .ok v
  | .error f => .error f.harden

/-- A time: hours, minutes, seconds and an optional fraction. -/
def partialTime (c : Cursor) : Except Failure (Time × Cursor) := do
  let (hour, c) ← ranged 0 23 c
  let c ← char ':' c
  hardened do
    let (minute, c) ← ranged 0 59 c
    let c ← char ':' c
    let (second, c) ← ranged 0 60 c
    let ds := if c.peek? == some '.' then (c.skip 1).rest.takeWhile isDigit else []
    if ds.isEmpty then pure (⟨hour, minute, second, 0⟩, c)
    else pure (⟨hour, minute, second, fractionNanos ds⟩, c.skip (ds.length + 1))

/-- A date: four digits of year, then month and day, the day within its month. -/
def fullDate (c : Cursor) : Except Failure (Date × Cursor) := do
  let (year, c) ← fixedDigits 4 c
  let c ← char '-' c
  hardened do
    let (month, c) ← ranged 1 12 c
    let c ← char '-' c
    let (day, c') ← ranged 1 31 c
    if day ≤ daysInMonth year month then pure (⟨year, month, day⟩, c')
    else throw { c.fail with cause := "value is out of range" }

/-- A time offset: `Z` or a signed hours and minutes. -/
def timeOffset (c : Cursor) : Except Failure (Offset × Cursor) :=
  match c.peek? with
  | some 'Z' | some 'z' => .ok (.utc, c.skip 1)
  | some '+' | some '-' =>
    match hardened (do
      let (h, c) ← ranged 0 23 (c.skip 1)
      let c ← char ':' c
      let (m, c) ← ranged 0 59 c
      pure (((h * 60 + m : Nat) : Int), c)) with
    | .ok (m, c') => .ok (.minutes (if c.peek? == some '-' then -m else m), c')
    | .error f => .error (f.label "time offset")
  | _ => .error (c.fail.label "time offset")

/-- A date, a time, or both. A failure past the point of no return is one of a `date-time`
when a date was read, and of a `time` otherwise. -/
def dateTime (c : Cursor) : Except Failure (DateTime × Cursor) :=
  let dated : Except Failure (DateTime × Cursor) := do
    let (date, c1) ← fullDate c
    let timed : Except Failure (DateTime × Cursor) := do
      match c1.peek? with
      | some 'T' | some 't' | some ' ' =>
        let (time, c2) ← partialTime (c1.skip 1)
        match timeOffset c2 with
        | .ok (offset, c3) => pure (⟨some date, some time, some offset⟩, c3)
        | .error f => if f.hard then throw f else pure (⟨some date, some time, none⟩, c2)
      | _ => throw c1.fail
    match timed with
    | .ok r => pure r
    | .error f => if f.hard then throw f else pure (⟨some date, none, none⟩, c1)
  match dated with
  | .ok r => .ok r
  | .error f =>
    if f.hard then .error (f.label "date-time")
    else match partialTime c with
      | .ok (time, c') => .ok (⟨none, some time, none⟩, c')
      | .error f => .error (f.label "time")

/-- A date, float or integer, tried in that order. -/
def number (c : Cursor) : Except Failure (Value × Cursor) :=
  match dateTime c with
  | .ok (t, c') => .ok (.datetime t, c')
  | .error f =>
    if f.hard then .error f
    else match float c with
      | .ok (x, c') => .ok (.float x, c')
      | .error f =>
        if f.hard then .error f
        else match integer c with
          | .ok (n, c') => .ok (.int n, c')
          | .error f => .error f

/-- Mark a failure as one of a value that should have been a quoted string. -/
def asString (f : Failure) : Failure :=
  (f.label "string").expect ["`\"`", "`'`"]

/-- A keyword value; with `hard`, a partial match ends the read. -/
def keyword (word : String) (v : Value) (hard : Bool) (c : Cursor) : Except Failure (Value × Cursor) :=
  if c.sees word then .ok (v, c.skip word.length)
  else .error (asString { c.fail with hard })

/-! ## Values -/

/-- Whether a list of entries has a key. -/
def hasKey {β : Type} (es : List (String × β)) (k : String) : Bool := es.any (·.1 == k)

/-- Why a document's tables do not fit together. -/
inductive Clash where
  /-- A key defined twice; the table it was in, when known. -/
  | duplicate (key : String) (table : Option (List String))
  /-- Dotted keys that would extend a value. -/
  | extendsValue (path : List String) (actual : String)
  deriving Inhabited

/-- The message of a clash. -/
def Clash.text : Clash → String
  | .duplicate k none => "duplicate key `" ++ k ++ "`"
  | .duplicate k (some []) => "duplicate key `" ++ k ++ "` in document root"
  | .duplicate k (some t) => "duplicate key `" ++ k ++ "` in table `" ++ ".".intercalate t ++ "`"
  | .extendsValue path actual =>
    "dotted key `" ++ ".".intercalate path ++ "` attempted to extend non-table type (" ++
      actual ++ ")"

/-- Put a value at a dotted path inside an inline table's entries. `made` holds the paths of the
tables that dotted keys made: only those may be stepped into, since a table written as a value
is complete. -/
def insertInline (whole : List Key) (k : Key) (v : Value) (made : List (List String)) :
    Nat → List (String × Value) → Bool → List Key → Except Clash (List (String × Value) × Bool)
  | _, es, isDotted, [] =>
    if isDotted == whole.isEmpty then .error (.duplicate k.name none)
    else if hasKey es k.name then .error (.duplicate k.name none)
    else .ok (es ++ [(k.name, v)], isDotted)
  | i, es, _, p :: rest =>
    match es.find? (·.1 == p.name) with
    | none => do
      let (inner, _) ← insertInline whole k v made (i + 1) [] true rest
      pure (es ++ [(p.name, .inlineTable inner)], true)
    | some (_, .inlineTable inner) => do
      if !made.contains ((whole.take (i + 1)).map (·.name)) then throw (.duplicate p.name none)
      let (inner', _) ← insertInline whole k v made (i + 1) inner true rest
      pure (es.map (fun e => if e.1 == p.name then (e.1, .inlineTable inner') else e), true)
    | some (_, other) => .error (.extendsValue ((whole.take (i + 1)).map (·.name)) other.typeName)

/-- Add one key/value pair to an inline table's entries, noting the tables its dotted key makes. -/
def addInlinePair (acc : List (String × Value) × List (List String))
    (pair : List Key × Key × Value) : Except Clash (List (String × Value) × List (List String)) :=
  let names : List String := pair.1.map Key.name
  (insertInline pair.1 pair.2.1 pair.2.2 acc.2 0 acc.1 false pair.1).map fun r =>
    (r.1, acc.2 ++ (List.range names.length).map (fun n => names.take (n + 1)))

/-- The entries of an inline table from its key/value pairs. -/
def inlineEntries (pairs : List (List Key × Key × Value)) : Except Clash (List (String × Value)) :=
  (pairs.foldlM addInlinePair ([], [])).map (·.1)

mutual

/-- A value inside `depth` arrays and inline tables. -/
def value (depth : Nat) : Nat → Cursor → Except Failure (Value × Cursor)
  | 0, c => .error c.fail.harden
  | fuel + 1, c =>
    match c.peek? with
    | none => .error c.fail
    | some ch =>
      if ch == '"' || ch == '\'' then
        match string c with
        | .ok (s, c') => .ok (.str s, c')
        | .error f => .error f
      else if (ch == '[' || ch == '{') && depth + 1 ≥ nestingLimit then .error (tooDeep c).harden
      else if ch == '[' then array (depth + 1) fuel c
      else if ch == '{' then inlineTable (depth + 1) fuel c
      else if ch == '+' || ch == '-' || isDigit ch then number c
      else if ch == '_' then
        match integer c with
        | .ok (n, c') => .ok (.int n, c')
        | .error f => .error (f.expect ["leading digit"])
      else if ch == '.' then
        match float c with
        | .ok (x, c') => .ok (.float x, c')
        | .error f => .error (f.expect ["leading digit"])
      else if ch == 't' then keyword "true" (.bool true) true c
      else if ch == 'f' then keyword "false" (.bool false) true c
      else if ch == 'i' then keyword "inf" (.float infinity) false c
      else if ch == 'n' then keyword "nan" (.float (Float.ofBits 0x7FF8000000000000)) false c
      else .error (asString c.fail)

/-- The items of an array after its first, each after a comma. A comma not followed by a value
is left unread. -/
def arrayItems (depth : Nat) : Nat → Cursor → List Value → Except Failure (List Value × Cursor)
  | 0, c, acc => .ok (acc.reverse, c)
  | fuel + 1, c, acc =>
    if c.peek? == some ',' then
      let c1 := c.skip 1
      match value depth fuel (blankLines c1.rest.length c1) with
      | .ok (v, c2) => arrayItems depth fuel (blankLines c2.rest.length c2) (v :: acc)
      | .error f => if f.hard then .error f else .ok (acc.reverse, c)
    else .ok (acc.reverse, c)

/-- An array, the `depth`-th container around its items; the cursor is at its `[`. -/
def array (depth : Nat) : Nat → Cursor → Except Failure (Value × Cursor)
  | 0, c => .error c.fail.harden
  | fuel + 1, c =>
    let c1 := c.skip 1
    let first := value depth fuel (blankLines c1.rest.length c1)
    let items : Except Failure (List Value × Cursor) := match first with
      | .ok (v, c2) => arrayItems depth fuel (blankLines c2.rest.length c2) [v]
      | .error f => if f.hard then .error f else .ok ([], c1)
    match items with
    | .error f => .error f
    | .ok (vs, c2) =>
      let c3 := if !vs.isEmpty && c2.peek? == some ',' then c2.skip 1 else c2
      let c4 := blankLines c3.rest.length c3
      if c4.peek? == some ']' then .ok (.array vs, c4.skip 1)
      else .error ((c4.fail.label "array").expect ["`]`"]).harden

/-- One key/value pair of an inline table. -/
def inlinePair (depth : Nat) : Nat → Cursor → Except Failure ((List Key × Key × Value) × Cursor)
  | 0, c => .error c.fail.harden
  | fuel + 1, c => do
    let (path, c1) ← key c
    if c1.peek? != some '=' then throw (c1.fail.expect ["`.`", "`=`"]).harden
    let (v, c2) ← match value depth fuel (blanks (c1.skip 1)) with
      | .ok r => pure r
      | .error f => throw f.harden
    pure ((path.dropLast, path.getLast!, v), blanks c2)

/-- The pairs of an inline table after its first, each after a comma. -/
def inlinePairs (depth : Nat) : Nat → Cursor → List (List Key × Key × Value) →
    Except Failure (List (List Key × Key × Value) × Cursor)
  | 0, c, acc => .ok (acc.reverse, c)
  | fuel + 1, c, acc =>
    if c.peek? == some ',' then
      match inlinePair depth fuel (c.skip 1) with
      | .ok (p, c') => inlinePairs depth fuel c' (p :: acc)
      | .error f => if f.hard then .error f else .ok (acc.reverse, c)
    else .ok (acc.reverse, c)

/-- An inline table, the `depth`-th container around its values; the cursor is at its opening
brace. -/
def inlineTable (depth : Nat) : Nat → Cursor → Except Failure (Value × Cursor)
  | 0, c => .error c.fail.harden
  | fuel + 1, c =>
    let c1 := c.skip 1
    let pairs : Except Failure (List (List Key × Key × Value) × Cursor) := match inlinePair depth fuel c1 with
      | .ok (p, c2) => inlinePairs depth fuel c2 [p]
      | .error f => if f.hard then .error f else .ok ([], c1)
    match pairs with
    | .error f => .error f
    | .ok (ps, c2) =>
      match inlineEntries ps with
      | .error clash => .error { c1.fail with cause := clash.text, hard := true }
      | .ok es =>
        let c3 := blanks c2
        if c3.peek? == some (Char.ofNat 0x7D) then .ok (.inlineTable es, c3.skip 1)
        else .error ((c3.fail.label "inline table").expect ["`\x7d`"]).harden

end

/-! ## Building the document -/

/-- The entries of a table. -/
abbrev Entries := List (String × Node)

/-- The entry of a key. -/
def lookup (es : Entries) (k : String) : Option Node := (es.find? (·.1 == k)).map (·.2)

/-- Replace the entry of a key. -/
def replaceEntry (es : Entries) (k : String) (n : Node) : Entries :=
  es.map fun e => if e.1 == k then (k, n) else e

/-- Remove the entry of a key. -/
def removeEntry (es : Entries) (k : String) : Entries := es.filter (·.1 != k)

/-- Change the table at a path below some entries, making missing tables on the way (implicit,
and dotted when `dotted`) and stepping into the last table of an array of tables. Dotted keys
may only step into tables that no header defined. `f` gets the entries found and whether dotted
keys made that table. -/
def atPath {α : Type} (dotted : Bool) (whole : List Key)
    (f : Entries → Bool → Except Clash (Entries × α)) :
    Nat → Entries → Bool → List Key → Except Clash (Entries × α)
  | _, es, isDotted, [] => f es isDotted
  | i, es, _, k :: rest =>
    match lookup es k.name with
    | none => do
      let (inner, r) ← atPath dotted whole f (i + 1) [] dotted rest
      pure (es ++ [(k.name, .table inner true dotted)], r)
    | some (.table inner imp dot) => do
      if dotted && !imp then throw (.duplicate k.name none)
      let (inner', r) ← atPath dotted whole f (i + 1) inner dot rest
      pure (replaceEntry es k.name (.table inner' imp dot), r)
    | some (.tables items) => do
      let (last', r) ← atPath dotted whole f (i + 1) (items.getLast?.getD []) false rest
      pure (replaceEntry es k.name (.tables (items.dropLast ++ [last'])), r)
    | some (.leaf v) => .error (.extendsValue ((whole.take (i + 1)).map (·.name)) v.typeName)

/-- A key defined twice: the `i`-th part of a path, quoted as a key is written, in the table of
the parts before it. -/
def duplicateAt (path : List Key) (i : Nat) : Clash :=
  .duplicate (keyText (path.getD i default).name) (some ((path.take i).map (·.name)))

/-- A document being built: what is done, and the table being filled. -/
structure Builder where
  /-- The document's tables so far. -/
  root : Entries := []
  /-- The table being filled. -/
  current : Entries := []
  /-- The header path of the table being filled; empty before the first header. -/
  currentPath : List Key := []
  /-- Whether the table being filled is an element of an array of tables. -/
  currentIsArray : Bool := false
  deriving Inhabited

namespace Builder

/-- Put a key/value line into the table being filled. -/
def keyval (b : Builder) (path : List Key) (k : Key) (v : Value) : Except Clash Builder := do
  let (current, _) ← atPath true path (fun es isDotted =>
      if isDotted == path.isEmpty then .error (.duplicate k.name none)
      else if hasKey es k.name then .error (.duplicate k.name (some (b.currentPath.map (·.name))))
      else .ok (es ++ [(k.name, .leaf v)], ())) 0 b.current false path
  pure { b with current }

/-- Close the table being filled into the document. -/
def finish (b : Builder) : Except Clash Builder := do
  let path := b.currentPath
  match path.getLast? with
  | none => pure { b with root := b.root ++ b.current, current := [] }
  | some k =>
    let n := path.length
    let (root, _) ← atPath false path (fun es _ =>
        if b.currentIsArray then
          match lookup es k.name with
          | some (.tables items) => .ok (replaceEntry es k.name (.tables (items ++ [b.current])), ())
          | none => .ok (es ++ [(k.name, .tables [b.current])], ())
          | some _ => .error (duplicateAt path (n - 1))
        else
          match lookup es k.name with
          | some (.table _ true _) => .ok (replaceEntry es k.name (.table b.current false false), ())
          | none => .ok (es ++ [(k.name, .table b.current false false)], ())
          | some _ => .error (duplicateAt path (n - 1))) 0 b.root false path.dropLast
    pure { root, current := [], currentPath := [], currentIsArray := false }

/-- Open a table under a `[path]` header, taking over an implicit table made before it. -/
def openTable (b : Builder) (path : List Key) : Except Clash Builder := do
  let b ← b.finish
  let k := path.getLast!
  let n := path.length
  let (root, taken) ← atPath false path (fun es _ =>
      match lookup es k.name with
      | some (.table inner true false) => .ok (removeEntry es k.name, inner)
      | some _ => .error (duplicateAt path (n - 1))
      | none => .ok (es, [])) 0 b.root false path.dropLast
  pure { root, current := taken, currentPath := path, currentIsArray := false }

/-- Open a new element of an array of tables under a `[[path]]` header. -/
def openArrayTable (b : Builder) (path : List Key) : Except Clash Builder := do
  let b ← b.finish
  let k := path.getLast!
  let n := path.length
  let (root, _) ← atPath false path (fun es _ =>
      match lookup es k.name with
      | some (.tables _) => .ok (es, ())
      | some _ => .error (duplicateAt path (n - 1))
      | none => .ok (es ++ [(k.name, .tables [])], ())) 0 b.root false path.dropLast
  pure { root, current := [], currentPath := path, currentIsArray := true }

end Builder

/-! ## Documents -/

/-- A failure of a clash found at a position. -/
def clashAt (c : Cursor) (clash : Clash) : Failure :=
  { c.fail with cause := clash.text, hard := true }

/-- A key/value line; the cursor is at its key. -/
def keyvalLine (b : Builder) (c : Cursor) : Except Failure (Builder × Cursor) := do
  let (path, c1) ← key c
  if c1.peek? != some '=' then throw (c1.fail.expect ["`.`", "`=`"]).harden
  let c1' := blanks (c1.skip 1)
  let (v, c2) ← value 0 (2 * c1'.rest.length + 2) c1'
  let c3 ← lineTrailing c2
  match b.keyval path.dropLast path.getLast! v with
  | .ok b' => pure (b', c3)
  | .error clash => throw (clashAt c clash)

/-- A table header line; the cursor is at its first `[`. -/
def headerLine (b : Builder) (c : Cursor) : Except Failure (Builder × Cursor) :=
  let isArray := c.sees "[["
  let close := if isArray then "]]" else "]"
  let read : Except Failure (List Key × Cursor) := do
    let (path, c1) ← key (c.skip close.length)
    if !c1.sees close then throw (c1.fail.expect ["`.`", "`" ++ close ++ "`"])
    let c2 ← lineTrailing (c1.skip close.length)
    pure (path, c2)
  match read with
  | .error f => .error (f.label "table header").harden
  | .ok (path, c') =>
    let opened := if isArray then b.openArrayTable path else b.openTable path
    match opened with
    | .ok b' => .ok (b', c')
    | .error clash => .error ((clashAt c clash).label "table header")

/-- Read the lines of a document. -/
def lines : Nat → Builder → Cursor → Except Failure Builder
  | 0, b, _ => .ok b
  | fuel + 1, b, c =>
    let c := blanks c
    match c.rest with
    | [] => .ok b
    | '#' :: _ =>
      let c' := ((comment? c).getD c)
      match lineEnd? c' with
      | some c'' => lines fuel b c''
      | none => .error c'.fail.harden
    | '[' :: _ => do let (b', c') ← headerLine b c; lines fuel b' c'
    | '\n' :: _ => lines fuel b (c.skip 1)
    | '\r' :: more =>
      if more.head? == some '\n' then lines fuel b (c.skip 2) else .error c.fail
    | _ => do let (b', c') ← keyvalLine b c; lines fuel b' c'

/-- Why a document cannot be read: a message, and the position it concerns when there is one. -/
structure ReadFailure where
  /-- What went wrong. -/
  message : String
  /-- The character position, when the failure is at one. -/
  pos : Option Nat
  deriving Inhabited

/-- The tables of a TOML document, or why it cannot be read. A byte order mark at the start is
skipped. -/
def readDocument (text : String) : Except ReadFailure Entries :=
  let cs := text.toList
  let c : Cursor := ⟨cs, 0⟩
  let c := if c.peek? == some (Char.ofNat 0xFEFF) then c.skip 1 else c
  match lines (cs.length + 2) {} c with
  | .error f => .error ⟨f.message, some f.pos⟩
  | .ok b => match b.finish with
    | .ok b' => .ok b'.root
    | .error clash => .error ⟨clash.text, none⟩

/-- Where a failure is shown: the line and column, both from zero, and how many `^` mark it.
The failure concerns the character at its position, and the marks cover that character's bytes
within the line, or one mark at the end of the text. The column counts characters, except on a
character of several bytes, where it counts the bytes of the line before it; one past the last
character, it is one past the last character's column. -/
def failureSpot (cs : List Char) (pos : Nat) : Nat × Nat × Nat :=
  if cs.isEmpty then (0, pos, 1)
  else
    let safe := min pos (cs.length - 1)
    let before := cs.take safe
    let lineStart := before.length - (before.reverse.takeWhile (· != '\n')).length
    let line := (cs.take lineStart).count '\n'
    let here := cs.getD safe ' '
    let column :=
      if pos < cs.length && here.utf8Size > 1 then
        ((before.drop lineStart).map Char.utf8Size).foldl (· + ·) 0
      else safe - lineStart + (pos - safe)
    let lineBytes := (((cs.drop lineStart).takeWhile (· != '\n')).map Char.utf8Size).foldl (· + ·) 0
    let span := if pos < cs.length then here.utf8Size else 0
    (line, column, max 1 (min span (max (lineBytes - column) 1)))

/-- The text of a reading failure: where it is, with the line shown and marked, then what went
wrong. -/
def ReadFailure.render (text : String) (f : ReadFailure) : String :=
  match f.pos with
  | none => f.message ++ "\n"
  | some pos =>
    let (line, column, marks) := failureSpot text.toList pos
    let num := toString (line + 1)
    let pad := String.ofList (List.replicate (num.length + 1) ' ')
    let content := (text.splitOn "\n").getD line ""
    "TOML parse error at line " ++ num ++ ", column " ++ toString (column + 1) ++ "\n" ++
      pad ++ "|\n" ++ num ++ " | " ++ content ++ "\n" ++
      pad ++ "|" ++ String.ofList (List.replicate (column + 1) ' ') ++
      String.ofList (List.replicate marks '^') ++ "\n" ++
      f.message ++ "\n"

end WikiSync.Toml

import WikiSync.Config.Layer
import WikiSync.Text.Blank

/-!
# The environment layer

An environment variable `TIDSYNC_WATCH__BATCH_WINDOW_MS` sets `watch.batch_window_ms`: the
prefix is dropped in any case, `__` separates levels, and the name is taken in lower case.

Its value is read as one value in full, or else kept as its text. A value is `true` or `false`,
a table `{key = value, ...}`, an array `[value, ...]`, a quoted string with the escapes of a
TOML basic string, one character between apostrophes (a text of one character), or a plain
word. A plain word runs up to a comma, bracket or brace, loses its blanks at both ends, and is
a number when it reads as an unsigned or signed machine integer, or as a float with a point;
otherwise it is text, quotes and all. ASCII blanks may stand around
each value. After an opening bracket or brace and after each comma, the next character closes
the collection only when it is the closing one; anything else, blanks included, starts another
item.
-/

namespace WikiSync

/-- Whether a character is blank around the parts of an environment value: the ASCII blanks. -/
def isEnvBlank (c : Char) : Bool :=
  c == ' ' || c == '\t' || c == '\n' || c == '\r' || c.toNat == 12

/-- Whether a character ends a plain word in an environment value. -/
def isEnvDelimiter (c : Char) : Bool :=
  c == ',' || c == '[' || c == ']' || c == Char.ofNat 0x7B || c == Char.ofNat 0x7D

/-- Whether a character may stand in a bare key of an environment table. -/
def isEnvKeyChar (c : Char) : Bool := c.isAlphanum || c == '_' || c == '-'

/-- Whether a text is a decimal float: digits with a point, and an optional exponent. -/
def isFloatText (s : String) : Bool :=
  let cs := s.toList
  let cs := match cs with
    | '+' :: r => r
    | '-' :: r => r
    | r => r
  let intPart := cs.takeWhile Toml.isDigit
  let cs := cs.drop intPart.length
  let (fracPart, cs) := match cs with
    | '.' :: r => (r.takeWhile Toml.isDigit, r.drop (r.takeWhile Toml.isDigit).length)
    | r => ([], r)
  let expOk := match cs with
    | [] => true
    | e :: r =>
      (e == 'e' || e == 'E') &&
        (let r := match r with
          | '+' :: r' => r'
          | '-' :: r' => r'
          | r' => r'
         !r.isEmpty && r.all Toml.isDigit)
  (intPart.length + fracPart.length > 0) && expOk

/-- The largest unsigned machine word. -/
def wordMax : Nat := 18446744073709551615

/-- A plain word of an environment value: a float when it has a point and reads as one, an
unsigned or signed machine integer, and otherwise text. -/
def envWord (w : String) : ConfValue :=
  let l := Layer.environment
  let unsigned? : Option Nat :=
    let ds := match w.toList with
      | '+' :: r => r
      | r => r
    if !ds.isEmpty && ds.all Toml.isDigit then
      let v := Toml.digitsValue 10 ds
      if v ≤ wordMax then some v else none
    else none
  let signed? : Option Int :=
    match w.toList with
    | '-' :: ds =>
      if !ds.isEmpty && ds.all Toml.isDigit then
        let v := Toml.digitsValue 10 ds
        if v ≤ Toml.i64Max + 1 then some (-(v : Int)) else none
      else none
    | _ => (unsigned?.filter (· ≤ Toml.i64Max)).map Int.ofNat
  if w.contains '.' && isFloatText w then .num l (.float (Toml.floatValue w))
  else match unsigned? with
    | some n => .num l (.unsigned n)
    | none => match signed? with
      | some n => .num l (.signed n)
      | none => .str l w

/-- The body of a quoted string after its opening quote, as written, and what follows its
closing quote; a backslash keeps the character after it in the body. -/
def envQuotedBody : List Char → List Char → Option (List Char × List Char)
  | [], _ => none
  | '"' :: rest, acc => some (acc.reverse, rest)
  | '\\' :: c :: rest, acc => envQuotedBody rest (c :: '\\' :: acc)
  | c :: rest, acc => envQuotedBody rest (c :: acc)

/-- Whether a character may stand unescaped in a quoted string: a tab, or anything from a space
on but the delete character. -/
def isEnvStringChar (c : Char) : Bool := c == '\t' || (0x20 ≤ c.toNat && c.toNat != 0x7F)

/-- The character of a `\u` or `\U` escape: exactly `n` ASCII hex digits naming a scalar value. -/
def envHexChar (n : Nat) (cs : List Char) : Option Char :=
  let ds := cs.take n
  if ds.length == n && ds.all Toml.isHexDigit then
    let v := Toml.digitsValue 16 ds
    if Toml.isScalar v then some (Char.ofNat v) else none
  else none

/-- The text a quoted body stands for, or none when it holds an unknown escape or a character
that may not stand in a string. -/
def unescapeEnv : Nat → List Char → List Char → Option String
  | 0, _, _ => none
  | _ + 1, [], acc => some (String.ofList acc.reverse)
  | fuel + 1, '\\' :: rest, acc =>
    match rest with
    | '"' :: r => unescapeEnv fuel r ('"' :: acc)
    | '\\' :: r => unescapeEnv fuel r ('\\' :: acc)
    | 'b' :: r => unescapeEnv fuel r (Char.ofNat 8 :: acc)
    | 'f' :: r => unescapeEnv fuel r (Char.ofNat 12 :: acc)
    | 'n' :: r => unescapeEnv fuel r ('\n' :: acc)
    | 'r' :: r => unescapeEnv fuel r ('\r' :: acc)
    | 't' :: r => unescapeEnv fuel r ('\t' :: acc)
    | 'u' :: r => (envHexChar 4 r).bind fun ch => unescapeEnv fuel (r.drop 4) (ch :: acc)
    | 'U' :: r => (envHexChar 8 r).bind fun ch => unescapeEnv fuel (r.drop 8) (ch :: acc)
    | _ => none
  | fuel + 1, c :: rest, acc =>
    if isEnvStringChar c then unescapeEnv fuel rest (c :: acc) else none

/-- A quoted string after its opening quote, and what follows it. -/
def envString (cs : List Char) : Option (String × List Char) := do
  let (body, rest) ← envQuotedBody cs []
  let s ← unescapeEnv (body.length + 1) body []
  pure (s, rest)

/-- A key of an environment table: a quoted string, or a run of key characters. -/
def envKey (cs : List Char) : Option (String × List Char) :=
  match cs with
  | '"' :: rest => envString rest
  | _ =>
    let k := cs.takeWhile isEnvKeyChar
    if k.isEmpty then none else some (String.ofList k, cs.drop k.length)

mutual

/-- An environment value at the front of some characters, and the characters after it. -/
def envValue : Nat → List Char → Option (ConfValue × List Char)
  | 0, _ => none
  | fuel + 1, cs =>
    let cs := cs.dropWhile isEnvBlank
    let finish (v : ConfValue) (rest : List Char) : Option (ConfValue × List Char) :=
      some (v, rest.dropWhile isEnvBlank)
    if "true".toList.isPrefixOf cs then finish (.bool .environment true) (cs.drop 4)
    else if "false".toList.isPrefixOf cs then finish (.bool .environment false) (cs.drop 5)
    else match cs with
      | '[' :: rest => do
        let (items, rest') ← envItems fuel rest []
        finish (.array .environment items) rest'
      | '{' :: rest => do
        let (es, rest') ← envEntries fuel rest []
        finish (.dict .environment (sortEntries es)) rest'
      | '"' :: rest => do
        let (s, rest') ← envString rest
        finish (.str .environment s) rest'
      | '\'' :: c :: '\'' :: rest => finish (.str .environment c.toString) rest
      | '\'' :: _ => none
      | _ =>
        let word := cs.takeWhile fun c => !isEnvDelimiter c
        let w := Text.trim (String.ofList word)
        finish (envWord w) (cs.drop word.length)

/-- The items of an environment array up to its closing bracket. -/
def envItems : Nat → List Char → List ConfValue → Option (List ConfValue × List Char)
  | 0, _, _ => none
  | fuel + 1, cs, acc =>
    match cs with
    | ']' :: rest => some (acc.reverse, rest)
    | _ => do
      let (v, rest) ← envValue fuel cs
      match rest with
      | ',' :: rest' => envItems fuel rest' (v :: acc)
      | ']' :: rest' => some ((v :: acc).reverse, rest')
      | _ => none

/-- The entries of an environment table up to its closing brace, in the order written. -/
def envEntries : Nat → List Char → List (String × ConfValue) →
    Option (List (String × ConfValue) × List Char)
  | 0, _, _ => none
  | fuel + 1, cs, acc =>
    match cs with
    | '}' :: rest => some (acc.reverse, rest)
    | _ => do
      let (k, rest) ← envKey (cs.dropWhile isEnvBlank)
      match rest.dropWhile isEnvBlank with
      | '=' :: rest' =>
        let (v, rest'') ← envValue fuel rest'
        match rest'' with
        | ',' :: more => envEntries fuel more ((k, v) :: acc)
        | '}' :: more => some (((k, v) :: acc).reverse, more)
        | _ => none
      | _ => none

end

/-- The value of an environment variable: read in full as a value, or else its text. -/
def envValueOf (raw : String) : ConfValue :=
  match envValue (2 * raw.length + 4) raw.toList with
  | some (v, []) => v
  | _ => .str .environment raw

/-- The settings key of an environment variable, by level; none when it is not a settings
variable. -/
def envKey? (name : String) : Option (List String) :=
  let n := Text.trim name
  let p := envPrefix.toList
  if n.length ≥ p.length && (n.toList.take p.length).map upperAscii == p then
    let rest := String.ofList ((n.toList.drop p.length).map lowerAscii)
    let key := Text.trim (rest.replace "__" ".")
    let parts := key.splitOn "."
    if key.isEmpty || parts.any (·.isEmpty) then none else some parts
  else none

/-- A value below a path of tables. -/
def nest (v : ConfValue) : List String → ConfValue
  | [] => v
  | k :: rest => .dict .environment [(k, nest v rest)]

/-- The environment layer of some variables, in the order given. -/
def envLayer (vars : List (String × String)) : ConfValue :=
  vars.foldl (fun acc (name, raw) =>
    match envKey? name with
    | some path => acc.merge (nest (envValueOf raw) path)
    | none => acc) (.dict .environment [])

end WikiSync

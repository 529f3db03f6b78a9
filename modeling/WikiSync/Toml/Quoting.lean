/-!
# Quoting TOML strings and keys

How a string is written in TOML: the four forms of string, which of them can show a given text,
and the escapes of a basic string. A string value takes the first form that shows it without
escapes, in the order basic, literal, multi-line basic, multi-line literal; one that needs escapes
is a basic string, multi-line when it has line breaks. A key is bare when it can be, and
otherwise the first of a basic string without escapes, a literal string, and a basic string with
escapes. Messages about keys show them in the same way.
-/

namespace WikiSync.Toml

/-- A decimal digit. -/
def isDigit (c : Char) : Bool := '0' ≤ c && c ≤ '9'

/-- A character of a bare key. -/
def isBareKeyChar (c : Char) : Bool :=
  ('A' ≤ c && c ≤ 'Z') || ('a' ≤ c && c ≤ 'z') || isDigit c || c == '-' || c == '_'

/-- What a scan of a string finds about how it can be written. -/
structure StringMetrics where
  /-- The longest run of apostrophes. -/
  apostrophes : Nat := 0
  /-- The longest run of double quotes. -/
  quotes : Nat := 0
  /-- The current run of apostrophes. -/
  apostropheRun : Nat := 0
  /-- The current run of double quotes. -/
  quoteRun : Nat := 0
  /-- Whether it holds a control character other than a tab or a line feed. -/
  controls : Bool := false
  /-- Whether it holds a backslash. -/
  backslash : Bool := false
  /-- Whether it holds a line feed. -/
  multiline : Bool := false

/-- Whether a character can only be written as an escape: a control character other than a tab
or a line feed. -/
def needsEscapeCode (c : Char) : Bool :=
  c != '\t' && c != '\n' && (c.toNat ≤ 0x1F || c.toNat == 0x7F)

/-- Scan one more character. -/
def StringMetrics.step (m : StringMetrics) (c : Char) : StringMetrics :=
  let a := if c == '\'' then m.apostropheRun + 1 else 0
  let q := if c == '"' then m.quoteRun + 1 else 0
  { m with
    apostropheRun := a, apostrophes := max m.apostrophes a
    quoteRun := q, quotes := max m.quotes q
    controls := m.controls || needsEscapeCode c
    backslash := m.backslash || c == '\\'
    multiline := m.multiline || c == '\n' }

/-- The metrics of a string. -/
def StringMetrics.of (s : String) : StringMetrics := s.toList.foldl StringMetrics.step {}

/-- The four kinds of TOML string. -/
inductive StringForm where
  /-- Between double quotes, with escapes. -/
  | basic
  /-- Between apostrophes, as it is. -/
  | literal
  /-- Between triple double quotes, with escapes but real line breaks. -/
  | multiBasic
  /-- Between triple apostrophes, as it is. -/
  | multiLiteral
  deriving BEq

namespace StringMetrics

/-- Whether a basic string shows the text without any escape. -/
def plainBasic (m : StringMetrics) : Bool :=
  !m.controls && !m.backslash && m.quotes == 0 && !m.multiline

/-- Whether a literal string can show the text. -/
def fitsLiteral (m : StringMetrics) : Bool :=
  !m.controls && m.apostrophes == 0 && !m.multiline

/-- Whether a multi-line basic string shows the text without any escape. -/
def plainMultiBasic (m : StringMetrics) : Bool :=
  !m.controls && !m.backslash && m.quotes ≤ 2

/-- Whether a multi-line literal string can show the text. -/
def fitsMultiLiteral (m : StringMetrics) : Bool :=
  !m.controls && m.apostrophes ≤ 2

end StringMetrics

/-- The form a string value is written in: the first of a basic string without escapes, a
literal string, a multi-line basic string without escapes and a multi-line literal string that
shows it, and otherwise a basic string with escapes, multi-line when it has line breaks. -/
def StringMetrics.valueForm (m : StringMetrics) : StringForm :=
  if m.plainBasic then .basic
  else if m.fitsLiteral then .literal
  else if m.plainMultiBasic then .multiBasic
  else if m.fitsMultiLiteral then .multiLiteral
  else if m.multiline then .multiBasic
  else .basic

/-- The four-digit upper-case hexadecimal code of a character. -/
def hex4 (n : Nat) : String :=
  let ds := Nat.toDigits 16 n |>.map asciiUpperHex
  String.ofList (List.replicate (4 - ds.length) '0' ++ ds)
where
  /-- An upper-case hexadecimal digit. -/
  asciiUpperHex (c : Char) : Char := if 'a' ≤ c && c ≤ 'f' then Char.ofNat (c.toNat - 32) else c

/-- A character escaped for a basic string; in a multi-line one a line feed stays as it is. -/
def escapeChar (multi : Bool) (c : Char) : String :=
  if c.toNat == 8 then "\\b"
  else if c == '\t' then "\\t"
  else if c == '\n' then (if multi then "\n" else "\\n")
  else if c.toNat == 12 then "\\f"
  else if c == '\r' then "\\r"
  else if c == '"' then "\\\""
  else if c == '\\' then "\\\\"
  else if c.toNat ≤ 0x1F || c.toNat == 0x7F then "\\u" ++ hex4 c.toNat
  else c.toString

/-- The body of a multi-line basic string: escapes as in a basic string, except that line feeds
stay and a double quote is escaped only as the third of a run, so that no three stand
together. `run` counts the quotes just written. -/
def multiBasicBody : Nat → List Char → String
  | _, [] => ""
  | run, c :: rest =>
    if c == '"' then
      if run + 1 ≥ 3 then "\\\"" ++ multiBasicBody 0 rest else "\"" ++ multiBasicBody (run + 1) rest
    else escapeChar true c ++ multiBasicBody 0 rest

/-- A string in a form. A multi-line form starts on a new line when the text has line breaks. -/
def renderString (form : StringForm) (s : String) : String :=
  let lead := if s.contains '\n' then "\n" else ""
  match form with
  | .basic => "\"" ++ String.join (s.toList.map (escapeChar false)) ++ "\""
  | .literal => "'" ++ s ++ "'"
  | .multiBasic => "\"\"\"" ++ lead ++ multiBasicBody 0 s.toList ++ "\"\"\""
  | .multiLiteral => "'''" ++ lead ++ s ++ "'''"

/-- A string value as written. -/
def stringText (s : String) : String :=
  renderString (StringMetrics.of s).valueForm s

/-- A key as written: bare when it is made only of letters, digits, `-` and `_`; otherwise a
basic string when it needs no escape, a literal string when one can show it, and a basic string
with escapes last. -/
def keyText (k : String) : String :=
  let m := StringMetrics.of k
  if !k.isEmpty && k.toList.all isBareKeyChar then k
  else if m.plainBasic then renderString .basic k
  else if m.fitsLiteral then renderString .literal k
  else renderString .basic k

end WikiSync.Toml

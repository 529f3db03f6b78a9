import WikiSync.Json.Value
import WikiSync.Decimal.Shortest

/-!
# Printing JSON

Two layouts of one value: `compact` writes no blanks at all, `pretty` puts every item and member
on a line of its own, indented by two spaces per level, and writes an empty array or object as
`[]` or `{}`. Strings escape the quote, the backslash and the control characters below U+0020,
the last by their short forms where JSON has one and by four lower-case hex digits otherwise.
Integers are written exactly, doubles in their shortest scientific text, and a double that is
infinite or NaN as `null`.
-/

namespace WikiSync

/-- The text of a number: integers exactly, doubles in their shortest scientific text, and
`null` for a double that is infinite or NaN. -/
def Number.text : Number → String
  | .int n => Decimal.intText n
  | .float x => if Decimal.isFinite x then Decimal.scientific x else "null"

namespace Json

/-- The lower-case hex digit of a value below sixteen. -/
def hexDigit (n : Nat) : Char :=
  if n < 10 then Char.ofNat (48 + n) else Char.ofNat (87 + n)

/-- The escaped form of one character inside a JSON string. -/
def escapeChar (c : Char) : List Char :=
  if c == '"' then ['\\', '"']
  else if c == '\\' then ['\\', '\\']
  else if c == '\n' then ['\\', 'n']
  else if c == '\r' then ['\\', 'r']
  else if c == '\t' then ['\\', 't']
  else if c.val == 8 then ['\\', 'b']
  else if c.val == 12 then ['\\', 'f']
  else if c.val < 0x20 then
    ['\\', 'u', '0', '0', hexDigit (c.val.toNat / 16), hexDigit (c.val.toNat % 16)]
  else [c]

/-- A string in JSON quotes, escaped. -/
def quote (s : String) : String :=
  String.ofList ('"' :: (s.toList.flatMap escapeChar ++ ['"']))

/-- Items joined by a separator. -/
def joinWith (sep : String) : List String → String
  | [] => ""
  | [x] => x
  | x :: rest => x ++ sep ++ joinWith sep rest

mutual

/-- The compact text of a value. -/
def compact : Json → String
  | .null => "null"
  | .bool b => if b then "true" else "false"
  | .num n => n.text
  | .str s => quote s
  | .arr xs => "[" ++ joinWith "," (compactItems xs) ++ "]"
  | .obj ms => "\x7b" ++ joinWith "," (compactMembers ms) ++ "\x7d"

/-- The compact texts of array items. -/
def compactItems : List Json → List String
  | [] => []
  | x :: rest => compact x :: compactItems rest

/-- The compact texts of object members. -/
def compactMembers : List (String × Json) → List String
  | [] => []
  | (k, v) :: rest => (quote k ++ ":" ++ compact v) :: compactMembers rest

end

/-- Two spaces per level of nesting. -/
def indent (level : Nat) : String :=
  String.ofList (List.replicate (2 * level) ' ')

mutual

/-- The pretty text of a value nested `level` deep. -/
def prettyAt (level : Nat) : Json → String
  | .arr [] => "[]"
  | .obj [] => "\x7b\x7d"
  | .arr xs =>
    "[\n" ++ joinWith ",\n" (prettyItems (level + 1) xs) ++ "\n" ++ indent level ++ "]"
  | .obj ms =>
    "\x7b\n" ++ joinWith ",\n" (prettyMembers (level + 1) ms) ++ "\n" ++ indent level ++ "\x7d"
  | j => compact j

/-- The pretty texts of array items, each indented. -/
def prettyItems (level : Nat) : List Json → List String
  | [] => []
  | x :: rest => (indent level ++ prettyAt level x) :: prettyItems level rest

/-- The pretty texts of object members, each indented. -/
def prettyMembers (level : Nat) : List (String × Json) → List String
  | [] => []
  | (k, v) :: rest => (indent level ++ quote k ++ ": " ++ prettyAt level v) :: prettyMembers level rest

end

/-- The pretty text of a value. -/
def pretty (j : Json) : String :=
  prettyAt 0 j

end Json

end WikiSync

/-!
# Blank and control characters

Tag lists split at blanks and header lines are trimmed of them, where a blank is a character with
the Unicode `White_Space` property. File names may not hold control characters, the Unicode general
category `Cc`. Both classes are short fixed tables of code points, kept here with the text
operations built on them: trimming and splitting text into lines.
-/

namespace WikiSync.Text

/-- A blank is a character with the Unicode `White_Space` property. -/
def isBlank (c : Char) : Bool :=
  let n := c.val
  (0x09 ≤ n && n ≤ 0x0D) || n == 0x20 || n == 0x85 || n == 0xA0 || n == 0x1680 ||
    (0x2000 ≤ n && n ≤ 0x200A) || n == 0x2028 || n == 0x2029 || n == 0x202F ||
    n == 0x205F || n == 0x3000

/-- A control character is one of general category `Cc`: U+0000 to U+001F and U+007F to U+009F. -/
def isControl (c : Char) : Bool :=
  c.val < 0x20 || (0x7F ≤ c.val && c.val ≤ 0x9F)

/-- Text without its leading blanks. -/
def trimStart (s : String) : String :=
  String.ofList (s.toList.dropWhile isBlank)

/-- Text without its trailing blanks. -/
def trimEnd (s : String) : String :=
  String.ofList (s.toList.reverse.dropWhile isBlank).reverse

/-- Text without its leading and trailing blanks. -/
def trim (s : String) : String :=
  trimEnd (trimStart s)

/-- Whether some character of the text is a blank. -/
def hasBlank (s : String) : Bool :=
  s.toList.any isBlank

/-- The line gathered so far (kept reversed), closed by a line feed: a carriage return just before
the line feed belongs to the break. -/
def closeLine : List Char → List Char
  | '\r' :: rest => rest.reverse
  | acc => acc.reverse

/-- Split characters into lines; `acc` holds the current line reversed. -/
def linesFrom : List Char → List Char → List (List Char)
  | [], [] => []
  | [], acc => [acc.reverse]
  | '\n' :: rest, acc => closeLine acc :: linesFrom rest []
  | c :: rest, acc => linesFrom rest (c :: acc)

/-- The lines of a text: it is cut at each line feed, a carriage return before a line feed is
dropped with it, and a final line feed opens no empty last line. -/
def lines (s : String) : List String :=
  (linesFrom s.toList []).map String.ofList

/-- Split text at the first occurrence of a character. -/
def splitAtChar (s : String) (sep : Char) : Option (String × String) :=
  let cs := s.toList
  match cs.findIdx? (· == sep) with
  | some i => some (String.ofList (cs.take i), String.ofList (cs.drop (i + 1)))
  | none => none

/-- Whether `pat` occurs in `cs` at its start. -/
def startsWithChars : List Char → List Char → Bool
  | _, [] => true
  | [], _ :: _ => false
  | c :: cs, p :: ps => c == p && startsWithChars cs ps

/-- Split characters at the first occurrence of a non-empty pattern: the part before it and
the part after it. -/
def splitOnFirst (pat : List Char) : List Char → Option (List Char × List Char)
  | [] => if pat.isEmpty then some ([], []) else none
  | c :: cs =>
    if startsWithChars (c :: cs) pat then some ([], (c :: cs).drop pat.length)
    else (splitOnFirst pat cs).map fun (before, after) => (c :: before, after)

/-- Replace every occurrence of a two-character pattern by one character. -/
def replacePair (a b r : Char) : List Char → List Char
  | [] => []
  | [c] => [c]
  | c :: d :: rest =>
    if c == a && d == b then r :: replacePair a b r rest else c :: replacePair a b r (d :: rest)

/-- Whether a text contains a pattern. -/
def containsChars (s pat : List Char) : Bool :=
  (splitOnFirst pat s).isSome

end WikiSync.Text

import WikiSync.Text.Blank
import WikiSync.Path

/-!
# File names for titles

A title becomes a file stem that every platform accepts: the characters `< > : " / \ | ? * ^`
and control characters become `_`, the stem keeps at most 200 characters, dots and blanks are
trimmed from both ends, an empty result becomes `_`, and a reserved device name (`CON`, `PRN`,
`AUX`, `NUL`, `COM1`–`COM9`, `LPT1`–`LPT9`, in any letter case) gets a leading `_`.

A free path for a title under a root is the first of `stem.ext`, `stem_1.ext`, `stem_2.ext`, …
that is not taken.
-/

namespace WikiSync.FileName

/-- The longest stem made from a title, in characters. -/
def maxStemChars : Nat := 200

/-- Characters that no file name may hold. -/
def forbidden : List Char := ['<', '>', ':', '"', '/', '\\', '|', '?', '*', '^']

/-- Names that some platforms reserve for devices. -/
def reserved : List String :=
  ["CON", "PRN", "AUX", "NUL", "COM1", "COM2", "COM3", "COM4", "COM5", "COM6", "COM7", "COM8",
    "COM9", "LPT1", "LPT2", "LPT3", "LPT4", "LPT5", "LPT6", "LPT7", "LPT8", "LPT9"]

/-- Whether a character is trimmed from the ends of a stem. -/
def trimmed (c : Char) : Bool :=
  c == '.' || Text.isBlank c

/-- The stem for a title. -/
def sanitize (title : String) : String :=
  let cs := (title.toList.map fun c => if forbidden.contains c || Text.isControl c then '_' else c).take
    maxStemChars
  let cs := ((cs.dropWhile trimmed).reverse.dropWhile trimmed).reverse
  let stem := String.ofList cs
  if cs.isEmpty then "_"
  else if reserved.any (fun r => r.map Char.toUpper == stem.map Char.toUpper) then "_" ++ stem
  else stem

/-- The `n`-th candidate path: `stem.ext` first, then `stem_n.ext`. -/
def candidate (root stem ext : String) (n : Nat) : String :=
  if n == 0 then Path.join root (stem ++ "." ++ ext)
  else Path.join root (stem ++ "_" ++ Nat.repr n ++ "." ++ ext)

/-- The first candidate from the `n`-th on that is not taken, trying at most `bound` of them. -/
def firstFree (root stem ext : String) (taken : String → Bool) : Nat → Nat → String
  | 0, n => candidate root stem ext n
  | bound + 1, n =>
    let p := candidate root stem ext n
    if taken p then firstFree root stem ext taken bound (n + 1) else p

/-- A free path for a title under a root. `bound` is the number of paths that may be taken: the
candidates are pairwise different, so one of the first `bound + 1` is free. -/
def generate (root title ext : String) (taken : String → Bool) (bound : Nat) : String :=
  firstFree root (sanitize title) ext taken bound 0

end WikiSync.FileName

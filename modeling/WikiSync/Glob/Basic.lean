/-!
# Glob patterns

A glob is read into tokens: literal characters, `?` for one character of a name, `*` for a run
of them, `**` for any number of whole directories, bracketed classes and braced groups of
alternatives, which may nest. A backslash makes the next character literal, and `/` is the only
separator.

`**` is special only as a whole component: at the start followed by `/` (or alone) it matches
any leading directories, after a `/` at the end any trailing path, and between two `/` any
directories in the middle. Anywhere else it is two stars. Inside a group, a `**` directly after
`{` or `,` counts as following a separator, and `,` or `}` after it counts as the end.

A class lists characters and ranges; `!` or `^` first negates it, a `]` or `-` first is
literal, and a `-` last is literal. Errors are the unclosed class, a range whose ends are out of
order, a `}` with no open group, a group left open, and a backslash at the very end.
-/

namespace WikiSync.Glob

/-- One token of a glob. -/
inductive Token where
  /-- A character matched as itself. -/
  | literal (c : Char)
  /-- `?`: one character other than the separator. -/
  | any
  /-- `*`: a run of characters other than the separator. -/
  | zeroOrMore
  /-- A leading `**/`: any leading directories, or none. -/
  | recursivePrefix
  /-- A trailing `/**`: the separator, then anything. -/
  | recursiveSuffix
  /-- An inner `/**/`: one separator, or any directories between two. -/
  | recursiveZeroOrMore
  /-- A bracketed class of characters and ranges, possibly negated. -/
  | cls (negated : Bool) (ranges : List (Char × Char))
  /-- A braced group: any one of its branches. -/
  | alternates (branches : List (List Token))
  deriving Inhabited, Repr

/-- Why a glob cannot be read. -/
inductive GlobError where
  | unclosedClass
  | invalidRange (lo hi : Char)
  | unopenedAlternates
  | unclosedAlternates
  | danglingEscape
  deriving BEq, Inhabited, Repr

/-- The message of a glob error. -/
def GlobError.text : GlobError → String
  | .unclosedClass => "unclosed character class; missing ']'"
  | .invalidRange lo hi => "invalid range; '" ++ lo.toString ++ "' > '" ++ hi.toString ++ "'"
  | .unopenedAlternates =>
    "unopened alternate group; missing '\x7b' (maybe escape '\x7d' with '[\x7d]'?)"
  | .unclosedAlternates =>
    "unclosed alternate group; missing '\x7d' (maybe escape '\x7b' with '[\x7b]'?)"
  | .danglingEscape => "dangling '\\'"

/-- A glob being read: the open branches, innermost first, each holding its tokens last first,
and for every open group the number of branches below its first one. -/
structure Reader where
  /-- Open branches, innermost first; tokens of each in reverse. -/
  branches : List (List Token) := [[]]
  /-- For each open group, innermost first, how many branches lie below it. -/
  groups : List Nat := []
  /-- Whether a `[` that is never closed stands for itself. -/
  looseClasses : Bool := false
  /-- Whether a class was found unclosed, so that every later `[` stands for itself. -/
  classCut : Bool := false
  deriving Inhabited

namespace Reader

/-- Add a token to the innermost branch. -/
def push (r : Reader) (t : Token) : Except GlobError Reader :=
  match r.branches with
  | b :: bs => .ok { r with branches := (t :: b) :: bs }
  | [] => .error .unopenedAlternates

/-- Whether the innermost branch has tokens. -/
def hasTokens (r : Reader) : Bool :=
  match r.branches with
  | b :: _ => !b.isEmpty
  | [] => false

/-- Take the last token of the innermost branch. -/
def pop (r : Reader) : Reader × Option Token :=
  match r.branches with
  | (t :: b) :: bs => ({ r with branches := b :: bs }, some t)
  | _ => (r, none)

/-- Open a group with its first branch. -/
def openGroup (r : Reader) : Reader :=
  { r with branches := [] :: r.branches, groups := r.branches.length :: r.groups }

/-- Close the innermost group into one token of the branch around it. -/
def closeGroup (r : Reader) : Except GlobError Reader :=
  match r.groups with
  | [] => .error .unopenedAlternates
  | start :: groups =>
    let count := r.branches.length - start
    let inner := (r.branches.take count).reverse.map List.reverse
    push { r with branches := r.branches.drop count, groups } (.alternates inner)

/-- A comma: a new branch inside a group, a literal outside. -/
def comma (r : Reader) : Except GlobError Reader :=
  if r.groups.isEmpty then r.push (.literal ',')
  else .ok { r with branches := [] :: r.branches }

end Reader

/-- Push several tokens. -/
def pushAll (r : Reader) : List Token → Except GlobError Reader
  | [] => .ok r
  | t :: ts => do pushAll (← r.push t) ts

/-- Read a `**` whose first star followed `before` and whose second star was just taken; `rest`
follows it. Answers the reader, the characters left and the last character taken. -/
def readDoubleStar (r : Reader) (before : Option Char) (rest : List Char) :
    Except GlobError (Reader × List Char × Char) :=
  let twoStars := do pure (← pushAll r [.zeroOrMore, .zeroOrMore], rest, '*')
  if !r.hasTokens then
    match rest with
    | '/' :: rest' => do pure (← r.push .recursivePrefix, rest', '/')
    | [] => do pure (← r.push .recursivePrefix, [], '*')
    | _ => twoStars
  else if before != some '/' &&
      (r.branches.length ≤ 1 || (before != some ',' && before != some '{')) then twoStars
  else
    let ending : Option (Bool × List Char × Char) := match rest with
      | [] => some (true, [], '*')
      | c :: rest' =>
        if (c == ',' || c == '}') && r.branches.length ≥ 2 then some (true, rest, '*')
        else if c == '/' then some (false, rest', '/')
        else none
    match ending with
    | none => twoStars
    | some (isSuffix, rest', last) =>
      let (r', top) := r.pop
      let t := match top with
        | some .recursivePrefix => Token.recursivePrefix
        | some .recursiveSuffix => Token.recursiveSuffix
        | _ => if isSuffix then Token.recursiveSuffix else Token.recursiveZeroOrMore
      do pure (← r'.push t, rest', last)

/-- Widen the last range of a class to a new upper end. -/
def widen (ranges : List (Char × Char)) (c : Char) : Except GlobError (List (Char × Char)) :=
  match ranges with
  | (lo, _) :: more => if c < lo then .error (.invalidRange lo c) else .ok ((lo, c) :: more)
  | [] => .ok [(c, c)]

/-- Read the items of a class up to its closing `]`. Ranges are kept last first. -/
def readClassItems : List Char → Bool → Bool → List (Char × Char) →
    Except GlobError (List (Char × Char) × List Char)
  | [], _, _, _ => .error .unclosedClass
  | c :: rest, first, inRange, ranges =>
    if c == ']' && !first then
      .ok ((if inRange then ('-', '-') :: ranges else ranges).reverse, rest)
    else if c == ']' then readClassItems rest false inRange ((']', ']') :: ranges)
    else if c == '-' then
      if first then readClassItems rest false false (('-', '-') :: ranges)
      else if inRange then do readClassItems rest false false (← widen ranges '-')
      else readClassItems rest false true ranges
    else if inRange then do readClassItems rest false false (← widen ranges c)
    else readClassItems rest false false ((c, c) :: ranges)

/-- Read a class after its `[`. -/
def readClass (cs : List Char) : Except GlobError (Token × List Char) :=
  let (negated, body) := match cs with
    | '!' :: rest => (true, rest)
    | '^' :: rest => (true, rest)
    | _ => (false, cs)
  do
    let (ranges, rest) ← readClassItems body true false []
    pure (.cls negated ranges, rest)

/-- Read characters into the reader; `before` is the character taken last. -/
def readChars : Nat → Reader → Option Char → List Char → Except GlobError Reader
  | 0, r, _, _ => .ok r
  | _, r, _, [] => .ok r
  | fuel + 1, r, before, c :: rest =>
    match c with
    | '?' => do readChars fuel (← r.push .any) (some c) rest
    | '*' =>
      match rest with
      | '*' :: rest' => do
        let (r, rest'', last) ← readDoubleStar r before rest'
        readChars fuel r (some last) rest''
      | _ => do readChars fuel (← r.push .zeroOrMore) (some c) rest
    | '[' =>
      if r.classCut then do readChars fuel (← r.push (.literal c)) (some c) rest
      else match readClass rest with
        | .ok (t, rest') => do readChars fuel (← r.push t) (some ']') rest'
        | .error .unclosedClass =>
          if r.looseClasses then do
            readChars fuel (← { r with classCut := true }.push (.literal c)) (some c) rest
          else .error .unclosedClass
        | .error e => .error e
    | '{' => readChars fuel r.openGroup (some c) rest
    | '}' => do readChars fuel (← r.closeGroup) (some c) rest
    | ',' => do readChars fuel (← r.comma) (some c) rest
    | '\\' =>
      match rest with
      | [] => .error .danglingEscape
      | d :: rest' => do readChars fuel (← r.push (.literal d)) (some d) rest'
    | _ => do readChars fuel (← r.push (.literal c)) (some c) rest

/-- The tokens of a glob. With `looseClasses`, a `[` that is never closed stands for itself, and
so does every `[` after it. -/
def parse (glob : String) (looseClasses : Bool := false) : Except GlobError (List Token) := do
  let cs := glob.toList
  let r ← readChars (cs.length + 1) { looseClasses } none cs
  match r.branches with
  | [b] => pure b.reverse
  | _ => throw .unclosedAlternates

end WikiSync.Glob

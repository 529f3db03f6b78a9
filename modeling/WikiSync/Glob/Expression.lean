import WikiSync.Glob.Match

/-!
# Globs as regular expressions

Every glob stands for a regular expression over bytes, anchored at both ends and written with
Unicode matching off: `(?-u)^`, the body, then `$`. In the body a byte below 128 stands for
itself, the metacharacters among them escaped with a backslash, and a higher byte is `\x` with
two lower-case hex digits. `?` is `[^/]`, `*` is `[^/]*`, a leading `**/` is `(?:/?|.*/)`, a
trailing `/**` is `/.*` and an inner `/**/` is `(?:/|/.*/)`. A class lists its characters and
ranges, byte by byte, between brackets. A group is its non-empty branches between bars inside
`(?:` and `)`, and nothing when every branch is empty. A glob that is `**` alone is `(?-u)^.*$`.

The syntax tree of such an expression nests, and a set of globs is refused when an expression
that must be read as one nests more than `nestLimit` levels deep. Counting from the root, which
is the sequence of the anchors and the body, a level is added by every sequence of two or more
items, group, alternation, repetition and bracketed class, and by a class of two or more items.
Literal bytes and `.` add none. So the group of a glob `{a{a{a}}}` nesting `n` deep reaches
`2 * n` levels: each group and the sequence inside it add one each.
-/

namespace WikiSync.Glob

/-- Whether an ASCII character has a meaning of its own in an expression. -/
def isMetaChar (c : Char) : Bool := "\\.+*?()|[]\x7b\x7d^$#&-~".contains c

/-- A byte as an expression that matches exactly it. -/
def byteText (b : UInt8) : String :=
  if b < 128 then
    let c := Char.ofNat b.toNat
    if isMetaChar c then "\\" ++ c.toString else c.toString
  else
    let ds := Nat.toDigits 16 b.toNat
    "\\x" ++ String.ofList (List.replicate (2 - ds.length) '0' ++ ds)

/-- A character as an expression over its bytes. -/
def charText (c : Char) : String := String.join ((Utf8.encodeChar c).map byteText)

/-- One range of a class: a single character, or two ends joined by `-`. -/
def rangeText (r : Char × Char) : String :=
  if r.1 == r.2 then charText r.1 else charText r.1 ++ "-" ++ charText r.2

mutual
/-- The expression of one token. -/
def tokenText : Token → String
  | .literal c => charText c
  | .any => "[^/]"
  | .zeroOrMore => "[^/]*"
  | .recursivePrefix => "(?:/?|.*/)"
  | .recursiveSuffix => "/.*"
  | .recursiveZeroOrMore => "(?:/|/.*/)"
  | .cls negated ranges => "[" ++ (if negated then "^" else "") ++ String.join (ranges.map rangeText) ++ "]"
  | .alternates branches =>
    let parts := (branchesText branches).filter (!·.isEmpty)
    if parts.isEmpty then "" else "(?:" ++ "|".intercalate parts ++ ")"

/-- The expression of a sequence of tokens. -/
def tokensText : List Token → String
  | [] => ""
  | t :: ts => tokenText t ++ tokensText ts

/-- The expressions of the branches of a group. -/
def branchesText : List (List Token) → List String
  | [] => []
  | b :: bs => tokensText b :: branchesText bs
end

/-- The whole expression of a glob's tokens. -/
def expressionText (ts : List Token) : String :=
  "(?-u)^" ++ (match ts with
    | [.recursivePrefix] => ".*"
    | _ => tokensText ts) ++ "$"

/-- The deepest level an expression may reach. -/
def nestLimit : Nat := 250

/-- The depth of a sequence of items, given the depth each one reaches: one item is as deep
as itself, and two or more sit one level down in a sequence. -/
def seqDepth : List Nat → Nat
  | [] => 0
  | [d] => d
  | ds => 1 + ds.foldl max 0

/-- The number of items a class holds: a character is one item per byte, and a range of two
different characters joins the last byte of one to the first of the other. -/
def classItems (ranges : List (Char × Char)) : Nat :=
  ranges.foldl (fun n r =>
    let lo := (Utf8.encodeChar r.1).length
    n + if r.1 == r.2 then lo else lo + (Utf8.encodeChar r.2).length - 1) 0

mutual
/-- The depths the items of one token's expression reach. -/
def tokenDepths : Token → List Nat
  | .literal c => List.replicate (Utf8.encodeChar c).length 0
  | .any => [1]
  | .zeroOrMore => [2]
  | .recursivePrefix => [4]
  | .recursiveSuffix => [0, 1]
  | .recursiveZeroOrMore => [4]
  | .cls _ ranges => [if classItems ranges > 1 then 2 else 1]
  | .alternates branches =>
    match (branchesDepths branches).filter (!·.isEmpty) with
    | [] => []
    | [p] => [1 + seqDepth p]
    | ps => [2 + (ps.map seqDepth).foldl max 0]

/-- The depths the items of a sequence of tokens reach. -/
def tokensDepths : List Token → List Nat
  | [] => []
  | t :: ts => tokenDepths t ++ tokensDepths ts

/-- The depths the items of each branch of a group reach. -/
def branchesDepths : List (List Token) → List (List Nat)
  | [] => []
  | b :: bs => tokensDepths b :: branchesDepths bs
end

/-- How deep the whole expression of a glob's tokens nests, its root sequence counted. -/
def expressionDepth (ts : List Token) : Nat :=
  1 + match ts with
    | [.recursivePrefix] => 1
    | _ => (tokensDepths ts).foldl max 0

/-- Whether a glob's expression nests too deeply to be read. -/
def Pattern.tooDeep (p : Pattern) : Bool := expressionDepth p.tokens > nestLimit

/-- Why a set of globs cannot be built, if it cannot: only globs of the shapes that need an
expression are read as one. A glob that must end in an extension is read on its own, and the
first that nests too deeply is named by its expression; the globs of the general shape are read
together, and the first that nests too deeply is named by its place among them. -/
def setFailure? (ps : List Pattern) : Option String :=
  match ps.find? (fun p => p.shape matches .withExtension _ && p.tooDeep) with
  | some p => some ("error parsing glob '" ++ expressionText p.tokens ++ "': error parsing pattern 0")
  | none =>
    ((ps.filter (·.shape matches .general)).findIdx? Pattern.tooDeep).map fun i =>
      "error parsing pattern " ++ toString i

end WikiSync.Glob

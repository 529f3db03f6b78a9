/-!
# Paths

A path is text split at `/` into components: an optional root, then names, where `..` names the
parent and a `.` counts only at the very start of a relative path. Empty components vanish, so
`a//b/` and `a/b` are the same path. Paths are kept as the text they were written in; equality,
order and prefixes are those of their component lists, names ordered by code point. The part
of a path after a prefix, and its parent, keep the text they were written in, apart from the
separators and `.` pieces at their ends.

A file name splits at its last dot into stem and extension, except that a name whose only dot
leads it has no extension. Joining a relative path appends it after one separator; joining an
absolute path replaces what was there.
-/

namespace WikiSync

/-- One component of a path. -/
inductive Component where
  /-- The leading `/` of an absolute path. -/
  | root
  /-- A leading `.` of a relative path. -/
  | current
  /-- `..`. -/
  | parent
  /-- Any other name. -/
  | normal (name : String)
  deriving BEq, DecidableEq, Repr, Inhabited

namespace Component

/-- The rank of a component's kind in path order. -/
def rank : Component → Nat
  | .root => 0
  | .current => 1
  | .parent => 2
  | .normal _ => 3

/-- Path order on components: root, current, parent, then names by code point. -/
def compare (a b : Component) : Ordering :=
  match a, b with
  | .normal x, .normal y => Ord.compare x y
  | _, _ => Ord.compare a.rank b.rank

/-- The text of a component. -/
def text : Component → String
  | .root => "/"
  | .current => "."
  | .parent => ".."
  | .normal n => n

end Component

namespace Path

/-- The names between separators, empty ones dropped. -/
def pieces (p : String) : List String :=
  ((p.toList.splitOn '/').map String.ofList).filter (· ≠ "")

/-- The components of a path. -/
def components (p : String) : List Component :=
  let absolute := p.startsWith "/"
  let ps := pieces p
  let leadingDot := !absolute && (p == "." || p.startsWith "./")
  let names := (ps.filter (· ≠ ".")).map fun n => if n == ".." then Component.parent else .normal n
  (if absolute then [Component.root] else []) ++ (if leadingDot then [Component.current] else []) ++ names

/-- The text of a list of components. -/
def ofComponents : List Component → String
  | [] => ""
  | .root :: rest => "/" ++ "/".intercalate (rest.map Component.text)
  | cs => "/".intercalate (cs.map Component.text)

/-- Whether two paths have the same components. -/
def same (a b : String) : Bool :=
  components a == components b

/-- Path order: component lists compared lexicographically. -/
def compareComponents : List Component → List Component → Ordering
  | [], [] => .eq
  | [], _ :: _ => .lt
  | _ :: _, [] => .gt
  | a :: as, b :: bs =>
    match a.compare b with
    | .eq => compareComponents as bs
    | o => o

/-- Path order on texts. -/
def compare (a b : String) : Ordering :=
  compareComponents (components a) (components b)

/-- Whether `a` comes strictly before `b` in path order. -/
def lt (a b : String) : Bool :=
  compare a b == .lt

/-- Sort paths in path order. -/
def sort (ps : List String) : List String :=
  ps.mergeSort fun a b => compare a b != .gt

/-- Whether a path is absolute. -/
def isAbsolute (p : String) : Bool :=
  p.startsWith "/"

/-- Append `q` to `p`: an absolute `q` replaces `p`, otherwise one separator is added unless `p`
is empty or already ends in one. -/
def join (p q : String) : String :=
  if isAbsolute q then q
  else if p.isEmpty || p.endsWith "/" then p ++ q
  else p ++ "/" ++ q

/-- Whether the components of `base` begin the components of `p`. -/
def startsWith (p base : String) : Bool :=
  (components base).isPrefixOf (components p)

/-- The length of a path's head: its root `/`, or the `.` that starts a relative path. -/
def headLength (p : String) : Nat :=
  if p.startsWith "/" || p == "." || p.startsWith "./" then 1 else 0

/-- Whether a piece of text between separators names nothing: it is empty, or `.`. -/
def isBlankPiece (s : String) : Bool := s.isEmpty || s == "."

/-- The pieces of a path's text after its head, blank ones included, so that joining them with
`/` gives that text back. -/
def bodyPieces (p : String) : List String :=
  ((p.toList.drop (headLength p)).splitOn '/').map String.ofList

/-- Pieces after the first `k` that name something, and the blank pieces among them. -/
def dropNamed : List String → Nat → List String
  | ps, 0 => ps
  | [], _ => []
  | s :: rest, k + 1 => if isBlankPiece s then dropNamed rest (k + 1) else dropNamed rest k

/-- The text of a path after its first `k` components, as written: separators and `.` pieces
inside it stay, while those at either end are dropped. -/
def textAfter (p : String) (k : Nat) : String :=
  let trimEnd (ps : List String) : List String := (ps.reverse.dropWhile isBlankPiece).reverse
  if k == 0 then
    String.ofList (p.toList.take (headLength p)) ++ "/".intercalate (trimEnd (bodyPieces p))
  else
    let skipped := if headLength p == 1 then k - 1 else k
    "/".intercalate (trimEnd ((dropNamed (bodyPieces p) skipped).dropWhile isBlankPiece))

/-- The part of `p` after `base`, when the components of `base` begin it: the rest of `p` as
written, without separators or `.` pieces at its ends. -/
def stripPrefix? (p base : String) : Option String :=
  let cb := components base
  if cb.isPrefixOf (components p) then some (textAfter p cb.length) else none

/-- The last component, when it is a name. -/
def fileName? (p : String) : Option String :=
  match (components p).getLast? with
  | some (.normal n) => some n
  | _ => none

/-- The path without its last component, as written up to it and without the separators and
`.` pieces that end it; none for a root or an empty path. -/
def parent? (p : String) : Option String :=
  match (components p).getLast? with
  | none => none
  | some .root => none
  | some _ =>
    let head := String.ofList (p.toList.take (headLength p))
    match (bodyPieces p).reverse.dropWhile isBlankPiece with
    | [] => some ""
    | _ :: before => some (head ++ "/".intercalate (before.dropWhile isBlankPiece).reverse)

/-- A file name split at its last dot: the stem and, if there is one, the extension. -/
def splitName (name : String) : String × Option String :=
  if name == ".." then (name, none)
  else
    let cs := name.toList
    match cs.reverse.findIdx? (· == '.') with
    | none => (name, none)
    | some i =>
      let dot := cs.length - 1 - i
      if dot == 0 then (name, none)
      else (String.ofList (cs.take dot), some (String.ofList (cs.drop (dot + 1))))

/-- The extension of the file name, without its dot. -/
def extension? (p : String) : Option String :=
  (fileName? p).bind fun n => (splitName n).2

/-- The file name without its extension. -/
def fileStem? (p : String) : Option String :=
  (fileName? p).map fun n => (splitName n).1

/-- Replace the file name, or append one when the path ends in no name. -/
def withFileName (p name : String) : String :=
  match fileName? p with
  | some _ => join ((parent? p).getD "") name
  | none => join p name

/-- The ancestors of a path, itself first, each the parent of the one before as written, down
to the root of an absolute path or to the empty path. -/
def ancestorsUp : Nat → String → List String
  | 0, _ => []
  | fuel + 1, p => p :: match parent? p with
    | some q => ancestorsUp fuel q
    | none => []

/-- The ancestors of a path, itself first: each parent in turn, as written, down to the root of
an absolute path or to the empty path. -/
def ancestors (p : String) : List String :=
  ancestorsUp (p.length + 2) p

end Path

end WikiSync

import WikiSync.Glob.Expression
import WikiSync.Path
import WikiSync.Text.Blank
import WikiSync.Watch.Error

/-!
# Ignore rules

The permanent exclusions of a watched root are lines in the format of ignore files. A line
starting with `#` is a comment; trailing blanks are dropped unless escaped with a backslash; an
empty line is skipped. `\!` and `\#` start a line with a literal `!` or `#`. A leading `!`
re-includes what earlier lines exclude, a leading `/` anchors the pattern at the root, and a
trailing `/` restricts it to directories. A pattern with no `/` in it matches at any depth, and
one ending in `/**` matches everything inside a directory but not the directory itself. A `[`
that is never closed stands for itself.

A path is judged relative to the root, as written: the last line that matches it decides, and
when none does, each parent directory in turn is judged the same way, up to the root itself. A
parent is the path without its last component, so `x/./b` has the parent `x` and `x/.` the
empty parent, while `x/.` itself is judged as written. Paths outside
the root are never ignored. A relative path that still starts with `/` once the root is cut
off its text cannot be judged at all; `isIgnored` answers `none` then.
-/

namespace WikiSync

/-- One line of ignore rules, read. -/
structure IgnoreLine where
  /-- The line as written, trailing blanks dropped. -/
  written : String
  /-- The glob it became. -/
  actual : String
  /-- Whether the line re-includes what it matches. -/
  whitelist : Bool
  /-- Whether the line matches directories only. -/
  onlyDir : Bool
  /-- The compiled glob. -/
  pattern : Glob.Pattern
  deriving Inhabited

/-- Read one line; none for a comment or a blank line. -/
def IgnoreLine.read? (raw : String) : Except String (Option IgnoreLine) :=
  if raw.startsWith "#" then .ok none
  else
    let line := if raw.endsWith "\\ " then raw else Text.trimEnd raw
    if line.isEmpty then .ok none
    else
      let (body, whitelist, absolute) :=
        if line.startsWith "\\!" || line.startsWith "\\#" then
          let b := line.drop 1 |>.toString
          (b, false, b.startsWith "/")
        else
          let (b, w) := if line.startsWith "!" then (line.drop 1 |>.toString, true) else (line, false)
          if b.startsWith "/" then (b.drop 1 |>.toString, w, true) else (b, w, false)
      let (body, onlyDir) :=
        if body.endsWith "/" then
          let b := body.dropEnd 1 |>.toString
          ((if b.endsWith "\\" then b.dropEnd 1 |>.toString else b), true)
        else (body, false)
      let actual :=
        if !absolute && !body.contains '/' && !(body.startsWith "**/" || body == "**") then
          "**/" ++ body
        else body
      let actual := if actual.endsWith "/**" then actual ++ "/*" else actual
      match Glob.Pattern.ofText actual true with
      | .ok p => .ok (some ⟨line, actual, whitelist, onlyDir, p⟩)
      | .error e => .error ("error parsing glob '" ++ line ++ "': " ++ e.text)

/-- The permanent exclusions of one root. -/
structure IgnoreRules where
  /-- The root the rules are relative to. -/
  root : String
  /-- The lines, in the order given. -/
  lines : List IgnoreLine := []
  deriving Inhabited

namespace IgnoreRules

/-- Rules that ignore nothing. -/
def empty (root : String) : IgnoreRules :=
  ⟨root, []⟩

/-- Read rules from their lines; the first line that cannot be read fails, and then the whole
list fails when its globs cannot be built into one set. -/
def new (root : String) (patterns : List String) : Except WatchError IgnoreRules := do
  let lines ← patterns.filterMapM fun p =>
    match IgnoreLine.read? p with
    | .ok l => .ok l
    | .error reason => .error (.invalidPattern p reason)
  match Glob.setFailure? (lines.map (·.pattern)) with
  | some reason => throw (.invalidPattern (", ".intercalate patterns) reason)
  | none => pure ⟨root, lines⟩

/-- The text of a path with the root's text cut off its front. -/
def strip (r : IgnoreRules) (p : String) : String :=
  let p := if p.startsWith "./" then (p.drop 2).toString else p
  if r.root != "." && p.contains '/' && p.startsWith r.root then
    let q := (p.drop r.root.length).toString
    if q.startsWith "/" then (q.drop 1).toString else q
  else p

/-- The verdict of the last line matching a relative path: some true to ignore, some false to
re-include, none when no line matches. -/
def verdict (r : IgnoreRules) (p : String) (isDir : Bool) : Option Bool :=
  let bytes := Utf8.encode p
  r.lines.reverse.findSome? fun l =>
    if (!l.onlyDir || isDir) && l.pattern.matchesBytes bytes then some !l.whitelist else none

/-- Judge a relative path and then its parents, which are directories. -/
def verdictUp (r : IgnoreRules) : Nat → String → Bool → Option Bool
  | 0, _, _ => none
  | fuel + 1, p, isDir =>
    match r.verdict p isDir with
    | some v => some v
    | none => match Path.parent? p with
      | some q => r.verdictUp fuel q true
      | none => none

/-- Whether a path, or one of its parents up to the root, is ignored; none when the path cannot
be judged. Paths outside the root are not ignored. -/
def isIgnored (r : IgnoreRules) (p : String) (isDir : Bool) : Option Bool :=
  if !Path.startsWith p r.root || r.lines.isEmpty then some false
  else
    let rel := r.strip p
    if rel.startsWith "/" then none
    else some ((r.verdictUp (rel.length + 2) rel isDir).getD false)

end IgnoreRules

/-!
## Watched roots

A watched root is a directory with its ignore patterns and whether symbolic links below it are
left alone. Its rules are the ignore rules read from the patterns, which may fail.
-/

/-- A directory tree to watch and how to filter it. -/
structure WatchRoot where
  /-- The directory. -/
  root : String
  /-- Ignore patterns, one per line of an ignore file. -/
  ignorePatterns : List String := []
  /-- Whether links are left alone instead of followed. -/
  ignoreSymlinks : Bool := false
  deriving Inhabited, Repr

/-- The filtering rules of one root. -/
structure RootRules where
  /-- The ignore rules; their root is the watched root. -/
  ignore : IgnoreRules
  /-- Whether links are left alone instead of followed. -/
  ignoreSymlinks : Bool
  deriving Inhabited

/-- The root the rules belong to. -/
def RootRules.root (r : RootRules) : String :=
  r.ignore.root

/-- The rules of a watched root. -/
def WatchRoot.rules (w : WatchRoot) : Except WatchError RootRules := do
  pure ⟨← IgnoreRules.new w.root w.ignorePatterns, w.ignoreSymlinks⟩

end WikiSync

import WikiSync.Glob.Automaton

/-!
# Matching globs against paths

Globs match paths byte by byte in their UTF-8 form: `?` takes one byte other than `/`, `*` a run
of such bytes, and a class one byte, its characters and ranges spelt out in bytes (so the range
`é-ü` holds the byte `C3`, the bytes `A9` to `C3` and the byte `BC`). The recursive tokens take
runs of any bytes, newlines included. A group matches when one of its non-empty branches does; a
group whose branches are all empty matches the empty text. A glob that is `**` alone matches any
path.

Before the general matcher runs, a glob is sorted by shape, and some shapes look only at part of
the path. A glob that is all literal compares the whole path; `**/name` compares the path's
base name; `**/*.ext` compares the extension of the base name; a literal followed by a trailing
`/**` compares a prefix; `**/` followed by literals, or literals alone, compare a suffix; and a
glob ending in `.ext` requires that extension before the general matcher is asked. A path whose
last component is `..` has no base name and no extension, so the shapes that look at them never
match it.
-/

namespace WikiSync.Glob

/-- How a glob is matched. -/
inductive Shape where
  /-- The whole path equals the text. -/
  | exact (text : List UInt8)
  /-- The base name equals the text. -/
  | baseName (text : List UInt8)
  /-- The extension of the base name, dot included, equals the text. -/
  | extension (text : List UInt8)
  /-- The path starts with the text. -/
  | start (text : List UInt8)
  /-- The path ends with the text, or, for a whole component, equals it without its `/`. -/
  | ending (text : List UInt8) (component : Bool)
  /-- The extension must be this one, and the general matcher must agree. -/
  | withExtension (text : List UInt8)
  /-- The general matcher alone. -/
  | general
  deriving Inhabited, Repr

/-- The characters of tokens that are all literal. -/
def literals (ts : List Token) : Option (List Char) :=
  ts.mapM fun
    | .literal c => some c
    | _ => none

/-- The bytes of characters. -/
def bytesOf (cs : List Char) : List UInt8 :=
  cs.flatMap Utf8.encodeChar

/-- The literal a glob `**/name` compares with base names. -/
def baseNameLiteral (ts : List Token) : Option (List Char) :=
  match ts with
  | .recursivePrefix :: rest@(_ :: _) =>
    let fits := rest.all fun
      | .literal c => c != '/'
      | .any | .zeroOrMore => true
      | _ => false
    if fits then literals rest else none
  | _ => none

/-- The extension a glob `**/*.ext` compares. -/
def extensionLiteral (ts : List Token) : Option (List Char) :=
  match ts with
  | .recursivePrefix :: .zeroOrMore :: .literal '.' :: rest =>
    match literals rest with
    | some cs => if cs.any (fun c => c == '.' || c == '/') then none else some ('.' :: cs)
    | none => none
  | _ => none

/-- The prefix a glob compares: literals, with a trailing `/**` as a `/`. -/
def prefixLiteral (ts : List Token) : Option (List Char) :=
  let (body, sep) := match ts.getLast? with
    | some .recursiveSuffix => (ts.dropLast, true)
    | _ => (ts, false)
  match ts.getLast? with
  | some .zeroOrMore => none
  | _ =>
    match literals body with
    | some cs =>
      let lit := if sep then cs ++ ['/'] else cs
      if lit.isEmpty then none else some lit
    | none => none

/-- The suffix a glob compares, and whether it must be a whole component. -/
def suffixLiteral (ts : List Token) : Option (List Char × Bool) :=
  let (lead, body, whole) := match ts with
    | .recursivePrefix :: rest@(.literal _ :: _) => (['/'], rest, true)
    | .recursivePrefix :: rest => ([], rest, false)
    | _ => ([], ts, false)
  match body with
  | [] => none
  | .zeroOrMore :: _ => none
  | _ =>
    match literals body with
    | some cs =>
      let lit := lead ++ cs
      if lit.isEmpty || lit == ['/'] then none else some (lit, whole)
    | none => none

/-- The extension a glob ends with, read backwards to its last dot. -/
def requiredExtension : List Token → List Char → Option (List Char)
  | [], _ => none
  | .literal c :: rest, acc =>
    if c == '/' then none
    else if c == '.' then some (c :: acc)
    else requiredExtension rest (c :: acc)
  | _ :: _, _ => none

/-- The shape of a glob's tokens. -/
def shapeOf (ts : List Token) : Shape :=
  match literals ts with
  | some cs@(_ :: _) => .exact (bytesOf cs)
  | _ =>
  match baseNameLiteral ts with
  | some cs => .baseName (bytesOf cs)
  | none =>
  match extensionLiteral ts with
  | some cs => .extension (bytesOf cs)
  | none =>
  match prefixLiteral ts with
  | some cs => .start (bytesOf cs)
  | none =>
  match suffixLiteral ts with
  | some (cs, whole) => .ending (bytesOf cs) whole
  | none =>
  match requiredExtension ts.reverse [] with
  | some cs => .withExtension (bytesOf cs)
  | none => .general

/-- The base name of a path: the bytes after its last `/`, none when the path is empty or its
last component is `..`. -/
def baseName? (path : List UInt8) : Option (List UInt8) :=
  let name := (path.reverse.takeWhile (· != slash)).reverse
  if path.isEmpty || name == [46, 46] then none else some name

/-- The extension of a base name: its bytes from its last dot. -/
def extension? (name : List UInt8) : Option (List UInt8) :=
  if name.contains 46 then some (name.reverse.takeWhile (· != 46) ++ [46]).reverse else none

/-- A glob ready to match paths. -/
structure Pattern where
  /-- The tokens read from the glob. -/
  tokens : List Token
  /-- The general matcher. -/
  automaton : Automaton
  /-- How paths are compared. -/
  shape : Shape
  deriving Inhabited

/-- A glob from its tokens. -/
def Pattern.ofTokens (ts : List Token) : Pattern :=
  ⟨ts, Automaton.ofAtoms (compile ts), shapeOf ts⟩

/-- Read a glob. -/
def Pattern.ofText (text : String) (looseClasses : Bool := false) : Except GlobError Pattern :=
  (parse text looseClasses).map Pattern.ofTokens

/-- Whether a glob matches a path, given as bytes. -/
def Pattern.matchesBytes (g : Pattern) (path : List UInt8) : Bool :=
  let ext := (baseName? path).bind extension?
  match g.shape with
  | .exact t => path == t
  | .baseName t => baseName? path == some t
  | .extension t => ext == some t
  | .start t => t.isPrefixOf path
  | .ending t whole => t.isSuffixOf path || (whole && path == t.drop 1)
  | .withExtension t => ext == some t && g.automaton.accepts path
  | .general => g.automaton.accepts path

/-- Whether a glob matches a path. -/
def Pattern.matches (g : Pattern) (path : String) : Bool :=
  g.matchesBytes (Utf8.encode path)

end WikiSync.Glob

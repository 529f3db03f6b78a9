import WikiSync.Document.Basic

/-!
# Filter expressions

A filter expression decides whether a single document matches. It is a sequence of runs
separated by blanks; the document matches when some run holds.

* `[[Exact Title]]` holds when the title is exactly the literal.
* `[op[param]!op[param]...]` holds when every step holds. A step is an operator, optionally
  negated by a leading `!` and optionally followed by `:suffix`, applied to a parameter:
  `tag` (the document carries the tag), `title` (the title equals the parameter), `prefix`,
  `suffix` (of the title), `has` (the field is present and non-empty), and `field:name` (the
  named field, empty when absent, equals the parameter). An unknown operator, or `field`
  without a name, fails whether negated or not.

An expression that does not parse matches nothing. A match answers the document's title.
-/

namespace WikiSync.Filter

/-- One step of a run. -/
structure Step where
  /-- Whether the step was negated with `!`. -/
  negated : Bool
  /-- The operator name, before any `:`. -/
  operator : String
  /-- The text after the first `:` of the operator name. -/
  suffix : Option String
  /-- The parameter between the brackets. -/
  param : String
  deriving BEq, Repr

/-- A run of a filter expression. -/
inductive Run where
  /-- A title literal. -/
  | title (literal : String)
  /-- Steps that must all hold. -/
  | steps (steps : List Step)
  deriving BEq, Repr

/-- Split characters at the first occurrence of one. -/
def breakAt (c : Char) (cs : List Char) : Option (List Char × List Char) :=
  match cs.findIdx? (· == c) with
  | some i => some (cs.take i, cs.drop (i + 1))
  | none => none

/-- Read the steps of a run up to its closing bracket; `acc` holds them reversed. -/
def parseSteps : Nat → List Char → List Step → Option (List Step × List Char)
  | 0, _, _ => none
  | _ + 1, ']' :: rest, acc => some (acc.reverse, rest)
  | fuel + 1, cs, acc =>
    let (negated, after) := match cs with
      | '!' :: r => (true, r)
      | _ => (false, cs)
    match breakAt '[' after with
    | none => none
    | some (name, afterOpen) =>
      match breakAt ']' afterOpen with
      | none => none
      | some (param, rest) =>
        let (op, suffix) := match breakAt ':' name with
          | some (o, s) => (o, some (String.ofList s))
          | none => (name, none)
        if op.isEmpty then none
        else parseSteps fuel rest (⟨negated, String.ofList op, suffix, String.ofList param⟩ :: acc)

/-- Read the runs of an expression; `acc` holds them reversed. -/
def parseRuns : Nat → List Char → List Run → Option (List Run)
  | 0, _, _ => none
  | _ + 1, [], acc => some acc.reverse
  | fuel + 1, '[' :: '[' :: literal, acc =>
    match Text.splitOnFirst [']', ']'] literal with
    | none => none
    | some (l, rest) => parseRuns fuel (rest.dropWhile Text.isBlank) (.title (String.ofList l) :: acc)
  | fuel + 1, '[' :: body, acc =>
    match parseSteps (body.length + 1) body [] with
    | none => none
    | some ([], _) => none
    | some (steps, rest) => parseRuns fuel (rest.dropWhile Text.isBlank) (.steps steps :: acc)
  | _ + 1, _ :: _, _ => none

/-- The runs of an expression, when it parses. -/
def parse (expression : String) : Option (List Run) :=
  let cs := (Text.trim expression).toList
  parseRuns (cs.length + 1) cs []

/-- Whether a step holds for a document; none for an unknown operator. -/
def Step.holds? (s : Step) (d : Document) : Option Bool :=
  let result : Option Bool := match s.operator with
    | "tag" => some (d.tags.contains s.param)
    | "title" => some (d.title == s.param)
    | "prefix" => some (d.title.startsWith s.param)
    | "suffix" => some (d.title.endsWith s.param)
    | "has" => some (match d.field? s.param with
      | some v => !v.isEmpty
      | none => false)
    | "field" => s.suffix.map fun name => (d.field? name).getD "" == s.param
    | _ => none
  result.map (· != s.negated)

/-- Whether a run holds for a document. -/
def Run.holds (r : Run) (d : Document) : Bool :=
  match r with
  | .title t => d.title == t
  | .steps ss => ss.all fun s => (s.holds? d).getD false

/-- Evaluate an expression against a document: its title when some run holds, else nothing. -/
def evaluate (expression : String) (d : Document) : List String :=
  match parse expression with
  | some runs => if runs.any (·.holds d) then [d.title] else []
  | none => []

end WikiSync.Filter

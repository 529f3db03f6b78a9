import WikiSync.Toml.Read
import WikiSync.Decimal.Shortest

/-!
# Writing TOML

Documents are written in a plain layout: the top-level values first, one `key = value` per
line, then every table in order, depth first, under its `[header]`, and every table of an array
of tables under `[[header]]`. A blank line comes before each header that follows other text. A
table with values, or with nothing at all, gets a header; one holding only tables does not.

Arrays of at most one item stay on one line; longer ones put each item on its own line,
indented by four spaces and followed by a comma. Keys are bare when they can be. A string takes
the first form that shows it without escapes, in the order basic, literal, multi-line basic,
multi-line literal; one that needs escapes is a basic string, multi-line when it has line
breaks. Floats always show a fraction or are `nan`, `inf` and their negatives.
-/

namespace WikiSync.Toml

/-- A value to write. -/
inductive Out where
  | str (s : String)
  | int (n : Int)
  | float (x : Float)
  | bool (b : Bool)
  | array (items : List Out)
  /-- A table, written under its own header. -/
  | table (entries : List (String × Out))
  /-- An array of tables, each written under a double-bracket header. -/
  | tables (items : List (List (String × Out)))
  deriving Inhabited

/-- A float as written. -/
def floatText (x : Float) : String :=
  let negative := Decimal.signBit x
  if Decimal.isNaN x then (if negative then "-nan" else "nan")
  else if !Decimal.isFinite x then (if negative then "-inf" else "inf")
  else if x == 0.0 then (if negative then "-0.0" else "0.0")
  else
    let t := Decimal.positional x
    if t.contains '.' then t else t ++ ".0"

mutual

/-- A value on one line, or an array over several. -/
def valueText : Out → String
  | .str s => stringText s
  | .int n => toString n
  | .float x => floatText x
  | .bool b => toString b
  | .array items =>
    let parts := itemTexts items
    if parts.length ≤ 1 then "[" ++ ", ".intercalate parts ++ "]"
    else "[" ++ ",".intercalate (parts.map ("\n    " ++ ·)) ++ ",\n]"
  | .table es => "\x7b " ++ ", ".intercalate (entryTexts es) ++ " \x7d"
  | .tables items => "[" ++ ", ".intercalate (inlineTables items) ++ "]"

/-- The texts of array items. -/
def itemTexts : List Out → List String
  | [] => []
  | v :: rest => valueText v :: itemTexts rest

/-- The texts of inline table entries. -/
def entryTexts : List (String × Out) → List String
  | [] => []
  | (k, v) :: rest => (keyText k ++ " = " ++ valueText v) :: entryTexts rest

/-- Tables written inline. -/
def inlineTables : List (List (String × Out)) → List String
  | [] => []
  | es :: rest => ("\x7b " ++ ", ".intercalate (entryTexts es) ++ " \x7d") :: inlineTables rest

end

/-- Whether an entry holds a table or an array of tables. -/
def isSection : Out → Bool
  | .table _ | .tables _ => true
  | _ => false

/-- The `key = value` lines of a table's values. -/
def valueLines (es : List (String × Out)) : List String :=
  es.filterMap fun (k, v) => if isSection v then none else some (keyText k ++ " = " ++ valueText v)

/-- A table to write under a header: its path, whether it belongs to an array of tables, and
its entries. -/
structure Section where
  /-- The keys leading to it. -/
  path : List String
  /-- Whether it is a table of an array of tables. -/
  inArray : Bool
  /-- Its entries. -/
  entries : List (String × Out)

mutual

/-- The tables below some entries, depth first. -/
def sectionsOf (path : List String) : List (String × Out) → List Section
  | [] => []
  | (k, .table es) :: rest =>
    ⟨path ++ [k], false, es⟩ :: sectionsOf (path ++ [k]) es ++ sectionsOf path rest
  | (k, .tables ts) :: rest => arraySections (path ++ [k]) ts ++ sectionsOf path rest
  | _ :: rest => sectionsOf path rest

/-- The tables of an array of tables, each followed by the tables below it. -/
def arraySections (path : List String) : List (List (String × Out)) → List Section
  | [] => []
  | es :: rest => ⟨path, true, es⟩ :: sectionsOf path es ++ arraySections path rest

end

/-- A document: its top-level values, then each table under its header. -/
def render (root : List (String × Out)) : String :=
  let lines (es : List (String × Out)) : String := String.join ((valueLines es).map (· ++ "\n"))
  let top := lines root
  let (body, _) := (sectionsOf [] root).foldl (fun (acc, first) (s : Section) =>
    let values := valueLines s.entries
    let shown := s.inArray || values.length > 0 || s.entries.isEmpty
    if !shown then (acc ++ lines s.entries, first)
    else
      let name := ".".intercalate (s.path.map keyText)
      let header := if s.inArray then "[[" ++ name ++ "]]" else "[" ++ name ++ "]"
      (acc ++ (if first then "" else "\n") ++ header ++ "\n" ++ lines s.entries, false))
    (top, (valueLines root).isEmpty)
  body

end WikiSync.Toml

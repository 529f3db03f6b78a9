import WikiSync.Toml.DateTime

/-!
# TOML values and documents

A TOML value is a string, an integer, a float, a boolean, a date-time, an
array, or an inline table. A document is a tree of tables: each entry of a table holds a value, a
table, or an array of tables. A table made only on the way to another (`[a.b]` makes `a`) is
implicit, and one made by dotted keys (`a.b = 1` makes `a`) is dotted; both matter for which
later definitions are allowed.
-/

namespace WikiSync.Toml

/-- A TOML value. -/
inductive Value where
  | str (s : String)
  | int (n : Int)
  | float (x : Float)
  | bool (b : Bool)
  /-- A date, time or date-time. -/
  | datetime (t : DateTime)
  | array (items : List Value)
  /-- An inline table, its keys in the order written. -/
  | inlineTable (entries : List (String × Value))
  deriving Inhabited

/-- The name of a value's type. -/
def Value.typeName : Value → String
  | .str _ => "string"
  | .int _ => "integer"
  | .float _ => "float"
  | .bool _ => "boolean"
  | .datetime _ => "datetime"
  | .array _ => "array"
  | .inlineTable _ => "inline table"

/-- An entry of a document table. -/
inductive Node where
  /-- A value. -/
  | leaf (v : Value)
  /-- A table with its entries; whether it is implicit and whether dotted keys made it. -/
  | table (entries : List (String × Node)) (implicit dotted : Bool)
  /-- An array of tables, each given by its entries. -/
  | tables (items : List (List (String × Node)))
  deriving Inhabited

/-- A key as written and as meant. -/
structure Key where
  /-- The key as written, quotes included. -/
  raw : String
  /-- The key's text. -/
  name : String
  deriving Inhabited, BEq

end WikiSync.Toml

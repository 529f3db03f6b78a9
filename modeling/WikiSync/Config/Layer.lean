import WikiSync.Toml.Read
import WikiSync.Decimal.Shortest
import WikiSync.Text.Printable

/-!
# Layered configuration values

Settings are read from three layers, each merged over the one before: the defaults, the
settings file, and environment variables named `TIDSYNC_...`. A layer gives a tree of values;
every value remembers its layer, so that an error found while reading it names where it came
from.

Merging keeps the keys of both trees: where both give a table the tables are merged, and
anywhere else the later layer wins, arrays included. Table keys are kept in sorted order, which
is also the order in which settings are read from them.

-/

namespace WikiSync

/-- The layer a configuration value came from. -/
inductive Layer where
  | defaults
  /-- A settings file, by path. -/
  | file (path : String)
  | environment
  deriving BEq, Inhabited

/-- The prefix of environment variables read as settings. -/
def envPrefix : String := "TIDSYNC_"

/-- An ASCII letter in upper case. -/
def upperAscii (c : Char) : Char :=
  if 'a' ≤ c && c ≤ 'z' then Char.ofNat (c.toNat - 32) else c

/-- An ASCII letter in lower case. -/
def lowerAscii (c : Char) : Char :=
  if 'A' ≤ c && c ≤ 'Z' then Char.ofNat (c.toNat + 32) else c

/-- How messages name a layer. -/
def Layer.describe : Layer → String
  | .defaults => "default settings"
  | .file path => path ++ " TOML file"
  | .environment => "`" ++ envPrefix ++ "` environment variable(s)"

/-- How messages name a key of a layer: below the profile name for the defaults and files, and
in capitals for the environment. -/
def Layer.keyText (l : Layer) (path : List String) : String :=
  match l with
  | .environment => ".".intercalate (path.map fun k => String.ofList (k.toList.map upperAscii))
  | _ => ".".intercalate ("default" :: path)

/-- A number as a layer gave it. -/
inductive ConfNum where
  | unsigned (n : Nat)
  | signed (n : Int)
  | float (x : Float)
  deriving Inhabited

/-- A configuration value with its layer. -/
inductive ConfValue where
  | str (layer : Layer) (s : String)
  | bool (layer : Layer) (b : Bool)
  | num (layer : Layer) (n : ConfNum)
  | array (layer : Layer) (items : List ConfValue)
  /-- A table, its keys sorted. -/
  | dict (layer : Layer) (entries : List (String × ConfValue))
  deriving Inhabited

namespace ConfValue

/-- The layer of a value. -/
def layer : ConfValue → Layer
  | .str l _ => l
  | .bool l _ => l
  | .num l _ => l
  | .array l _ => l
  | .dict l _ => l

end ConfValue

/-- Put an entry among entries sorted by key, replacing the entry of the same key. -/
def insertSorted {β : Type} (k : String) (v : β) : List (String × β) → List (String × β)
  | [] => [(k, v)]
  | (k', v') :: rest =>
    if k == k' then (k, v) :: rest
    else if k < k' then (k, v) :: (k', v') :: rest
    else (k', v') :: insertSorted k v rest

/-- Entries sorted by key; of two entries with one key, the later one stays. -/
def sortEntries {β : Type} (es : List (String × β)) : List (String × β) :=
  es.foldl (fun acc (k, v) => insertSorted k v acc) []

mutual

/-- A later value over an earlier one: tables are merged key by key, and otherwise the later
value wins. -/
def ConfValue.merge : ConfValue → ConfValue → ConfValue
  | .dict _ a, .dict l b => .dict l (mergeEntries a b)
  | _, v => v

/-- Later entries over earlier ones, merging the values of shared keys. -/
def mergeEntries : List (String × ConfValue) → List (String × ConfValue) → List (String × ConfValue)
  | a, [] => a
  | a, (k, v) :: rest =>
    let merged := match (a.find? (·.1 == k)).map (·.2) with
      | some old => ConfValue.merge old v
      | none => v
    mergeEntries (insertSorted k merged a) rest

end

/-! ## The file layer -/

/-- The key under which a date-time of a settings file is given. -/
def datetimeKey : String := "$__toml_private_datetime"

mutual

/-- A TOML value as a configuration value. -/
def confOfValue (l : Layer) : Toml.Value → ConfValue
  | .str s => .str l s
  | .int n => .num l (.signed n)
  | .float x => .num l (.float x)
  | .bool b => .bool l b
  | .datetime t => .dict l [(datetimeKey, .str l t.text)]
  | .array items => .array l (confOfValues l items)
  | .inlineTable es => .dict l (sortEntries (confOfValueEntries l es))

/-- TOML values as configuration values. -/
def confOfValues (l : Layer) : List Toml.Value → List ConfValue
  | [] => []
  | v :: rest => confOfValue l v :: confOfValues l rest

/-- The entries of an inline table as configuration entries. -/
def confOfValueEntries (l : Layer) : List (String × Toml.Value) → List (String × ConfValue)
  | [] => []
  | (k, v) :: rest => (k, confOfValue l v) :: confOfValueEntries l rest

end

mutual

/-- A document entry as a configuration value. -/
def confOfNode (l : Layer) : Toml.Node → ConfValue
  | .leaf v => confOfValue l v
  | .table es _ _ => .dict l (sortEntries (confOfNodeEntries l es))
  | .tables items => .array l (confOfTables l items)

/-- The entries of a document table as configuration entries. -/
def confOfNodeEntries (l : Layer) : List (String × Toml.Node) → List (String × ConfValue)
  | [] => []
  | (k, n) :: rest => (k, confOfNode l n) :: confOfNodeEntries l rest

/-- The tables of an array of tables as configuration values. -/
def confOfTables (l : Layer) : List (List (String × Toml.Node)) → List ConfValue
  | [] => []
  | es :: rest => .dict l (sortEntries (confOfNodeEntries l es)) :: confOfTables l rest

end

/-- The configuration values of a settings file's tables. -/
def confOfDocument (path : String) (root : List (String × Toml.Node)) : ConfValue :=
  .dict (.file path) (sortEntries (confOfNodeEntries (.file path) root))

/-! ## Errors -/

/-- A text as a quoted literal, escaping quotes, backslashes and what does not print. -/
def debugQuote (s : String) : String := Text.quoteText s

/-- How a float is shown in messages: shortest digits, never an exponent. -/
def floatText (x : Float) : String :=
  if Decimal.isNaN x then "NaN"
  else if !Decimal.isFinite x then (if Decimal.signBit x then "-inf" else "inf")
  else Decimal.positional x

/-- How messages describe a value that was found. -/
def ConfValue.describe : ConfValue → String
  | .str _ s => "string " ++ debugQuote s
  | .bool _ b => "bool " ++ toString b
  | .num _ (.unsigned n) => "unsigned int `" ++ toString n ++ "`"
  | .num _ (.signed n) => "signed int `" ++ toString n ++ "`"
  | .num _ (.float x) => "float `" ++ floatText x ++ "`"
  | .array _ _ => "sequence"
  | .dict _ _ => "map"

/-- What went wrong reading settings. -/
inductive ConfProblem where
  /-- A message given whole, such as a file that cannot be read as TOML. -/
  | message (text : String)
  /-- A value of the wrong kind. -/
  | invalidType (found expected : String)
  /-- A value of the right kind out of range. -/
  | invalidValue (found expected : String)
  /-- A field that must be given. -/
  | missingField (name : String)
  /-- A sequence too short for what was expected of it. -/
  | invalidLength (length : Nat) (expected : String)
  deriving Inhabited

/-- The text of a problem. -/
def ConfProblem.text : ConfProblem → String
  | .message t => t
  | .invalidType found expected => "invalid type: found " ++ found ++ ", expected " ++ expected
  | .invalidValue found expected => "invalid value " ++ found ++ ", expected " ++ expected
  | .missingField name => "missing field `" ++ name ++ "`"
  | .invalidLength n expected => "invalid length " ++ toString n ++ ", expected " ++ expected

/-- A settings error: the problem, the key it concerns, and the layer it came from. -/
structure ConfError where
  /-- What went wrong. -/
  problem : ConfProblem
  /-- The key, by level; empty for the whole. -/
  path : List String := []
  /-- The layer of the value concerned. -/
  layer : Option Layer := none
  deriving Inhabited

/-- The text of a settings error: the problem, the key, and where the value came from. -/
def ConfError.text (e : ConfError) : String :=
  let key := match e.layer with
    | some l => if e.path.isEmpty then "" else " for key " ++ debugQuote (l.keyText e.path)
    | none => ""
  let place := match e.layer with
    | some l => " in " ++ l.describe
    | none => ""
  e.problem.text ++ key ++ place

/-- The same error one level down, under a key. -/
def ConfError.under (k : String) (e : ConfError) : ConfError :=
  { e with path := k :: e.path }

/-- A problem with a value, charged to the value's layer. -/
def ConfValue.fail {α : Type} (v : ConfValue) (p : ConfProblem) : Except ConfError α :=
  .error { problem := p, layer := some v.layer }

/-- The configuration values of a settings file, or why it cannot be read. -/
def fileLayer (path text : String) : Except ConfError ConfValue :=
  match Toml.readDocument text with
  | .ok root => .ok (confOfDocument path root)
  | .error f => .error { problem := .message (f.render text), layer := some (.file path) }

end WikiSync

import WikiSync.Json.Value
import WikiSync.Json.Print
import WikiSync.Document.Basic
import WikiSync.Decimal.Shortest

/-!
# Scripts: requests and answers

The library can be driven by scripts: a request is a JSON object naming an operation in `op`
with its arguments, and the answer is a JSON value. A request that fails answers an object with
the kind of its error and its message. This module holds the shared vocabulary: failures, the
readers of request arguments, and the JSON forms of fields.
-/

namespace WikiSync.Script

/-- A failed request: the kind of its error and its message. -/
structure Failure where
  /-- The kind of the error. -/
  kind : String
  /-- The message of the error. -/
  message : String

/-- The answer of a failed request. -/
def Failure.toJson (f : Failure) : Json :=
  .obj [("error", .str f.kind), ("message", .str f.message)]

/-- A request whose arguments are missing or malformed. -/
def badInput (message : String) : Failure :=
  ⟨"BadInput", message⟩

/-- The outcome of reading arguments or running a request. -/
abbrev Outcome := Except Failure

/-- The answer of an outcome: its value, or the failure's object. -/
def answerOf (o : Outcome Json) : Json :=
  match o with
  | .ok j => j
  | .error f => f.toJson

/-- How a typed reader names a value it did not expect: its kind and, for scalars, the value. -/
def unexpected (v : Json) : String :=
  match v with
  | .null => "null"
  | .bool b => "boolean `" ++ (if b then "true" else "false") ++ "`"
  | .num (.int n) => "integer `" ++ Decimal.intText n ++ "`"
  | .num (.float x) =>
    let t := Decimal.positional x
    "floating point `" ++ (if t.contains '.' then t else t ++ ".0") ++ "`"
  | .str s => "string " ++ Json.quote s
  | .arr _ => "sequence"
  | .obj _ => "map"

/-- The message for a value of the wrong type. -/
def invalidType (v : Json) (expected : String) : String :=
  "invalid type: " ++ unexpected v ++ ", expected " ++ expected

/-- The message for a value out of range. -/
def invalidValue (v : Json) (expected : String) : String :=
  "invalid value: " ++ unexpected v ++ ", expected " ++ expected

/-- An argument; an absent one reads as null. -/
def need (req : Json) (k : String) : Outcome Json :=
  .ok ((req.get? k).getD .null)

/-- A text argument; absent or null, it is empty. -/
def needStr (req : Json) (k : String) : Outcome String := do
  match (← need req k) with
  | .str s => pure s
  | .null => pure ""
  | _ => throw (badInput ("field '" ++ k ++ "' must be a string"))

/-- An optional text argument; null counts as absent. -/
def optStr (req : Json) (k : String) : Outcome (Option String) :=
  match req.get? k with
  | none => .ok none
  | some .null => .ok none
  | some (.str s) => .ok (some s)
  | some _ => .error (badInput ("field '" ++ k ++ "' must be a string"))

/-- An optional flag, false when absent. -/
def flag (req : Json) (k : String) : Outcome Bool :=
  match req.get? k with
  | none => .ok false
  | some .null => .ok false
  | some (.bool b) => .ok b
  | some _ => .error (badInput ("field '" ++ k ++ "' must be a boolean"))

/-- An optional flag with a default. -/
def flagOr (req : Json) (k : String) (d : Bool) : Outcome Bool :=
  match req.get? k with
  | none => .ok d
  | some .null => .ok d
  | some (.bool b) => .ok b
  | some _ => .error (badInput ("field '" ++ k ++ "' must be a boolean"))

/-- An optional natural number argument with a default. -/
def natOr (req : Json) (k : String) (d : Nat) : Outcome Nat :=
  match req.get? k with
  | none => .ok d
  | some .null => .ok d
  | some v => match v.nat? with
    | some n => .ok n
    | none => .error (badInput ("field '" ++ k ++ "' must be a non-negative integer"))

/-- A natural number argument; absent or null, it is zero. -/
def needNat (req : Json) (k : String) : Outcome Nat := natOr req k 0

/-- The items of an array. -/
def arrayOf (k : String) (v : Json) : Outcome (List Json) :=
  match v with
  | .arr xs => .ok xs
  | _ => .error (badInput ("field '" ++ k ++ "' must be an array"))

/-- A list of texts. -/
def stringsOf (k : String) (v : Json) : Outcome (List String) := do
  let xs ← arrayOf k v
  xs.mapM fun
    | .str s => pure s
    | _ => throw (badInput ("field '" ++ k ++ "' must hold strings"))

/-- A list of texts; absent or null, it is empty. -/
def needStrings (req : Json) (k : String) : Outcome (List String) :=
  match req.get? k with
  | none | some .null => .ok []
  | some v => stringsOf k v

/-- An optional list of texts, empty when absent. -/
def optStrings (req : Json) (k : String) : Outcome (List String) :=
  match req.get? k with
  | none => .ok []
  | some .null => .ok []
  | some v => stringsOf k v

/-- An optional array, empty when absent. -/
def optArray (req : Json) (k : String) : Outcome (List Json) :=
  match req.get? k with
  | none => .ok []
  | some .null => .ok []
  | some v => arrayOf k v

/-- The steps of a request, none when it gives none. -/
def stepsOf (req : Json) : Outcome (List Json) := optArray req "steps"

/-- The operation a step names. -/
def stepOp (step : Json) : Outcome String :=
  match step.get? "op" with
  | some (.str s) => .ok s
  | _ => .error (badInput "step without op")

/-- The failure of a step naming no known operation. -/
def unknownStep (op : String) : Failure := badInput ("unknown step '" ++ op ++ "'")

/-- The pairs of a JSON object of texts, in the order given, none for null; `name` names the
object in failures. -/
def textPairsOf (name : String) (v : Json) : Outcome (List (String × String)) :=
  match v with
  | .null => .ok []
  | .obj ms => ms.mapM fun (k, v) => match v with
      | .str s => pure (k, s)
      | _ => throw (badInput ("field value '" ++ k ++ "' must be a string"))
  | _ => .error (badInput ("'" ++ name ++ "' must be an object"))

/-- Fields from a JSON object of texts; `name` names the object in failures. -/
def fieldsOf (name : String) (v : Json) : Outcome Fields :=
  (textPairsOf name v).map Fields.ofList

/-- Fields; absent or null, there are none. -/
def needFields (req : Json) (k : String) : Outcome Fields := do
  fieldsOf k (← need req k)

/-- Fields as a JSON object. -/
def fieldsJson (fs : Fields) : Json :=
  .obj (fs.toList.map fun (k, v) => (k, .str v))

/-- Fields as JSON, or null. -/
def optFieldsJson : Option Fields → Json
  | some fs => fieldsJson fs
  | none => .null

end WikiSync.Script

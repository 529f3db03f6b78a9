/-!
# JSON values

A JSON value as the bundle format and the request scripts use it. A number is kept the way a
reader classifies it: an integer of the 64-bit ranges stays exact, anything else is a double.
Objects are lists of members; a reader keeps them ordered by key with the last duplicate winning,
which is the order in which they are printed again.
-/

namespace WikiSync

/-- A JSON number: an exact integer or a double. -/
inductive Number where
  | int (n : Int)
  | float (x : Float)

/-- A JSON value. -/
inductive Json where
  | null
  | bool (b : Bool)
  | num (n : Number)
  | str (s : String)
  | arr (items : List Json)
  | obj (members : List (String × Json))

namespace Json

/-- An exact integer value. -/
def ofInt (n : Int) : Json := .num (.int n)

/-- An exact natural number value. -/
def ofNat (n : Nat) : Json := .num (.int n)

/-- A list of strings. -/
def ofStrings (xs : List String) : Json := .arr (xs.map .str)

/-- A string, or null when absent. -/
def ofOption (x : Option String) : Json :=
  match x with
  | some s => .str s
  | none => .null

/-- Insert a member into a key-ordered member list, replacing a member of the same key. -/
def insertMember (k : String) (v : Json) : List (String × Json) → List (String × Json)
  | [] => [(k, v)]
  | (k', v') :: rest =>
    if k == k' then (k, v) :: rest
    else if k < k' then (k, v) :: (k', v') :: rest
    else (k', v') :: insertMember k v rest

/-- The value of a member of an object. -/
def get? (j : Json) (k : String) : Option Json :=
  match j with
  | .obj ms => (ms.find? (·.1 == k)).map (·.2)
  | _ => none

/-- Whether an object has a member of this key. -/
def has (j : Json) (k : String) : Bool :=
  (j.get? k).isSome

/-- The text of a string value. -/
def str? : Json → Option String
  | .str s => some s
  | _ => none

/-- The items of an array value. -/
def arr? : Json → Option (List Json)
  | .arr xs => some xs
  | _ => none

/-- The members of an object value. -/
def obj? : Json → Option (List (String × Json))
  | .obj ms => some ms
  | _ => none

/-- The truth value of a boolean value. -/
def bool? : Json → Option Bool
  | .bool b => some b
  | _ => none

/-- The value of an exact integer. -/
def int? : Json → Option Int
  | .num (.int n) => some n
  | _ => none

/-- The value of an exact non-negative integer. -/
def nat? : Json → Option Nat
  | .num (.int n) => if 0 ≤ n then some n.toNat else none
  | _ => none

/-- Whether the value is null. -/
def isNull : Json → Bool
  | .null => true
  | _ => false

mutual

/-- Apply a function to every text of a value: its strings and its member names. -/
def mapText (f : String → String) : Json → Json
  | .str s => .str (f s)
  | .arr xs => .arr (mapTextItems f xs)
  | .obj ms => .obj (mapTextMembers f ms)
  | j => j

/-- Apply a function to every text of array items. -/
def mapTextItems (f : String → String) : List Json → List Json
  | [] => []
  | x :: rest => mapText f x :: mapTextItems f rest

/-- Apply a function to every text of object members. -/
def mapTextMembers (f : String → String) : List (String × Json) → List (String × Json)
  | [] => []
  | (k, v) :: rest => (f k, mapText f v) :: mapTextMembers f rest

end

end Json

end WikiSync

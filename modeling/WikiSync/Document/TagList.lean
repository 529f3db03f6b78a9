import WikiSync.Text.Blank

/-!
# Tag lists

A tag list is written as items separated by blanks, an item holding blanks being wrapped in
double brackets: `Journal [[Daily Notes]] Task`. Reading takes the items in order and keeps the
first occurrence of each, skipping empty ones; an unclosed `[[` takes the rest of the text as one
item. Writing wraps exactly the items that hold a blank and joins them with single spaces.
-/

namespace WikiSync.TagList

/-- Where the reader of a tag list stands. -/
inductive Reading where
  /-- Between items. -/
  | gap
  /-- Inside an unbracketed item; the characters so far, reversed. -/
  | word (acc : List Char)
  /-- Inside a bracketed item; the characters so far, reversed. -/
  | bracketed (acc : List Char)

/-- Add an item unless it is empty or already present. -/
def pushUnique (items : List String) (item : String) : List String :=
  if item.isEmpty || items.contains item then items else items ++ [item]

/-- Read the items of a tag list from its characters. -/
def readFrom : List Char → Reading → List String → List String
  | [], .gap, items => items
  | [], .word acc, items => pushUnique items (String.ofList acc.reverse)
  | [], .bracketed acc, items => pushUnique items (String.ofList acc.reverse)
  | '[' :: '[' :: r, .gap, items => readFrom r (.bracketed []) items
  | c :: r, .gap, items =>
    if Text.isBlank c then readFrom r .gap items else readFrom r (.word [c]) items
  | c :: r, .word acc, items =>
    if Text.isBlank c then readFrom r .gap (pushUnique items (String.ofList acc.reverse))
    else readFrom r (.word (c :: acc)) items
  | ']' :: ']' :: r, .bracketed acc, items =>
    readFrom r .gap (pushUnique items (String.ofList acc.reverse))
  | c :: r, .bracketed acc, items => readFrom r (.bracketed (c :: acc)) items

/-- The items of a tag list, in order, without empty items or repeats. -/
def parse (raw : String) : List String :=
  readFrom raw.toList .gap []

/-- How one item is written: in double brackets when it holds a blank. -/
def writeItem (item : String) : String :=
  if Text.hasBlank item then "[[" ++ item ++ "]]" else item

/-- Write a tag list: each item as `writeItem` gives it, separated by single spaces. -/
def render (items : List String) : String :=
  " ".intercalate (items.map writeItem)

end WikiSync.TagList

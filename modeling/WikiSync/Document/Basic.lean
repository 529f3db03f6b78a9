import WikiSync.Document.TagList

/-!
# Documents

A document is a bag of named text fields. Only a few names carry meaning here: `title`, the key
that identifies the document; `tags`, a tag list; `text`, the body; `type`, the content type; and
`_canonical_uri`, which marks content kept outside the document. Every other field passes through
untouched. Fields are kept ordered by name, one value per name.
-/

namespace WikiSync

/-- Insert a pair into a name-ordered list, replacing the value of an equal name. -/
def Fields.insertPair (k v : String) : List (String × String) → List (String × String)
  | [] => [(k, v)]
  | (k', v') :: rest =>
    if k == k' then (k, v) :: rest
    else if k < k' then (k, v) :: (k', v') :: rest
    else (k', v') :: insertPair k v rest

/-- A pair set into a list is the new pair or one of the list's. -/
theorem Fields.mem_insertPair (k v : String) (l : List (String × String)) (a : String × String)
    (h : a ∈ insertPair k v l) : a = (k, v) ∨ a ∈ l := by
  induction l with
  | nil => simpa [insertPair] using h
  | cons b l ih =>
    unfold insertPair at h
    split at h
    · rcases List.mem_cons.1 h with h | h
      · exact Or.inl h
      · exact Or.inr (List.mem_cons_of_mem b h)
    split at h
    · simpa using h
    · rcases List.mem_cons.1 h with h | h
      · exact Or.inr (h ▸ List.mem_cons_self)
      · rcases ih h with h | h
        · exact Or.inl h
        · exact Or.inr (List.mem_cons_of_mem b h)

/-- Setting a pair keeps the names of a list in increasing order. -/
theorem Fields.pairwise_insertPair (k v : String) (l : List (String × String))
    (h : l.Pairwise fun a b => a.1 < b.1) :
    (insertPair k v l).Pairwise fun a b => a.1 < b.1 := by
  induction l with
  | nil => simp [insertPair]
  | cons b l ih =>
    obtain ⟨hb, hl⟩ := List.pairwise_cons.1 h
    unfold insertPair
    split
    · rename_i hk
      rw [beq_iff_eq] at hk
      subst hk
      exact List.pairwise_cons.2 ⟨hb, hl⟩
    split
    · rename_i _ hlt
      refine List.pairwise_cons.2 ⟨?_, h⟩
      intro a ha
      rcases List.mem_cons.1 ha with rfl | ha
      · exact hlt
      · exact String.lt_trans hlt (hb a ha)
    · rename_i hne hlt
      rw [beq_iff_eq] at hne
      have hgt : b.1 < k := Std.lt_of_le_of_ne hlt (Ne.symm hne)
      refine List.pairwise_cons.2 ⟨?_, ih hl⟩
      intro a ha
      rcases mem_insertPair k v l a ha with rfl | ha
      · exact hgt
      · exact hb a ha

/-- The fields of a document: name and value pairs, ordered by name, one pair per name. -/
structure Fields where
  /-- The pairs, ordered by name. -/
  toList : List (String × String)
  /-- The names strictly increase along the list, so each name has one pair. -/
  ordered : toList.Pairwise fun a b => a.1 < b.1

instance : BEq Fields := ⟨fun a b => a.toList == b.toList⟩

namespace Fields

/-- No fields at all. -/
def empty : Fields := ⟨[], .nil⟩

instance : Inhabited Fields := ⟨empty⟩

/-- Set a field, replacing its old value. -/
def insert (fs : Fields) (k v : String) : Fields :=
  ⟨insertPair k v fs.toList, pairwise_insertPair k v fs.toList fs.ordered⟩

/-- The value of a field. -/
def get? (fs : Fields) (k : String) : Option String :=
  (fs.toList.find? (·.1 == k)).map (·.2)

/-- Whether a field is present. -/
def contains (fs : Fields) (k : String) : Bool :=
  fs.toList.any (·.1 == k)

/-- Set a field only when it is absent. -/
def insertIfAbsent (fs : Fields) (k v : String) : Fields :=
  if fs.contains k then fs else fs.insert k v

/-- Fields from pairs in any order; of two pairs with one name the later wins. -/
def ofList (pairs : List (String × String)) : Fields :=
  pairs.foldl (fun fs (k, v) => fs.insert k v) empty

/-- The field names. -/
def names (fs : Fields) : List String :=
  fs.toList.map (·.1)

end Fields

/-- The field that holds a document's key. -/
def titleField : String := "title"
/-- The field that holds a document's tag list. -/
def tagsField : String := "tags"
/-- The field that holds a document's body. -/
def textField : String := "text"
/-- The field that holds a document's content type. -/
def typeField : String := "type"
/-- The field that points at content kept outside the document. -/
def canonicalUriField : String := "_canonical_uri"

/-- The content type of a document that declares none. -/
def defaultContentType : String := "text/vnd.tiddlywiki"

/-- A titled unit of content: its fields. -/
structure Document where
  /-- All fields, the title among them. -/
  fields : Fields
  deriving BEq, Inhabited

namespace Document

/-- A document holding only a title. -/
def new (title : String) : Document :=
  ⟨Fields.empty.insert titleField title⟩

/-- A document from fields that carry a non-empty title. -/
def ofFields? (fs : Fields) : Option Document :=
  match fs.get? titleField with
  | some t => if t.isEmpty then none else some ⟨fs⟩
  | none => none

/-- The value of a field. -/
def field? (d : Document) (name : String) : Option String :=
  d.fields.get? name

/-- Set a field. -/
def set (d : Document) (name value : String) : Document :=
  ⟨d.fields.insert name value⟩

/-- Set the tag list, written as a tag list text. -/
def withTags (d : Document) (tags : List String) : Document :=
  d.set tagsField (TagList.render tags)

/-- The title; empty when the document has none. -/
def title (d : Document) : String :=
  (d.field? titleField).getD ""

/-- The tags, read from the tag list field. -/
def tags (d : Document) : List String :=
  match d.field? tagsField with
  | some raw => TagList.parse raw
  | none => []

/-- The content type: the `type` field when it is non-empty, the default otherwise. -/
def contentType (d : Document) : String :=
  match d.field? typeField with
  | some t => if t.isEmpty then defaultContentType else t
  | none => defaultContentType

/-- Whether the content lives in the document itself rather than at a canonical URI. -/
def isEditable (d : Document) : Bool :=
  !d.fields.contains canonicalUriField

end Document

end WikiSync

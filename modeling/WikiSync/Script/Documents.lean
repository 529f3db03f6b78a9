import WikiSync.Script.Basic
import WikiSync.Document.Codec

/-!
# Script operations on tag lists, documents and layouts

Each operation reads its arguments from a request and answers with a JSON value; the layouts'
errors answer with their kind and message.
-/

namespace WikiSync.Script

/-- The answer of a codec error. -/
def codecFailure (e : CodecError) : Failure :=
  ⟨e.kind, e.message⟩

/-- `parse_string_list`: the items of a tag list. -/
def parseStringList (req : Json) : Outcome Json := do
  let raw ← needStr req "raw"
  pure (.obj [("items", Json.ofStrings (TagList.parse raw))])

/-- `stringify_list`: the text of a tag list. -/
def stringifyList (req : Json) : Outcome Json := do
  let items ← needStrings req "items"
  pure (.obj [("raw", .str (TagList.render items))])

/-- `document`: what a document built from fields reports about itself. -/
def documentInfo (req : Json) : Outcome Json := do
  let fs ← needFields req "fields"
  let d : Document := ⟨fs⟩
  let base : List (String × Json) :=
    [("from_fields", .bool (Document.ofFields? fs).isSome), ("title", .str d.title),
      ("tags", Json.ofStrings d.tags), ("content_type", .str d.contentType),
      ("is_editable", .bool d.isEditable)]
  let withField ← match ← optStr req "field" with
    | some name => pure (base ++ [("field", Json.ofOption (d.field? name))])
    | none => pure base
  let all := if (← flag req "into_fields") then withField ++ [("into_fields", fieldsJson fs)]
    else withField
  pure (.obj all)

/-- A name and value pair; items after the two are passed over. -/
def pairOf (v : Json) : Outcome (String × String) :=
  match v with
  | .arr (.str k :: .str x :: _) => .ok (k, x)
  | _ => .error (badInput "set entries must be [name, value] pairs")

/-- `build_document`: a document from a title, tags and fields set in order. -/
def buildDocument (req : Json) : Outcome Json := do
  let title ← needStr req "title"
  let d := Document.new title
  let d ← match req.get? "tags" with
    | none => pure d
    | some .null => pure (d.withTags [])
    | some v => pure (d.withTags (← stringsOf "tags" v))
  let pairs ← (← optArray req "set").mapM pairOf
  let d := pairs.foldl (fun d (k, v) => d.set k v) d
  pure (.obj [("fields", fieldsJson d.fields), ("tags", Json.ofStrings d.tags),
    ("title", .str d.title)])

/-- The JSON form of a written document. -/
def encodedJson (e : Encoded) : Json :=
  .obj [("extension", .str e.extension), ("content", .str e.content),
    ("sidecar", Json.ofOption e.sidecar), ("content_type", .str e.contentType)]

/-- `encode`: a document written in its layout. -/
def encodeOp (req : Json) : Outcome Json := do
  let fs ← needFields req "fields"
  pure (encodedJson (encode ⟨fs⟩))

/-- The answer listing decoded documents. -/
def documentsJson (docs : List Fields) : Json :=
  .obj [("documents", .arr (docs.map fieldsJson))]

/-- `decode`: the documents of a file's text. -/
def decodeOp (req : Json) : Outcome Json := do
  let path ← needStr req "path"
  let raw ← needStr req "raw"
  let sidecar ← optStr req "sidecar"
  match decode path raw sidecar with
  | .ok docs => pure (documentsJson docs)
  | .error e => throw (codecFailure e)

/-- `select_document`: the document of a title among decoded ones. -/
def selectDocumentOp (req : Json) : Outcome Json := do
  let docs ← (← optArray req "documents").mapM (fieldsOf "documents")
  let title ← needStr req "title"
  pure (.obj [("document", optFieldsJson (selectDocument docs title))])

/-- `codec_paths`: a file's sidecar, and the file a sidecar describes. -/
def codecPaths (req : Json) : Outcome Json := do
  let path ← needStr req "path"
  pure (.obj [("sidecar_path", .str (sidecarPath path)),
    ("primary_for_sidecar", Json.ofOption (primaryForSidecar path))])

/-- `type_ext`: the raw extension of a content type and the content type of an extension. -/
def typeExt (req : Json) : Outcome Json := do
  let ct ← optStr req "content_type"
  let ext ← optStr req "extension"
  let a := match ct with
    | some t => [("extension_for_type", Json.ofOption (extensionForType t))]
    | none => []
  let b := match ext with
    | some e => [("type_for_extension", Json.ofOption (typeForExtension e))]
    | none => []
  pure (.obj (a ++ b))

end WikiSync.Script

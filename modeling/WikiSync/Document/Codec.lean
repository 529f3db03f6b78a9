import WikiSync.Document.Basic
import WikiSync.Json.Read
import WikiSync.Json.Print
import WikiSync.Path
import WikiSync.Disk.Basic

/-!
# File layouts of documents

A document is stored in one of three layouts, chosen by its content type and the shape of its
fields.

* A header file (`.tid`): one `name: value` line per field except the body, a blank line, then
  the body. Wikitext, the default content type, is stored this way.
* A raw file with a sidecar: the body alone in a file whose extension names its text content
  type, and the other fields in a header file beside it, named after the raw file plus `.meta`.
* A bundle (`.json`): an array of field objects, used when some field other than the body spans
  several lines or when the content type has no raw extension. One bundle may hold several
  documents.

Decoding reads the layout back from the file's extension and, when given, its sidecar; it keeps
only documents with a non-empty title.
-/

namespace WikiSync

/-- The text content types stored raw, with their extensions. -/
def rawTypes : List (String × String) :=
  [("text/plain", "txt"), ("text/markdown", "md"), ("text/x-markdown", "md"), ("text/css", "css"),
    ("text/html", "html"), ("text/csv", "csv"), ("application/javascript", "js"),
    ("application/json", "json"), ("image/svg+xml", "svg")]

/-- The suffix that turns a file name into its sidecar's name. -/
def sidecarSuffix : String := ".meta"

/-- Lower-case the ASCII letters of a text. -/
def asciiLower (s : String) : String :=
  s.map Char.toLower

/-- The extension of a content type stored raw. -/
def extensionForType (contentType : String) : Option String :=
  (rawTypes.find? (·.1 == contentType)).map (·.2)

/-- The content type that a raw file's extension implies, letters compared without case. -/
def typeForExtension (ext : String) : Option String :=
  (rawTypes.find? (fun p => asciiLower p.2 == asciiLower ext)).map (·.1)

/-- The sidecar of a file: its path with `.meta` appended. -/
def sidecarPath (primary : String) : String :=
  primary ++ sidecarSuffix

/-- The file a sidecar describes, when the path names a sidecar. -/
def primaryForSidecar (p : String) : Option String :=
  match Path.fileName? p with
  | none => none
  | some name =>
    if name.endsWith sidecarSuffix then
      let stem := String.ofList (name.toList.take (name.length - sidecarSuffix.length))
      if stem.isEmpty then none else some (Path.withFileName p stem)
    else none

/-- Why a file could not be turned into documents. -/
inductive CodecError where
  /-- The file could not be read; `reason` is the system's wording. -/
  | read (path reason : String)
  /-- A bundle is not JSON, or not an array of objects. -/
  | json (path reason : String)
  /-- The file holds no document with a title. -/
  | empty (path : String)
  /-- The file's extension names no layout. -/
  | unsupported (path : String)
  deriving BEq, Inhabited

/-- The message of a codec error. -/
def CodecError.message : CodecError → String
  | .read p r => "Cannot read " ++ p ++ ": " ++ r
  | .json p r => "Malformed JSON in " ++ p ++ ": " ++ r
  | .empty p => "No documents found in " ++ p
  | .unsupported p => "Unsupported file type: " ++ p

/-- The kind name of a codec error. -/
def CodecError.kind : CodecError → String
  | .read .. => "Read"
  | .json .. => "Json"
  | .empty .. => "Empty"
  | .unsupported .. => "Unsupported"

/-- A document written out: the primary file's extension and text, the sidecar's text for the
raw layout, and the content type that chose the layout. -/
structure Encoded where
  /-- The extension of the primary file, without its dot. -/
  extension : String
  /-- The text of the primary file. -/
  content : String
  /-- The text of the sidecar, in the raw layout. -/
  sidecar : Option String
  /-- The document's content type. -/
  contentType : String
  deriving BEq, Inhabited

namespace Codec

/-- Header lines for every field but the body: `name: value` and a line feed each. -/
def header (fs : Fields) : String :=
  String.join (fs.toList.filterMap fun (k, v) =>
    if k == textField then none else some (k ++ ": " ++ v ++ "\n"))

/-- A header file: the header, a blank line, and the body if there is one. -/
def headerFile (fs : Fields) : String :=
  header fs ++ "\n" ++ (fs.get? textField).getD ""

/-- The fields of a document as a JSON object. -/
def fieldsJson (fs : Fields) : Json :=
  .obj (fs.toList.map fun (k, v) => (k, .str v))

/-- A bundle holding one document, pretty-printed. -/
def bundle (fs : Fields) : String :=
  Json.pretty (.arr [fieldsJson fs])

/-- Whether a field other than the body spans several lines. -/
def multilineHeader (fs : Fields) : Bool :=
  fs.toList.any fun (k, v) => k != textField && v.contains '\n'

end Codec

/-- Write a document in the layout its fields call for. -/
def encode (d : Document) : Encoded :=
  let ct := d.contentType
  let fs := d.fields
  if Codec.multilineHeader fs then ⟨"json", Codec.bundle fs, none, ct⟩
  else if ct == defaultContentType then ⟨"tid", Codec.headerFile fs, none, ct⟩
  else match extensionForType ct with
    | some ext => ⟨ext, (d.field? textField).getD "", some (Codec.header fs), ct⟩
    | none => ⟨"json", Codec.bundle fs, none, ct⟩

namespace Codec

/-- Read header lines into fields: each line with a colon gives a field, name and value trimmed
of blanks; lines without a colon or with an empty name are skipped. -/
def readHeader (raw : String) (fs : Fields) : Fields :=
  (Text.lines raw).foldl (fun fs line =>
    match Text.splitAtChar line ':' with
    | none => fs
    | some (name, value) =>
      let name := Text.trim name
      if name.isEmpty then fs else fs.insert name (Text.trim value)) fs

/-- Read a header file: line breaks `\r\n` become `\n`, the header ends at the first blank line,
and a non-empty rest is the body. -/
def readHeaderFile (raw : String) : Fields :=
  let cs := raw.toList
  let cs := if Text.containsChars cs ['\r', '\n'] then Text.replacePair '\r' '\n' '\n' cs else cs
  match Text.splitOnFirst ['\n', '\n'] cs with
  | some (head, body) =>
    let fs := readHeader (String.ofList head) Fields.empty
    if body.isEmpty then fs else fs.insert textField (String.ofList body)
  | none => readHeader (String.ofList cs) Fields.empty

/-- The text of a bundle member's value: strings as they are, arrays as tag lists of their
items' texts, null as empty text, anything else as its compact JSON. -/
def memberText : Json → String
  | .str s => s
  | .arr items => TagList.render (items.map fun
      | .str s => s
      | j => Json.compact j)
  | .null => ""
  | j => Json.compact j

/-- Read a bundle: a JSON array of objects, or one object; items that are not objects or have
no `title` member are skipped. -/
def readBundle (path raw : String) : Except CodecError (List Fields) :=
  match Json.parse raw with
  | .error e => .error (.json path e.message)
  | .ok v =>
    let items := match v with
      | .arr items => some items
      | .obj ms => some [Json.obj ms]
      | _ => none
    match items with
    | none => .error (.json path "expected an array of objects")
    | some items =>
      .ok (items.filterMap fun
        | .obj ms =>
          let fs := Fields.ofList (ms.map fun (k, v) => (k, memberText v))
          if fs.contains titleField then some fs else none
        | _ => none)

/-- The stem of a file name, or empty text. -/
def stemOf (path : String) : String :=
  (Path.fileStem? path).getD ""

end Codec

/-- Read the documents of a file from its path, its text and, when it has one, its sidecar's
text. -/
def decode (path raw : String) (sidecar : Option String) : Except CodecError (List Fields) := do
  let ext := asciiLower ((Path.extension? path).getD "")
  let docs ← match sidecar with
    | some note =>
      let fs := Codec.readHeader note Fields.empty
      let fs := fs.insertIfAbsent titleField (Codec.stemOf path)
      let fs := match typeForExtension ext with
        | some ty => fs.insertIfAbsent typeField ty
        | none => fs
      pure [fs.insert textField raw]
    | none =>
      if ext == "tid" then pure [Codec.readHeaderFile raw]
      else if ext == "json" then Codec.readBundle path raw
      else match typeForExtension ext with
        | some ty =>
          pure [((Fields.empty.insert titleField (Codec.stemOf path)).insert typeField ty).insert
            textField raw]
        | none => throw (.unsupported path)
  let docs := docs.filter fun fs => match fs.get? titleField with
    | some t => !t.isEmpty
    | none => false
  if docs.isEmpty then throw (.empty path) else pure docs

/-- The document of a file with the given title, or else its first document. -/
def selectDocument (docs : List Fields) (title : String) : Option Fields :=
  match docs.find? (fun fs => fs.get? titleField == some title) with
  | some fs => some fs
  | none => docs.head?

/-!
## Loading documents from the disk

A file's documents are decoded from its text together with the text of its sidecar, when the
sidecar is a regular file. A file that cannot be read as UTF-8 text, or a sidecar that cannot,
fails with the path that could not be read.
-/

/-- The documents stored in a file, with its sidecar's fields when it has one. -/
def readDocuments (d : Disk) (path : String) : Except CodecError (List Fields) := do
  let raw ← match d.readText path with
    | .ok s => pure s
    | .error e => throw (.read path e.message)
  let notePath := sidecarPath path
  let note ← if d.isFile notePath then
      match d.readText notePath with
      | .ok s => pure (some s)
      | .error e => throw (.read notePath e.message)
    else pure none
  decode path raw note

end WikiSync

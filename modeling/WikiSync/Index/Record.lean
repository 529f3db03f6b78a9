import WikiSync.Document.Codec

/-!
# File records

A file record tells where a tracked document lives: its file, relative to the watched root that
owns it and as an absolute path, its title and content type, whether a sidecar holds its fields,
and whether its content is its own. The files backing a record are its primary file and, when
it has one, its sidecar.
-/

namespace WikiSync

/-- Where a tracked document lives on disk. -/
structure FileRecord where
  /-- The path relative to the owning root. -/
  relativePath : String
  /-- The absolute path of the primary file. -/
  absolutePath : String
  /-- The document's title. -/
  title : String
  /-- The document's content type. -/
  contentType : String
  /-- Whether a sidecar beside the primary file holds the fields. -/
  hasSidecar : Bool
  /-- Whether the content lives in the document rather than at a canonical URI. -/
  isEditable : Bool
  deriving BEq, Inhabited, Repr

namespace FileRecord

/-- The files backing a record: the primary file, then its sidecar if it has one. -/
def backingFiles (r : FileRecord) : List String :=
  if r.hasSidecar then [r.absolutePath, sidecarPath r.absolutePath] else [r.absolutePath]

/-- The record of a file found on disk, described by its first document; `hasSidecar` tells
whether a regular file sits at its sidecar path. The relative path is left empty. -/
def discovered (path : String) (fs : Fields) (hasSidecar : Bool) : FileRecord where
  relativePath := ""
  absolutePath := path
  title := (fs.get? titleField).getD ""
  contentType := match fs.get? typeField with
    | some t => if t.isEmpty then defaultContentType else t
    | none => defaultContentType
  hasSidecar := hasSidecar
  isEditable := !fs.contains canonicalUriField

end FileRecord

end WikiSync

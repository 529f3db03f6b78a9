/-!
# Input and output failures

A failed operation on files is either a failure that the operating system reports with its
error number, or a failure of a bare kind with no further detail (as a scripted store raises
it), or bytes that were to be read as text and are not UTF-8. Each has its fixed message: an
operating-system failure reads `No such file or directory (os error 2)`, a bare kind reads
`resource busy`.

A kind is also what retry decisions look at: busy, denied and would-block failures are
transient and worth another attempt.
-/

namespace WikiSync

/-- The kind of a failed operation on files. -/
inductive IoKind where
  | notFound
  | permissionDenied
  | alreadyExists
  | wouldBlock
  | notADirectory
  | isADirectory
  | directoryNotEmpty
  | invalidInput
  | invalidData
  | invalidFilename
  | filesystemLoop
  | resourceBusy
  | interrupted
  | timedOut
  | storageFull
  | readOnlyFilesystem
  | other
  deriving BEq, DecidableEq, Inhabited, Repr

namespace IoKind

/-- The message of a failure of this kind with no further detail. -/
def text : IoKind → String
  | .notFound => "entity not found"
  | .permissionDenied => "permission denied"
  | .alreadyExists => "entity already exists"
  | .wouldBlock => "operation would block"
  | .notADirectory => "not a directory"
  | .isADirectory => "is a directory"
  | .directoryNotEmpty => "directory not empty"
  | .invalidInput => "invalid input parameter"
  | .invalidData => "invalid data"
  | .invalidFilename => "invalid filename"
  | .filesystemLoop => "filesystem loop or indirection limit (e.g. symlink loop)"
  | .resourceBusy => "resource busy"
  | .interrupted => "operation interrupted"
  | .timedOut => "timed out"
  | .storageFull => "no storage space"
  | .readOnlyFilesystem => "read-only filesystem or storage medium"
  | .other => "other error"

/-- The kind named in scripts. -/
def ofName? : String → Option IoKind
  | "ResourceBusy" => some .resourceBusy
  | "PermissionDenied" => some .permissionDenied
  | "WouldBlock" => some .wouldBlock
  | "NotFound" => some .notFound
  | "InvalidInput" => some .invalidInput
  | "AlreadyExists" => some .alreadyExists
  | "Interrupted" => some .interrupted
  | "TimedOut" => some .timedOut
  | "StorageFull" => some .storageFull
  | "ReadOnlyFilesystem" => some .readOnlyFilesystem
  | "Other" => some .other
  | _ => none

/-- Whether another attempt may succeed: the resource was busy, access was refused for now, or
the operation would have blocked. -/
def isTransient : IoKind → Bool
  | .resourceBusy | .permissionDenied | .wouldBlock => true
  | _ => false

end IoKind

/-- A failure that the operating system reports. -/
inductive OsError where
  | noSuchEntry
  | permissionDenied
  | fileExists
  | notADirectory
  | isADirectory
  | invalidArgument
  | nameTooLong
  | notEmpty
  | symlinkLoop
  | busy
  deriving BEq, DecidableEq, Inhabited, Repr

namespace OsError

/-- The error number. -/
def code : OsError → Nat
  | .noSuchEntry => 2
  | .permissionDenied => 13
  | .fileExists => 17
  | .notADirectory => 20
  | .isADirectory => 21
  | .invalidArgument => 22
  | .nameTooLong => 36
  | .notEmpty => 39
  | .symlinkLoop => 40
  | .busy => 16

/-- The system's description of the error. -/
def description : OsError → String
  | .noSuchEntry => "No such file or directory"
  | .permissionDenied => "Permission denied"
  | .fileExists => "File exists"
  | .notADirectory => "Not a directory"
  | .isADirectory => "Is a directory"
  | .invalidArgument => "Invalid argument"
  | .nameTooLong => "File name too long"
  | .notEmpty => "Directory not empty"
  | .symlinkLoop => "Too many levels of symbolic links"
  | .busy => "Device or resource busy"

/-- The kind of the error. -/
def kind : OsError → IoKind
  | .noSuchEntry => .notFound
  | .permissionDenied => .permissionDenied
  | .fileExists => .alreadyExists
  | .notADirectory => .notADirectory
  | .isADirectory => .isADirectory
  | .invalidArgument => .invalidInput
  | .nameTooLong => .invalidFilename
  | .notEmpty => .directoryNotEmpty
  | .symlinkLoop => .filesystemLoop
  | .busy => .resourceBusy

end OsError

/-- A failed operation on files. -/
inductive IoError where
  /-- Reported by the operating system. -/
  | os (e : OsError)
  /-- A bare kind with no further detail. -/
  | bare (k : IoKind)
  /-- Bytes read as text are not UTF-8. -/
  | notUtf8
  /-- A failure with a fixed message that the file operations themselves give. -/
  | standard (k : IoKind) (message : String)
  /-- A failure with a message of its own, made by the caller of the file operations. -/
  | custom (k : IoKind) (message : String)
  deriving BEq, Inhabited, Repr

namespace IoError

/-- The kind of the failure. -/
def kind : IoError → IoKind
  | .os e => e.kind
  | .bare k => k
  | .notUtf8 => .invalidData
  | .standard k _ => k
  | .custom k _ => k

/-- The message of the failure. -/
def message : IoError → String
  | .os e => e.description ++ " (os error " ++ toString e.code ++ ")"
  | .bare k => k.text
  | .notUtf8 => "stream did not contain valid UTF-8"
  | .standard _ m => m
  | .custom _ m => m

/-- How the failure was made, as diagnostics name it: reported by the system (`Os`), a bare kind
(`Kind`), a fixed message (`Error`), or a message of the caller's (`Custom`). -/
def origin : IoError → String
  | .os _ => "Os"
  | .bare _ => "Kind"
  | .notUtf8 | .standard _ _ => "Error"
  | .custom _ _ => "Custom"

end IoError

end WikiSync

import WikiSync.Disk.Error
import WikiSync.Document.Codec
import WikiSync.Index.FileIndex
import WikiSync.Watch.Error

/-!
# Synchronisation errors

What callers of the synchronisation see: a write that kept failing on a lock until the attempts
ran out, a write that failed for good, a delete that failed, an index lookup, a configuration, a
document format or a watcher that failed. Only the two write failures carry a number of
attempts.
-/

namespace WikiSync

/-- Why synchronising a document failed. -/
inductive SyncError where
  /-- A transient lock error outlived every attempt. -/
  | retriesExhausted (title path : String) (attempts : Nat) (source : IoError)
  /-- A write failed with an error not worth retrying. -/
  | write (title path : String) (attempts : Nat) (source : IoError)
  /-- Removing a backing file failed. -/
  | delete (title path : String) (source : IoError)
  /-- An index lookup failed. -/
  | index (e : IndexError)
  /-- The configuration could not be used. -/
  | config (reason : String)
  /-- A document could not be written or read. -/
  | codec (e : CodecError)
  /-- The watcher failed. -/
  | watch (e : WatchError)
  deriving Inhabited

namespace SyncError

/-- The message of a synchronisation error. -/
def message : SyncError → String
  | .retriesExhausted t p n e =>
    "Gave up writing '" ++ t ++ "' to " ++ p ++ " after " ++ toString n ++ " attempts: " ++ e.message
  | .write t p _ e => "Failed to write '" ++ t ++ "' to " ++ p ++ ": " ++ e.message
  | .delete t p e => "Failed to delete '" ++ t ++ "' at " ++ p ++ ": " ++ e.message
  | .index e => "Index lookup failed: " ++ e.message
  | .config reason => "Configuration error: " ++ reason
  | .codec e => "Document format error: " ++ e.message
  | .watch e => "Watcher error: " ++ e.message

/-- The kind name of a synchronisation error. -/
def kind : SyncError → String
  | .retriesExhausted .. => "RetriesExhausted"
  | .write .. => "Write"
  | .delete .. => "Delete"
  | .index _ => "Index"
  | .config _ => "Config"
  | .codec _ => "Codec"
  | .watch _ => "Watch"

/-- The number of write attempts behind the error, when it came from a write. -/
def attempts : SyncError → Option Nat
  | .retriesExhausted _ _ n _ | .write _ _ n _ => some n
  | _ => none

end SyncError

end WikiSync

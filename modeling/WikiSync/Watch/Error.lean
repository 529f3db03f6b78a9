/-!
# Watch errors

What can go wrong while watching roots: a watcher that cannot start, a path that cannot be
watched, an event that cannot be read, an ignore pattern that cannot be read, and a watch loop
that has gone away.
-/

namespace WikiSync

/-- Why watching failed. -/
inductive WatchError where
  /-- The watcher could not start. -/
  | initFailed (reason : String)
  /-- A path could not be watched. -/
  | pathWatchFailed (path reason : String)
  /-- An event could not be read. -/
  | eventError (details : String)
  /-- An ignore pattern could not be read. -/
  | invalidPattern (pattern reason : String)
  /-- The watch loop is gone. -/
  | channelClosed
  deriving BEq, Inhabited, Repr

namespace WatchError

/-- The message of a watch error. -/
def message : WatchError → String
  | .initFailed reason => "Failed to initialize watcher: " ++ reason
  | .pathWatchFailed path reason => "Cannot watch path " ++ path ++ ": " ++ reason
  | .eventError details => "File system event error: " ++ details
  | .invalidPattern pattern reason => "Invalid ignore pattern '" ++ pattern ++ "': " ++ reason
  | .channelClosed => "Channel closed unexpectedly"

/-- The kind name of a watch error. -/
def kind : WatchError → String
  | .initFailed _ => "InitFailed"
  | .pathWatchFailed _ _ => "PathWatchFailed"
  | .eventError _ => "EventError"
  | .invalidPattern _ _ => "InvalidPattern"
  | .channelClosed => "ChannelClosed"

end WatchError

end WikiSync

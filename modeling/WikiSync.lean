import WikiSync.Text.Blank
import WikiSync.Text.Printable
import WikiSync.Text.Utf8
import WikiSync.Decimal.Shortest
import WikiSync.Decimal.Nearest
import WikiSync.Json.Value
import WikiSync.Json.Print
import WikiSync.Json.Read
import WikiSync.Toml.Value
import WikiSync.Toml.Quoting
import WikiSync.Toml.Read
import WikiSync.Toml.Write
import WikiSync.Path
import WikiSync.Disk.Error
import WikiSync.Disk.Basic
import WikiSync.Disk.Walk
import WikiSync.Glob.Basic
import WikiSync.Glob.Automaton
import WikiSync.Glob.Match
import WikiSync.Glob.Expression
import WikiSync.Watch.Error
import WikiSync.Watch.IgnoreRules
import WikiSync.Watch.Event
import WikiSync.Watch.Scan
import WikiSync.Watch.Pipeline
import WikiSync.Watch.Notify
import WikiSync.Watch.Watcher
import WikiSync.Sync.Error
import WikiSync.Sync.FileStore
import WikiSync.Sync.Adaptor
import WikiSync.Sync.Interleaved
import WikiSync.Config.Settings
import WikiSync.Config.Reloader
import WikiSync.Config.Layer
import WikiSync.Config.Environment
import WikiSync.Config.Decode
import WikiSync.Config.Load
import WikiSync.Engine.Basic
import WikiSync.Document.TagList
import WikiSync.Document.Basic
import WikiSync.Document.Codec
import WikiSync.Index.Record
import WikiSync.Index.FileIndex
import WikiSync.Index.IndexSet
import WikiSync.Route.Filter
import WikiSync.Route.TagGraph
import WikiSync.Route.FileName
import WikiSync.Route.Basic
import WikiSync.Watch.Debouncer
import WikiSync.Watch.Exclusions
import WikiSync.Watch.ChangeQueue
import WikiSync.Script.Basic
import WikiSync.Script.Documents
import WikiSync.Script.Routing
import WikiSync.Script.Index
import WikiSync.Script.Timers
import WikiSync.Script.Site
import WikiSync.Script.Files
import WikiSync.Script.Watching
import WikiSync.Script.Persisting
import WikiSync.Script.Configuring
import WikiSync.Script.Settings
import WikiSync.Script.Notifying
import WikiSync.Script.Watcher
import WikiSync.Script.Engine
import WikiSync.Script.Run
import WikiSync.Proofs.Route.Resolution
import WikiSync.Proofs.Path.Keyed
import WikiSync.Proofs.Path.Strip
import WikiSync.Proofs.Text.Lines
import WikiSync.Proofs.Text.Utf8
import WikiSync.Proofs.Json.PrettyRead
import WikiSync.Proofs.Document.Fields
import WikiSync.Proofs.Document.Roundtrip
import WikiSync.Proofs.Index.Refinement
import WikiSync.Proofs.Index.Placement
import WikiSync.Proofs.Watch.Queue
import WikiSync.Proofs.Watch.Echo
import WikiSync.Proofs.Sync.Touched
import WikiSync.Proofs.Index.Roots
import WikiSync.Proofs.Index.Reach
import WikiSync.Proofs.Watch.Move
import WikiSync.Proofs.Watch.Grace
import WikiSync.Proofs.Index.Titles
import WikiSync.Proofs.Sync.Concurrent
import WikiSync.Proofs.Route.Reuse
import WikiSync.Proofs.Sync.Stable
import WikiSync.Proofs.Watch.Timing
import WikiSync.Proofs.Watch.Protocol
import WikiSync.Proofs.Watch.Interleaving
import WikiSync.Proofs.Sync.Failure
import WikiSync.Proofs.Route.Target
import WikiSync.Proofs.Watch.Upsert
import WikiSync.Proofs.Watch.Recreate
import WikiSync.Proofs.Engine.Discover
import WikiSync.Proofs.Sync.Retry
import WikiSync.Proofs.Sync.Released
import WikiSync.Proofs.Watch.QueueHistory
import WikiSync.Proofs.Watch.Timers
import WikiSync.Proofs.Watch.RootScope
import WikiSync.Proofs.Watch.Patterns
import WikiSync.Proofs.Engine.Reload
import WikiSync.Proofs.Route.TagTree
import WikiSync.Proofs.Document.TagLists
import WikiSync.Proofs.Route.FilterGrammar
import WikiSync.Proofs.Engine.SubRoots
import WikiSync.Proofs.Route.Stem
import WikiSync.Proofs.Route.FreePath
import WikiSync.Proofs.Document.TagListReread
import WikiSync.Proofs.Disk.Removal
import WikiSync.Proofs.Sync.Delete
import WikiSync.Proofs.Path.Plain
import WikiSync.Proofs.Disk.Plain
import WikiSync.Proofs.Disk.Write
import WikiSync.Proofs.Sync.SavedFile
import WikiSync.Proofs.Sync.Readback
import WikiSync.Proofs.Watch.Deletions
import WikiSync.Proofs.Watch.Settle

import WikiSync.Disk.Basic

/-!
# Noticing changed settings

A reloader remembers when the settings file was last modified and, on each check, tells whether
that changed. A file that appears counts as changed; a file that disappears does not, so that
the last good settings stay in force.
-/

namespace WikiSync

/-- The modification time of a file, when it can be read. -/
def Disk.modified? (d : Disk) (p : String) : Option Nat :=
  match d.modified p with
  | .ok t => some t
  | .error _ => none

/-- What a reloader remembers of the settings file. -/
structure Reloader where
  /-- The settings file. -/
  path : String
  /-- Its modification time when last seen. -/
  lastModified : Option Nat
  deriving Inhabited

namespace Reloader

/-- A reloader that has seen the file as it is now. -/
def new (d : Disk) (path : String) : Reloader :=
  ⟨path, d.modified? path⟩

/-- Whether the file changed since the last check that saw a change. -/
def check (r : Reloader) (d : Disk) : Reloader × Bool :=
  let current := d.modified? r.path
  let changed := match r.lastModified, current with
    | some last, some t => t != last
    | none, some _ => true
    | _, none => false
  (if changed then { r with lastModified := current } else r, changed)

end Reloader

end WikiSync

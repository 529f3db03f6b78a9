import WikiSync.Disk.Basic

/-!
# Walking a directory tree

A walk visits a root and then, depth first and by name, everything below it. A directory comes
before its entries. A filter may leave out an entry below the root, and then everything below it.

When the walk follows links, a link counts as what it points to: a link to a file is a file and
a link to a directory is walked into, unless that directory is one the walk is already inside,
which would never end. A dangling link is left out. When the walk does not follow links, a link
is met as itself and is neither a file nor walked into. The root itself is always followed: a
root that leads to a directory is walked into, and one that leads to a file is a file.
-/

namespace WikiSync

/-- An entry a walk meets: its path as reached and whether it is a regular file. -/
structure WalkEntry where
  /-- The path, the root's path joined with the names on the way. -/
  path : String
  /-- Whether the entry is a regular file. -/
  isFile : Bool
  deriving Inhabited, Repr

namespace Disk

/-- Walk the entries of a directory reached as `dir` at place `pl`, inside the places
`inside`. -/
def walkBelow (d : Disk) (follow : Bool) (keep : String → Bool) :
    Nat → String → Place → List Place → List WalkEntry
  | 0, _, _, _ => []
  | fuel + 1, dir, pl, inside =>
    (d.entries pl).flatMap fun (name, node) =>
      let p := Path.join dir name
      match node with
      | .file _ _ => if keep p then [⟨p, true⟩] else []
      | .dir =>
        if keep p then ⟨p, false⟩ :: d.walkBelow follow keep fuel p (pl ++ [name]) (inside ++ [pl ++ [name]])
        else []
      | .link _ =>
        if !follow then (if keep p then [⟨p, false⟩] else [])
        else match d.stat p with
          | .ok (_, .file _ _) => if keep p then [⟨p, true⟩] else []
          | .ok (target, .dir) =>
            if inside.contains target then []
            else if keep p then ⟨p, false⟩ :: d.walkBelow follow keep fuel p target (inside ++ [target])
            else []
          | _ => []

/-- Walk a root and everything below it that the filter keeps. -/
def walkTree (d : Disk) (root : String) (follow : Bool) (keep : String → Bool) : List WalkEntry :=
  match d.stat root with
  | .ok (pl, .dir) => ⟨root, false⟩ :: d.walkBelow follow keep (d.nodes.length + 2) root pl [pl]
  | .ok (_, .file _ _) => [⟨root, true⟩]
  | _ => []

end Disk

end WikiSync

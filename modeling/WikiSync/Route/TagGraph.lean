/-!
# Tag hierarchy

A tag graph records, for each title, the tags it carries; setting a title's tags replaces what
was recorded. A title lies in the tree of a set of root tags when one of its tags is a root, or
one of its tags lies in that tree: it reaches a root by one or more steps from a title to one of
its tags. The graph may hold cycles; the walk visits each title once.
-/

namespace WikiSync

/-- Titles and the tags recorded for them. -/
structure TagGraph where
  /-- The recorded titles with their tags; one entry per title. -/
  entries : List (String × List String)
  deriving Inhabited

namespace TagGraph

/-- A graph with nothing recorded. -/
def empty : TagGraph := ⟨[]⟩

/-- Record the tags of a title, replacing earlier ones. -/
def setTags (g : TagGraph) (title : String) (tags : List String) : TagGraph :=
  ⟨(g.entries.filter (·.1 != title)) ++ [(title, tags)]⟩

/-- Forget a title's tags. -/
def remove (g : TagGraph) (title : String) : TagGraph :=
  ⟨g.entries.filter (·.1 != title)⟩

/-- The tags recorded for a title. -/
def tagsOf (g : TagGraph) (title : String) : List String :=
  match g.entries.find? (·.1 == title) with
  | some (_, tags) => tags
  | none => []

/-- Walk from titles waiting in `queue` to their tags, breadth first, skipping visited titles;
true as soon as a tag is a root. Each title is expanded once, so the walk takes at most one round
per recorded tag, plus one. -/
def reaches (g : TagGraph) (roots : List String) : Nat → List String → List String → Bool
  | 0, _, _ => false
  | _ + 1, [], _ => false
  | fuel + 1, current :: queue, visited =>
    if visited.contains current then reaches g roots fuel queue visited
    else
      let parents := g.tagsOf current
      if parents.any roots.contains then true
      else reaches g roots fuel (queue ++ parents) (current :: visited)

/-- The number of recorded tags. -/
def size (g : TagGraph) : Nat :=
  (g.entries.map (·.2.length)).foldl (· + ·) 0

/-- Whether a title lies below one of the root tags. -/
def isInTagTree (g : TagGraph) (title : String) (roots : List String) : Bool :=
  if roots.isEmpty then false else g.reaches roots (g.size + 2) [title] []

end TagGraph

/-- Where a router looks up the tag hierarchy: nowhere, so that no title lies in any tree, or a
tag graph. -/
inductive Hierarchy where
  | none
  | graph (g : TagGraph)
  deriving Inhabited

/-- Whether a title lies below one of the root tags in a hierarchy. -/
def Hierarchy.isInTagTree : Hierarchy → String → List String → Bool
  | .none, _, _ => false
  | .graph g, title, roots => g.isInTagTree title roots

end WikiSync

import WikiSync.Sync.Adaptor

/-!
# Saves as atomic steps

A save runs in three steps, each under the locks it takes and with nothing shared held between
them: it reads the index and has the router choose the target (`Adaptor.plan`), writes the
primary file and the sidecar (`Adaptor.writeStep`), and then removes stale files and tracks the
record (`Adaptor.commit`). Run one after another, the three steps are the save
(`Adaptor.save_eq_steps`).

Saves of different titles are not ordered against each other, so the steps of two saves may
interleave in any order. A schedule says which save moves at each turn (`Adaptor.interleave`);
each save keeps what it decided in its own stage (`SaveStage`), and a finished save stays as it
finished.
-/

namespace WikiSync

/-- What the first step of a save decides: the document, the record tracking its title at that
moment, and the path the document goes to. -/
structure SavePlan where
  /-- The document saved. -/
  doc : Document
  /-- The record tracking the title when the target was chosen. -/
  current : Option FileRecord
  /-- The path of the primary file. -/
  target : String

namespace SavePlan

/-- The files a save writes: the target and, for a document kept with a sidecar, the sidecar. -/
def written (pl : SavePlan) : List String :=
  if (encode pl.doc).sidecar.isSome then [pl.target, sidecarPath pl.target] else [pl.target]

/-- The record a save tracks for its plan, before the index gives it its relative path. -/
def record (pl : SavePlan) : FileRecord :=
  ⟨"", pl.target, pl.doc.title, (encode pl.doc).contentType, (encode pl.doc).sidecar.isSome,
    pl.doc.isEditable⟩

end SavePlan

namespace IndexSet

/-- Track a saved record: register `root` first when no registered root holds the record's path,
insert the record, and read back the record now tracked for its title. -/
def track (s : IndexSet) (root : String) (r : FileRecord) :
    IndexSet × Except SyncError FileRecord :=
  let s := if (s.owningRoot? r.absolutePath).isNone then (s.registerRoot root).1 else s
  match s.insert r with
  | .ok (s, _) => match s.recordForTitle? r.title with
    | some stored => (s, .ok stored)
    | none => (s, .error (.index (.notFound r.absolutePath)))
  | .error e => (s, .error (.index e))

end IndexSet

namespace Adaptor

/-- The first step of a save: choose the target from the index, the router and the files as they
are, and exclude the paths about to be written. -/
def plan (a : Adaptor) (d : Document) : Adaptor × SavePlan :=
  let current := a.index.recordForTitle? d.title
  let bound := a.store.disk.nodes.length + a.index.len + 1
  let (router, target) :=
    a.router.targetPath d current (encode d).extension (a.isTaken d.title current) bound
  let pl : SavePlan := ⟨d, current, target⟩
  ({ a with router }.exclude pl.written, pl)

/-- The second step of a save: write the document's files. -/
def writeStep (a : Adaptor) (pl : SavePlan) : Adaptor × Except SyncError Unit :=
  a.writeAll pl.doc.title pl.target (encode pl.doc)

/-- The last step of a save, given how its writes went: after a failure, release the paths and
raise an alert; after success, remove the stale backing files of the record the plan saw, track
the new record under the root of the document's route, and release the paths. -/
def commit (a : Adaptor) (pl : SavePlan) :
    Except SyncError Unit → Adaptor × Except SyncError FileRecord
  | .error e =>
    let a := a.release pl.written
    (a.raise pl.doc.title e.message (e.attempts.getD 1), .error e)
  | .ok () =>
    let a := match pl.current with
      | some old => a.removeStale (old.backingFiles.filter fun p => !pl.written.any (Path.same · p))
      | none => a
    let (index, stored) := a.index.track (a.router.resolve pl.doc).rootDirectory pl.record
    ({ a with index }.release pl.written, stored)

/-- A save is its three steps run one after another. -/
theorem save_eq_steps (a : Adaptor) (d : Document) :
    a.save d = ((a.plan d).1.writeStep (a.plan d).2).1.commit (a.plan d).2
      ((a.plan d).1.writeStep (a.plan d).2).2 := by
  unfold save plan writeStep commit SavePlan.written SavePlan.record IndexSet.track
  dsimp only
  split
  · rename_i hw
    rw [hw]
  · rename_i hw
    rewrite [hw]
    rfl

end Adaptor

/-- How far a save has come: not started, planned, written with the outcome of its writes, or
finished with its answer. -/
inductive SaveStage where
  /-- The save of a document, not started. -/
  | start (d : Document)
  /-- The target is chosen. -/
  | planned (pl : SavePlan)
  /-- The files are written, or the writes failed. -/
  | written (pl : SavePlan) (w : Except SyncError Unit)
  /-- The save is over, with its answer. -/
  | done (pl : SavePlan) (r : Except SyncError FileRecord)

namespace SaveStage

/-- The document a save is about. -/
def document : SaveStage → Document
  | .start d => d
  | .planned pl => pl.doc
  | .written pl _ => pl.doc
  | .done pl _ => pl.doc

/-- Whether a save is over. -/
def isDone : SaveStage → Bool
  | .done _ _ => true
  | _ => false

/-- Take the next step of a save; a finished save stays as it is. -/
def advance (a : Adaptor) : SaveStage → Adaptor × SaveStage
  | .start d => ((a.plan d).1, .planned (a.plan d).2)
  | .planned pl => ((a.writeStep pl).1, .written pl (a.writeStep pl).2)
  | .written pl w => ((a.commit pl w).1, .done pl (a.commit pl w).2)
  | .done pl r => (a, .done pl r)

end SaveStage

namespace Adaptor

/-- Two saves run under a schedule: at each turn `true` moves the first save and `false` the
second. The adaptor and both stages at the end. -/
def interleave : Adaptor → SaveStage → SaveStage → List Bool → Adaptor × SaveStage × SaveStage
  | a, x, y, [] => (a, x, y)
  | a, x, y, true :: s => interleave (x.advance a).1 (x.advance a).2 y s
  | a, x, y, false :: s => interleave (y.advance a).1 x (y.advance a).2 s

end Adaptor

end WikiSync

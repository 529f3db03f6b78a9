import WikiSync.Engine.Basic
import WikiSync.Proofs.Watch.Recreate
import WikiSync.Proofs.Watch.Interleaving
import WikiSync.Proofs.Sync.Concurrent

/-!
# What discovery reports, and what the index then tracks

Discovery scans the main root and then the other watched roots. A scan takes each file it reads
into the index, as the record of the file's first document with the titles of the others bundled
there (`scanFile`), and of all the documents found discovery keeps the first of each title
(`freshDocuments`). So it reports each title once.

The index, though, keeps the last file read for a title: for a title held by two files it tracks
the later one, while the document reported came from the earlier. When the files discovery reads
name different places and share no title, and the roots it scans are registered in a sound index,
every document reported was read from a file at which the index then tracks its title, as the
title of the file's record or a bundled one (`Engine.discover_reports_tracked`). The proof carries
`Filed` along the files of each root and `Engine.Discovering` along the roots.
-/

namespace WikiSync

/-- The titles the index files a file's documents under: the first document's title, empty when
it has none, and the titles of the others. -/
def filedTitles : List Fields → List String
  | [] => []
  | first :: rest => (first.get? titleField).getD "" :: rest.filterMap (·.get? titleField)

/-- The files a scan of a root reads, in the order it reads them: the regular files its walk
keeps, less the sidecars read with their primary file. -/
def RootRules.scanned (r : RootRules) (d : Disk) : List String :=
  ((d.walkTree r.root (!r.ignoreSymlinks) (r.keeps d)).filter fun e =>
    e.isFile && !((primaryForSidecar e.path).any d.isFile)).map (·.path)

theorem scanRoot_eq (d : Disk) (ix : IndexSet) (rules : RootRules) :
    scanRoot d ix rules = (rules.scanned d).foldl (scanFile d) ((ix.registerRoot rules.root).1, {}) := by
  rw [scanRoot, RootRules.scanned, List.foldl_map]

/-- Files read from one disk are told apart: two of them name the same place, or share a title,
only when they are the same file. -/
def FilesApart (d : Disk) (files : List String) : Prop :=
  ∀ f ∈ files, ∀ g ∈ files, ∀ F G, readDocuments d f = .ok F → readDocuments d g = .ok G →
    (Path.components f = Path.components g ∨ ∃ t ∈ filedTitles F, t ∈ filedTitles G) → f = g

/-- The index files a file's documents as a scan left them: the record at the file has its first
document's title, and the other titles are bundled there. -/
def IndexSet.FiledAt (s : IndexSet) (f : String) : List Fields → Prop
  | [] => True
  | first :: rest => (s.recordAt? f).map (·.title) = some ((first.get? titleField).getD "") ∧
      s.bundledAt f = rest.filterMap (·.get? titleField)

theorem Document.get?_title_of_ofFields? {fs : Fields} {doc : Document}
    (h : Document.ofFields? fs = some doc) : fs.get? titleField = some doc.title := by
  unfold Document.ofFields? at h
  split at h
  · rename_i t ht
    split at h
    · cases h
    · cases h
      simp [Document.title, Document.field?, ht]
  · cases h

/-- A document read from a file that the index files is tracked there under its title, as the
record's title or a bundled one. -/
theorem IndexSet.FiledAt.tracks {s : IndexSet} {f : String} {F : List Fields} {doc : Document}
    (h : s.FiledAt f F) (hdoc : doc ∈ F.filterMap Document.ofFields?) :
    (s.recordAt? f).map (·.title) = some doc.title ∨ doc.title ∈ s.bundledAt f := by
  cases F with
  | nil => cases hdoc
  | cons first rest =>
    obtain ⟨hrec, hbun⟩ := h
    obtain ⟨fs, hfs, hof⟩ := List.mem_filterMap.mp hdoc
    have htitle := Document.get?_title_of_ofFields? hof
    rcases List.mem_cons.mp hfs with rfl | hrest
    · left
      rw [hrec, htitle]
      rfl
    · right
      rw [hbun]
      exact List.mem_filterMap.mpr ⟨fs, hrest, htitle⟩

namespace IndexSet

variable {s s' : IndexSet}

/-- Inserting another file's record, under a title the filed file does not hold, and bundling
titles with it leaves what the index files for that file as it was. -/
theorem FiledAt.insert_setBundled (hs : s.Sound) {r : FileRecord} {dsp : Option FileRecord}
    (hi : s.insert r = .ok (s', dsp)) (B : List String) {f : String} {F : List Fields}
    (h : s.FiledAt f F) (hpath : Path.components f ≠ Path.components r.absolutePath)
    (htitle : r.title ∉ filedTitles F) : (s'.setBundled r.absolutePath B).FiledAt f F := by
  cases F with
  | nil => trivial
  | cons first rest =>
    obtain ⟨hrec, hbun⟩ := h
    obtain ⟨-, -, hother⟩ := hs.insert_setBundled hi B
    obtain ⟨hrec', hbun'⟩ := hother f hpath
    have hkeep : (s.recordAt? f).map (·.title) ≠ some r.title := by
      rw [hrec]
      intro heq
      exact htitle (by rw [← Option.some.inj heq]; exact List.mem_cons_self)
    unfold FiledAt
    rw [hrec', hbun', if_neg hkeep, if_neg hkeep]
    exact ⟨hrec, hbun⟩

/-- Inserting the record a scan makes for a file and bundling the other titles with it files
the file's documents. -/
theorem Sound.filedAt_discovered (hs : s.Sound) {g : String} {first : Fields} {rest : List Fields}
    {sc : Bool} {dsp : Option FileRecord}
    (hi : s.insert (FileRecord.discovered g first sc) = .ok (s', dsp)) :
    (s'.setBundled g (rest.filterMap (·.get? titleField))).FiledAt g (first :: rest) := by
  obtain ⟨-, ⟨⟨r, hat, -, htitle, -⟩, hbun⟩, -⟩ :=
    hs.insert_setBundled hi (rest.filterMap (·.get? titleField))
  refine ⟨?_, hbun⟩
  rw [show g = (FileRecord.discovered g first sc).absolutePath from rfl, hat]
  exact congrArg some htitle

end IndexSet

section Scan

variable {d : Disk} {files : List String}

/-- What a discovery has established: every document in `docs` was read from one of `files`,
and the index files that file's documents. -/
def Filed (d : Disk) (files : List String) (s : IndexSet) (docs : List Document) : Prop :=
  ∀ doc ∈ docs, ∃ f ∈ files, ∃ F, readDocuments d f = .ok F ∧
    doc ∈ F.filterMap Document.ofFields? ∧ s.FiledAt f F

theorem Filed.mono {s : IndexSet} {docs docs' : List Document} (h : Filed d files s docs)
    (hsub : ∀ doc ∈ docs', doc ∈ docs) : Filed d files s docs' :=
  fun doc hdoc => h doc (hsub doc hdoc)

/-- One file taken in by a scan keeps the index sound over the same roots, and every document
collected so far filed, its own included. -/
theorem Filed.after_scanFile {s : IndexSet} {found : Discovered} {D : List Document} {g : String}
    (hs : s.Sound) (happ : FilesApart d files) (hg : g ∈ files)
    (h : Filed d files s (D ++ found.documents)) :
    (scanFile d (s, found) g).1.Sound ∧ (scanFile d (s, found) g).1.roots = s.roots ∧
      Filed d files (scanFile d (s, found) g).1 (D ++ (scanFile d (s, found) g).2.documents) := by
  unfold WikiSync.scanFile
  dsimp only
  split
  · exact ⟨hs, rfl, h⟩
  · exact ⟨hs, rfl, h⟩
  · rename_i G hG
    split
    · exact ⟨hs, rfl, h⟩
    · rename_i s' htracked
      dsimp only
      cases G with
      | nil =>
        cases htracked
        rw [List.filterMap_nil, List.append_nil]
        exact ⟨hs, rfl, h⟩
      | cons first rest =>
        dsimp only at htracked
        split at htracked
        · rename_i s₁ dsp hi
          cases htracked
          have hs₁ := hs.insert hi
          refine ⟨hs₁.setBundled _ _, (hs₁.setBundled_roots _ _).trans (hs.insert_roots hi), ?_⟩
          intro doc hdoc
          rw [← List.append_assoc, List.mem_append] at hdoc
          rcases hdoc with hold | hnew
          · obtain ⟨f, hf, F, hF, hdocF, hfiled⟩ := h doc hold
            refine ⟨f, hf, F, hF, hdocF, ?_⟩
            by_cases hfg : f = g
            · subst hfg
              rw [hG] at hF
              cases hF
              exact hs.filedAt_discovered hi
            · exact hfiled.insert_setBundled hs hi _
                (fun hc => hfg (happ f hf g hg F _ hF hG (.inl hc)))
                (fun ht => hfg (happ f hf g hg F _ hF hG (.inr ⟨_, ht, List.mem_cons_self⟩)))
          · exact ⟨g, hg, _, hG, hnew, hs.filedAt_discovered hi⟩
        · cases htracked

end Scan

namespace IndexSet

theorem isRegistered_eq_any_roots (s : IndexSet) (root : String) :
    s.isRegistered root = s.roots.any (Path.same · root) := by
  rw [isRegistered, roots, List.any_map]
  rfl

theorem registerRoot_of_isRegistered {s : IndexSet} {root : String}
    (h : s.isRegistered root = true) : s.registerRoot root = (s, false) := by
  rw [registerRoot, if_pos h]

end IndexSet

section Scan

variable {d : Disk} {files : List String}

/-- Files taken in one after another keep the index sound over the same roots, and every
document collected so far filed. -/
theorem Filed.after_foldl_scanFile {D : List Document} (happ : FilesApart d files) :
    ∀ (l : List String), (∀ g ∈ l, g ∈ files) → ∀ (acc : IndexSet × Discovered), acc.1.Sound →
      Filed d files acc.1 (D ++ acc.2.documents) →
      (l.foldl (scanFile d) acc).1.Sound ∧ (l.foldl (scanFile d) acc).1.roots = acc.1.roots ∧
        Filed d files (l.foldl (scanFile d) acc).1 (D ++ (l.foldl (scanFile d) acc).2.documents)
  | [], _, _, hs, h => ⟨hs, rfl, h⟩
  | g :: l, hl, (s, found), hs, h => by
    obtain ⟨hs', hroots', h'⟩ := Filed.after_scanFile hs happ (hl g List.mem_cons_self) h
    obtain ⟨hs'', hroots'', h''⟩ := Filed.after_foldl_scanFile happ l
      (fun g' hg' => hl g' (List.mem_cons_of_mem g hg')) _ hs' h'
    exact ⟨hs'', hroots''.trans hroots', h''⟩

/-- A scan of a registered root keeps the index sound over the same roots, and files every
document it collects besides those filed before. -/
theorem Filed.after_scanRoot {s : IndexSet} {D : List Document} {rules : RootRules} (hs : s.Sound)
    (hreg : s.isRegistered rules.root = true) (happ : FilesApart d files)
    (hsub : ∀ g ∈ rules.scanned d, g ∈ files) (h : Filed d files s D) :
    (scanRoot d s rules).1.Sound ∧ (scanRoot d s rules).1.roots = s.roots ∧
      Filed d files (scanRoot d s rules).1 (D ++ (scanRoot d s rules).2.documents) := by
  rw [scanRoot_eq, IndexSet.registerRoot_of_isRegistered hreg]
  exact Filed.after_foldl_scanFile happ _ hsub (s, {}) hs (by rwa [List.append_nil])

end Scan

/-- One document met by a discovery: kept when its title was not seen yet. -/
def freshStep (acc : List Document × List String) (doc : Document) : List Document × List String :=
  if acc.2.contains doc.title then acc else (acc.1 ++ [doc], acc.2 ++ [doc.title])

theorem freshDocuments_eq (seen : List String) (docs : List Document) :
    freshDocuments seen docs = docs.foldl freshStep ([], seen) :=
  rfl

/-- Keeping the documents of titles not yet seen, one after another, adds each kept title once to
those seen. -/
theorem foldl_freshStep : ∀ (docs kept : List Document) (seen : List String), seen.Nodup →
    ∃ new : List Document,
      docs.foldl freshStep (kept, seen) = (kept ++ new, seen ++ new.map Document.title) ∧
        (∀ doc ∈ new, doc ∈ docs) ∧ (seen ++ new.map Document.title).Nodup
  | [], kept, seen, hn => ⟨[], by simp, (fun _ h => by cases h), by simpa using hn⟩
  | doc :: docs, kept, seen, hn => by
    rw [List.foldl_cons, freshStep]
    by_cases hseen : seen.contains doc.title = true
    · rw [if_pos hseen]
      obtain ⟨new, heq, hmem, hnd⟩ := foldl_freshStep docs kept seen hn
      exact ⟨new, heq, fun x hx => List.mem_cons_of_mem doc (hmem x hx), hnd⟩
    · rw [if_neg hseen]
      have hn' : (seen ++ [doc.title]).Nodup :=
        List.nodup_append.mpr ⟨hn, List.nodup_singleton _, by
          rintro a ha b hb rfl
          exact hseen (by simpa [List.mem_singleton.mp hb] using ha)⟩
      obtain ⟨new, heq, hmem, hnd⟩ := foldl_freshStep docs (kept ++ [doc]) (seen ++ [doc.title]) hn'
      refine ⟨doc :: new, by simpa using heq, ?_, by simpa using hnd⟩
      intro x hx
      rcases List.mem_cons.mp hx with rfl | hx
      · exact List.mem_cons_self
      · exact List.mem_cons_of_mem doc (hmem x hx)

/-- The documents of titles not yet seen are some of the documents, and the titles seen after
them are those seen before followed by theirs, each once. -/
theorem freshDocuments_spec (seen : List String) (docs : List Document) (hn : seen.Nodup) :
    (∀ doc ∈ (freshDocuments seen docs).1, doc ∈ docs) ∧
      (freshDocuments seen docs).2 = seen ++ (freshDocuments seen docs).1.map Document.title ∧
      (freshDocuments seen docs).2.Nodup := by
  obtain ⟨new, heq, hmem, hnd⟩ := foldl_freshStep docs [] seen hn
  rw [freshDocuments_eq, heq]
  exact ⟨by simpa using hmem, by simp, hnd⟩

/-- A walk of a directory holding one regular file meets the directory and, when it keeps it,
the file. -/
theorem Disk.walkTree_single_file {d : Disk} {root name : String} {pl : Place}
    {bytes : List UInt8} {t : Nat} (hstat : d.stat root = .ok (pl, .dir))
    (hent : d.entries pl = [(name, .file bytes t)]) (follow : Bool) (keep : String → Bool) :
    d.walkTree root follow keep =
      ⟨root, false⟩ :: (if keep (Path.join root name) then [⟨Path.join root name, true⟩] else []) := by
  rw [Disk.walkTree, hstat]
  dsimp only
  rw [show d.nodes.length + 2 = (d.nodes.length + 1) + 1 from rfl, Disk.walkBelow, hent]
  simp only [List.flatMap_cons, List.flatMap_nil, List.append_nil]

namespace Engine

/-- The rules of the roots a discovery scans, the main root first; a root whose patterns do not
compile is passed over. -/
def scanRules (e : Engine) : List RootRules :=
  (e.mainWatchRoot :: e.subWatchRoots).filterMap fun r => r.rules.toOption

/-- The files a discovery reads, root after root. -/
def scannedFiles (e : Engine) : List String :=
  e.scanRules.flatMap (·.scanned e.disk)

/-- One root of a discovery: scanned when its patterns compile, and the documents of titles not
seen before kept. -/
def discoverStep (d : Disk) (acc : IndexSet × Discovered × List String) (r : WatchRoot) :
    IndexSet × Discovered × List String :=
  let (ix, all, seen) := acc
  match r.rules with
  | .error _ => acc
  | .ok rules =>
    let (ix, found) := scanRoot d ix rules
    let (docs, seen) := freshDocuments seen found.documents
    (ix, { documents := all.documents ++ docs, files := all.files + found.files
           failed := all.failed ++ found.failed }, seen)

theorem discover_eq (e : Engine) :
    e.discover = (e.withIndex ((e.mainWatchRoot :: e.subWatchRoots).foldl (discoverStep e.disk)
      (e.index, {}, [])).1, ((e.mainWatchRoot :: e.subWatchRoots).foldl (discoverStep e.disk)
        (e.index, {}, [])).2.1) :=
  rfl


/-- What a discovery keeps root after root: the index stays sound over the roots it had, every
document kept so far is filed, and the titles seen are those of the documents kept, each once. -/
structure Discovering (e : Engine) (acc : IndexSet × Discovered × List String) : Prop where
  /-- The index stays sound. -/
  sound : acc.1.Sound
  /-- Its roots are those it had. -/
  roots : acc.1.roots = e.index.roots
  /-- Every document kept is filed at a file the discovery reads. -/
  filed : Filed e.disk e.scannedFiles acc.1 acc.2.1.documents
  /-- The titles seen are those of the documents kept. -/
  seen : acc.2.2 = acc.2.1.documents.map Document.title
  /-- No title is seen twice. -/
  nodup : acc.2.2.Nodup

variable {e : Engine}

theorem Discovering.step {acc : IndexSet × Discovered × List String} (h : e.Discovering acc)
    (hreg : ∀ rules ∈ e.scanRules, e.index.isRegistered rules.root = true)
    (happ : FilesApart e.disk e.scannedFiles) {r : WatchRoot}
    (hr : r ∈ e.mainWatchRoot :: e.subWatchRoots) : e.Discovering (discoverStep e.disk acc r) := by
  obtain ⟨ix, all, seen⟩ := acc
  unfold discoverStep
  dsimp only
  split
  · exact h
  · rename_i rules hrules
    have hmem : rules ∈ e.scanRules := List.mem_filterMap.mpr ⟨r, hr, by rw [hrules]; rfl⟩
    have hreg' : ix.isRegistered rules.root = true := by
      rw [IndexSet.isRegistered_eq_any_roots, h.roots, ← IndexSet.isRegistered_eq_any_roots]
      exact hreg rules hmem
    obtain ⟨hs', hroots', hfiled'⟩ := Filed.after_scanRoot h.sound hreg' happ
      (fun g hg => List.mem_flatMap.mpr ⟨rules, hmem, hg⟩) h.filed
    obtain ⟨hsub, hseen, hnd⟩ :=
      freshDocuments_spec seen (scanRoot e.disk ix rules).2.documents h.nodup
    refine ⟨hs', hroots'.trans h.roots, hfiled'.mono fun doc hdoc => ?_, ?_, hnd⟩
    · rcases List.mem_append.mp hdoc with hold | hnew
      · exact List.mem_append_left _ hold
      · exact List.mem_append_right _ (hsub doc hnew)
    · have hseen₀ : seen = all.documents.map Document.title := h.seen
      dsimp only
      rw [hseen, hseen₀, List.map_append]

/-- A discovery keeps its invariant over all its roots. -/
theorem Discovering.foldl (hreg : ∀ rules ∈ e.scanRules, e.index.isRegistered rules.root = true)
    (happ : FilesApart e.disk e.scannedFiles) :
    ∀ (roots : List WatchRoot), (∀ r ∈ roots, r ∈ e.mainWatchRoot :: e.subWatchRoots) →
      ∀ {acc : IndexSet × Discovered × List String}, e.Discovering acc →
        e.Discovering (roots.foldl (discoverStep e.disk) acc)
  | [], _, _, h => h
  | r :: roots, hroots, _, h =>
    Discovering.foldl hreg happ roots (fun r' hr' => hroots r' (List.mem_cons_of_mem r hr'))
      (h.step hreg happ (hroots r List.mem_cons_self))

/-- Discovery reports each title once; and when the roots it scans are registered in a sound
index, and the files it reads name different places and share no title, every document it
reports was read from one of those files, where the index then tracks its title, as the title of
the file's record or a title bundled there. -/
theorem discover_reports_tracked (hs : e.index.Sound)
    (hreg : ∀ rules ∈ e.scanRules, e.index.isRegistered rules.root = true)
    (happ : FilesApart e.disk e.scannedFiles) :
    (e.discover.2.documents.map Document.title).Nodup ∧
      ∀ doc ∈ e.discover.2.documents, ∃ f ∈ e.scannedFiles, ∃ F, readDocuments e.disk f = .ok F ∧
        doc ∈ F.filterMap Document.ofFields? ∧
        ((e.discover.1.index.recordAt? f).map (·.title) = some doc.title ∨
          doc.title ∈ e.discover.1.index.bundledAt f) := by
  have hstart : e.Discovering (e.index, {}, []) :=
    ⟨hs, rfl, (fun _ h => by cases h), rfl, List.nodup_nil⟩
  obtain ⟨-, -, hfiled, hseen, hnd⟩ := Discovering.foldl hreg happ _ (fun _ h => h) hstart
  rw [discover_eq]
  refine ⟨hseen ▸ hnd, fun doc hdoc => ?_⟩
  obtain ⟨f, hf, F, hF, hdocF, hat⟩ := hfiled doc hdoc
  exact ⟨f, hf, F, hF, hdocF, hat.tracks hdocF⟩

/-! ## A workspace of two roots -/

/-- A workspace whose main root `/w` holds one note and whose other root `/v` holds a bundle of
two documents. -/
def twoRootDisk : Disk :=
  ⟨[(["w"], .dir), (["w", "a.tid"], .file "title: A\n\nx".toUTF8.toList 0), (["v"], .dir),
    (["v", "b.json"], .file "[\x7b\"title\": \"B\"\x7d, \x7b\"title\": \"C\"\x7d]".toUTF8.toList 0)],
    0⟩

/-- An engine over that workspace, with one watched route under `/v`, and both roots registered
in its index. -/
def twoRootEngine : Engine :=
  { (default : Engine) with
    mainRoot := "/w"
    adaptor := { (default : Adaptor) with
      router := { defaultRoot := "/w", routes := [Route.ofConfig { id := "v", root := "/v" }] }
      store := { (default : FileStore) with disk := twoRootDisk } }
    watcher := { (default : Watcher) with
      pipeline := { (default : Pipeline) with
        index := ((IndexSet.withRoot "/w").registerRoot "/v").1 } } }

theorem same_v_w : Path.same "/v" "/w" = false := by
  with_unfolding_all decide

theorem same_w_v : Path.same "/w" "/v" = false := by
  with_unfolding_all decide

theorem ofText_v_root : Pathname.ofText "/v" = ⟨true, [.name "v"], false⟩ := by
  have hend : "/v".endsWith "/" = false := by with_unfolding_all decide
  have hstart : "/v".startsWith "/" = true := by with_unfolding_all decide
  simp +decide [Pathname.ofText, hend, hstart]

theorem walkTree_twoRootDisk_w (follow : Bool) (keep : String → Bool) :
    twoRootDisk.walkTree "/w" follow keep =
      ⟨"/w", false⟩ :: (if keep "/w/a.tid" then [⟨"/w/a.tid", true⟩] else []) := by
  have hstat : twoRootDisk.stat "/w" = .ok (["w"], .dir) := by
    simp only [Disk.stat, Disk.reach, Disk.locate, ofText_wiki_root]
    rfl
  have hent : twoRootDisk.entries ["w"] = [("a.tid", .file "title: A\n\nx".toUTF8.toList 0)] := by
    simp [Disk.entries, twoRootDisk]
  have hjoin : Path.join "/w" "a.tid" = "/w/a.tid" := by with_unfolding_all decide
  rw [Disk.walkTree_single_file hstat hent, hjoin]

theorem walkTree_twoRootDisk_v (follow : Bool) (keep : String → Bool) :
    twoRootDisk.walkTree "/v" follow keep =
      ⟨"/v", false⟩ :: (if keep "/v/b.json" then [⟨"/v/b.json", true⟩] else []) := by
  have hstat : twoRootDisk.stat "/v" = .ok (["v"], .dir) := by
    simp only [Disk.stat, Disk.reach, Disk.locate, ofText_v_root]
    rfl
  have hent : twoRootDisk.entries ["v"] =
      [("b.json", .file "[\x7b\"title\": \"B\"\x7d, \x7b\"title\": \"C\"\x7d]".toUTF8.toList 0)] := by
    simp [Disk.entries, twoRootDisk]
  have hjoin : Path.join "/v" "b.json" = "/v/b.json" := by with_unfolding_all decide
  rw [Disk.walkTree_single_file hstat hent, hjoin]

theorem subWatchRoots_twoRootEngine : twoRootEngine.subWatchRoots =
    [⟨"/v", twoRootEngine.settings.ignorePatternsFor "/w" "/v", false⟩] := by
  simp [subWatchRoots, firstPerRoot, twoRootEngine, router, Route.ofConfig, same_v_w]

/-- The files a discovery of the two-root workspace can read are the note and the bundle. -/
theorem scannedFiles_twoRootEngine :
    ∀ f ∈ twoRootEngine.scannedFiles, f = "/w/a.tid" ∨ f = "/v/b.json" := by
  intro f hf
  obtain ⟨rules, hrules, hf⟩ := List.mem_flatMap.mp hf
  obtain ⟨r, hr, hok⟩ := List.mem_filterMap.mp hrules
  rw [RootRules.scanned, WatchRoot.root_of_rules (Except.eq_ok_of_toOption hok),
    show twoRootEngine.disk = twoRootDisk from rfl] at hf
  obtain ⟨x, hx, rfl⟩ := List.mem_map.mp hf
  obtain ⟨hx, hfile⟩ := List.mem_filter.mp hx
  rw [subWatchRoots_twoRootEngine] at hr
  rcases List.mem_cons.mp hr with rfl | hr
  · rw [show twoRootEngine.mainWatchRoot.root = "/w" from rfl, walkTree_twoRootDisk_w] at hx
    rcases List.mem_cons.mp hx with rfl | hx
    · cases hfile
    · split at hx
      · exact .inl (by rw [List.mem_singleton.mp hx])
      · cases hx
  · rw [List.mem_singleton.mp hr, walkTree_twoRootDisk_v] at hx
    rcases List.mem_cons.mp hx with rfl | hx
    · cases hfile
    · split at hx
      · exact .inr (by rw [List.mem_singleton.mp hx])
      · cases hx

theorem filedTitles_note : (filedTitles <$> readDocuments twoRootDisk "/w/a.tid").toOption =
    some ["A"] := by
  with_unfolding_all decide

theorem filedTitles_bundle : (filedTitles <$> readDocuments twoRootDisk "/v/b.json").toOption =
    some ["B", "C"] := by
  with_unfolding_all decide

theorem same_note_bundle : Path.same "/w/a.tid" "/v/b.json" = false := by
  with_unfolding_all decide

/-- The note and the bundle name different places and share no title. -/
theorem note_bundle_apart {F G : List Fields} (hF : readDocuments twoRootDisk "/w/a.tid" = .ok F)
    (hG : readDocuments twoRootDisk "/v/b.json" = .ok G) :
    ¬(Path.components "/w/a.tid" = Path.components "/v/b.json" ∨
      ∃ t ∈ filedTitles F, t ∈ filedTitles G) := by
  have hFt : filedTitles F = ["A"] := by
    simpa [hF, Except.toOption, Functor.map, Except.map] using filedTitles_note
  have hGt : filedTitles G = ["B", "C"] := by
    simpa [hG, Except.toOption, Functor.map, Except.map] using filedTitles_bundle
  have hsame := same_note_bundle
  rw [Path.same_eq, decide_eq_false_iff_not] at hsame
  rintro (hc | ⟨t, ht, ht'⟩)
  · exact hsame hc
  · rw [hFt, List.mem_singleton] at ht
    rw [hGt, ht] at ht'
    simp at ht'

theorem filesApart_twoRootEngine : FilesApart twoRootEngine.disk twoRootEngine.scannedFiles := by
  intro f hf g hg F G hF hG happ
  rcases scannedFiles_twoRootEngine f hf with rfl | rfl <;>
    rcases scannedFiles_twoRootEngine g hg with rfl | rfl
  · rfl
  · exact absurd happ (note_bundle_apart hF hG)
  · refine absurd ?_ (note_bundle_apart hG hF)
    rcases happ with hc | ⟨t, ht, ht'⟩
    · exact .inl hc.symm
    · exact .inr ⟨t, ht', ht⟩
  · rfl

/-- In the two-root workspace, discovery reports each title once, and every document it reports,
the two bundled ones included, is tracked at the file it was read from. -/
theorem discover_two_roots_tracked :
    (twoRootEngine.discover.2.documents.map Document.title).Nodup ∧
      ∀ doc ∈ twoRootEngine.discover.2.documents, ∃ f ∈ twoRootEngine.scannedFiles, ∃ F,
        readDocuments twoRootEngine.disk f = .ok F ∧ doc ∈ F.filterMap Document.ofFields? ∧
        ((twoRootEngine.discover.1.index.recordAt? f).map (·.title) = some doc.title ∨
          doc.title ∈ twoRootEngine.discover.1.index.bundledAt f) := by
  have hs : twoRootEngine.index.Sound :=
    (IndexSet.sound_empty.registerRoot "/w").registerRoot "/v"
  have hidx : twoRootEngine.index = ⟨[FileIndex.new "/w", FileIndex.new "/v"]⟩ := by
    simp [twoRootEngine, Engine.index, IndexSet.registerRoot, IndexSet.isRegistered,
      IndexSet.withRoot, FileIndex.new, same_w_v]
  have hreg : ∀ rules ∈ twoRootEngine.scanRules,
      twoRootEngine.index.isRegistered rules.root = true := by
    intro rules hrules
    obtain ⟨r, hr, hok⟩ := List.mem_filterMap.mp hrules
    rw [WatchRoot.root_of_rules (Except.eq_ok_of_toOption hok), hidx]
    rw [subWatchRoots_twoRootEngine] at hr
    rcases List.mem_cons.mp hr with rfl | hr
    · simp [IndexSet.isRegistered, FileIndex.new, Path.same_eq, Engine.mainWatchRoot,
        Settings.mainWatchRoot, twoRootEngine]
    · rw [List.mem_singleton.mp hr]
      simp [IndexSet.isRegistered, FileIndex.new, Path.same_eq]
  exact discover_reports_tracked hs hreg filesApart_twoRootEngine

end Engine

end WikiSync

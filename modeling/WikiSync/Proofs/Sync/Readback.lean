import WikiSync.Proofs.Sync.SavedFile
import WikiSync.Proofs.Watch.Upsert

/-!
# Reading back what was saved

A modified event about a file whose one document the disk holds, and which the index tracks under
the record that document gives, leaves the record and queues the title as a change to the file
(`Pipeline.modified_reads_back`). With what a save leaves (`Adaptor.SavedFile`), an outside touch
of a saved file or of its sidecar reads the document back as the save wrote it: no other title,
content type or path comes of it (`Adaptor.saved_file_reads_back`). The queued change carries the
document's fields only when the pipeline keeps fields.
-/

namespace WikiSync

namespace Pipeline

/-- An event path is accepted as its document file when a watched root holds the file, its rules
ignore neither path, and neither path is excluded. -/
theorem accept_snd_of_watched {p : Pipeline} {d : Disk} {ev doc : String} {now : Nat}
    {r : RootRules} (hdoc : (primaryForSidecar ev).getD ev = doc) (hr : p.rulesFor doc = some r)
    (hign : ignores r d ev = some false) (hign' : ignores r d doc = some false)
    (hx : p.exclusions.excludedAt ev now = false) (hx' : p.exclusions.excludedAt doc now = false) :
    (p.accept d ev now).2 = some doc := by
  subst hdoc
  rcases h₁ : p.exclusions.isExcluded ev now with ⟨x₁, b₁⟩
  have hb₁ : b₁ = false := by
    have hsnd := Exclusions.isExcluded_snd p.exclusions ev now
    rw [h₁] at hsnd
    exact hsnd.trans hx
  rcases h₂ : x₁.isExcluded ((primaryForSidecar ev).getD ev) now with ⟨x₂, b₂⟩
  have hb₂ : b₂ = false := by
    have hsnd := Exclusions.isExcluded_snd x₁ ((primaryForSidecar ev).getD ev) now
    have hkeep := Exclusions.excludedAt_isExcluded p.exclusions ev
      ((primaryForSidecar ev).getD ev) now
    rw [h₂] at hsnd
    rw [h₁] at hkeep
    exact hsnd.trans (hkeep.trans hx')
  unfold accept
  simp only [hr, ignoresEither, hign, hign', h₁, hb₁, h₂, hb₂]
  rfl

/-- Recording the one document of a file whose path held that document's title, or nothing,
with no title bundled, queues no deletion. -/
theorem recordDocuments_single_isDeleted (p : Pipeline) (d : Disk) (hs : p.index.Sound)
    {doc : String} (first : Fields)
    (hheld : ∀ old, p.index.recordAt? doc = some old → old.title = titleOf first)
    (hbun : p.index.bundledAt doc = []) {u : String}
    (h : (p.recordDocuments d doc [first]).1.queue.isDeleted u = true) :
    p.queue.isDeleted u = true := by
  unfold recordDocuments at h
  dsimp only at h
  split at h
  · exact h
  split at h
  · exact h
  rename_i s' dsp hins
  have hdsp : dsp = none := by
    rw [hs.insert_snd hins]
    dsimp only [FileRecord.discovered]
    cases hr : p.index.recordAt? doc with
    | none => rfl
    | some old =>
      have hold := hheld old hr
      simp [hold, titleOf]
  subst hdsp
  rw [hbun] at h
  simp only [List.filter_nil, List.foldl_nil, List.map_cons, List.map_nil, List.zip_cons_cons,
    List.zip_nil_right, List.foldl_cons] at h
  by_cases hu : u = titleOf first
  · subst hu
    rw [(ChangeQueue.queueModification_modified p.queue _ _ _ (.inl rfl)).2] at h
    cases h
  · rwa [(ChangeQueue.queueModification_of_ne p.queue hu _).2] at h

/-- A batch of one modified event, accepted as an event of a file that reads as one document
whose title the path held, or nothing, with no title bundled, queues no deletion. -/
theorem handleBatch_single_isDeleted {p : Pipeline} {d : Disk} {ev path : String} {now : Nat}
    {first : Fields} (hs : p.index.Sound) (hacc : (p.accept d ev now).2 = some path)
    (hread : p.readFile d path = some [first])
    (hheld : ∀ old, p.index.recordAt? path = some old → old.title = titleOf first)
    (hbun : p.index.bundledAt path = []) {u : String}
    (h : (p.handleBatch d [.modified ev] now).queue.isDeleted u = true) :
    p.queue.isDeleted u = true := by
  rw [handleBatch_single (.inr rfl)] at h
  obtain ⟨x, hup⟩ := upsert_of_accept hacc
  rw [hread] at hup
  dsimp only at hup
  rw [hup] at h
  set p' : Pipeline :=
    { p with exclusions := x, pendingDeletes := (p.pendingDeletes.remove path).1 }
  obtain ⟨sync, vcs, harm⟩ := arm_eq (p'.recordDocuments d path [first]).1
    (touch [] (p'.recordDocuments d path [first]).2) now
  rw [harm] at h
  exact recordDocuments_single_isDeleted p' d hs first hheld hbun h

/-- A modified event about a file whose one document the disk holds, and which the index tracks
under the record the file gives when read, changes nothing the index says about it: the record
stays, the title waits as a change to that file, and no title waits for deletion that did not
wait before. -/
theorem modified_reads_back {p : Pipeline} {d : Disk} {fs : Fields} {r : FileRecord}
    {root : String} (hs : p.index.Sound) (hholds : d.HoldsDocuments r.absolutePath [fs])
    (hat : p.index.recordAt? r.absolutePath = some r)
    (hbun : p.index.bundledAt r.absolutePath = [])
    (hsplit : p.index.split r.absolutePath = .ok (root, r.relativePath))
    (hrecord : { FileRecord.discovered r.absolutePath fs
      (d.isFile (sidecarPath r.absolutePath)) with relativePath := r.relativePath } = r)
    {rules : RootRules} (hrules : p.rulesFor r.absolutePath = some rules) {ev : String}
    (hdoc : (primaryForSidecar ev).getD ev = r.absolutePath)
    (hign : ignores rules d ev = some false) (hign' : ignores rules d r.absolutePath = some false)
    {now : Nat} (hx : p.exclusions.excludedAt ev now = false)
    (hx' : p.exclusions.excludedAt r.absolutePath now = false) :
    (p.handleBatch d [.modified ev] now).index.recordForTitle? (titleOf fs) = some r ∧
      (p.handleBatch d [.modified ev] now).queue.pending (titleOf fs) =
        some ⟨r.absolutePath, r.relativePath, .change,
          if p.cacheFields then some fs else none⟩ ∧
      ∀ u, (p.handleBatch d [.modified ev] now).queue.isDeleted u = true →
        p.queue.isDeleted u = true := by
  have hacc := accept_snd_of_watched hdoc hrules hign hign' hx hx'
  have hroot : ∃ root ∈ p.index.roots, Path.startsWith r.absolutePath root = true := by
    rcases IndexSet.split_cases p.index r.absolutePath with ⟨root, rel, ho, -⟩ | ⟨-, herr⟩
    · obtain ⟨hmem, hstart, -⟩ := IndexSet.owns_of_owningRoot? ho
      exact ⟨root, hmem, hstart⟩
    · rw [hsplit] at herr
      cases herr
  have hread := readFile_of_holds hrules hholds
  obtain ⟨root', rel, hsplit', hrec, -⟩ := handleBatch_read p d now (.inr rfl) hs hacc hroot hread
  obtain rfl : rel = r.relativePath := by
    rw [hsplit] at hsplit'
    cases hsplit'
    rfl
  refine ⟨?_, ?_, fun u hu => ?_⟩
  · rw [hrec.found, hrec.recorded, hrecord]
  · obtain ⟨fs', hfs', -, hpend⟩ := hrec.loads fs (List.mem_singleton_self _)
    rw [List.mem_singleton.mp hfs', hat] at hpend
    rw [hpend, ← hrecord]
    rfl
  · refine handleBatch_single_isDeleted hs hacc hread (fun old hold => ?_) hbun hu
    rw [hat] at hold
    cases hold
    rw [← hrecord]
    rfl

end Pipeline

namespace Adaptor

/-- A document saved and then touched on disk reads back as it was saved: a modified event for
its file or its sidecar, admitted by the pipeline, leaves the record the save answered, queues
the title as a change to that file (with its fields when the pipeline keeps them), and queues no
deletion. -/
theorem saved_file_reads_back {a a₁ : Adaptor} {d : Document} {r : FileRecord}
    (hs : a.index.Sound) (hremovals : a.store.failingRemovals = none)
    (hnl : a.store.disk.NoLinks) (hrooted : a.store.disk.Rooted) (htitle : d.title ≠ "")
    (hheader : (encode d).extension = "tid" ∨ (encode d).sidecar.isSome →
      ∀ p ∈ d.fields.toList, p.1 ≠ textField → Codec.HeaderSafe p)
    (hbody : (encode d).extension = "tid" →
      ∀ t, d.field? textField = some t → t ≠ "" ∧ ¬ ['\r', '\n'] <:+: t.toList)
    (htext : (encode d).sidecar.isSome → d.fields.contains textField = true)
    (hold : ∀ c, a.index.recordForTitle? d.title = some c →
      ∃ P : Place, P.Plain ∧ c.absolutePath = P.text)
    (hsave : a.save d = (a₁, .ok r))
    {D : Place} {n : String} (hplain : (D ++ [n]).Plain)
    (hpath : r.absolutePath = (D ++ [n]).text)
    (hside : a.store.disk.isFile (sidecarPath r.absolutePath) = true →
      ∃ c, a.index.recordForTitle? d.title = some c ∧ sidecarPath r.absolutePath ∈ c.backingFiles)
    (p : Pipeline) (hpi : p.index = a₁.index) {rules : RootRules}
    (hrules : p.rulesFor r.absolutePath = some rules) {ev : String}
    (hev : ev = r.absolutePath ∨ ev = sidecarPath r.absolutePath)
    (hign : Pipeline.ignores rules a₁.store.disk ev = some false)
    (hign' : Pipeline.ignores rules a₁.store.disk r.absolutePath = some false) {now : Nat}
    (hx : p.exclusions.excludedAt ev now = false)
    (hx' : p.exclusions.excludedAt r.absolutePath now = false) :
    (p.handleBatch a₁.store.disk [.modified ev] now).index.recordForTitle? d.title = some r ∧
      (p.handleBatch a₁.store.disk [.modified ev] now).queue.pending d.title =
        some ⟨r.absolutePath, r.relativePath, .change,
          if p.cacheFields then some d.fields else none⟩ ∧
      ∀ u, (p.handleBatch a₁.store.disk [.modified ev] now).queue.isDeleted u = true →
        p.queue.isDeleted u = true := by
  have hfile := save_leaves_file hs hremovals hnl hrooted htitle hheader hbody
    htext hold hsave hplain hpath hside
  obtain ⟨root, hsplit⟩ := hfile.split
  have hdoc : (primaryForSidecar ev).getD ev = r.absolutePath := by
    rcases hev with rfl | rfl
    · rw [hfile.own_file]
      rfl
    · rw [hfile.sidecar_back]
      rfl
  rw [← hpi] at hsplit
  exact Pipeline.modified_reads_back (hpi ▸ hfile.sound) hfile.holds (hpi ▸ hfile.recorded)
    (hpi ▸ hfile.unbundled) hsplit hfile.rebuilt hrules hdoc hign hign' hx hx'

end Adaptor

/-- The fresh wiki after it saved the document `a/b`. -/
def slashedWiki : Adaptor := (freshWiki.save (Document.new "a/b")).1

/-- The text wiki's pipeline over the index the save of `a/b` left. -/
def slashedWatch : Pipeline := { Pipeline.textWiki with index := slashedWiki.index }

/-- The same pipeline, keeping no fields in its queue. -/
def uncachedWatch : Pipeline := { slashedWatch with cacheFields := false }

theorem slashedPlace_plain : Place.Plain (["w"] ++ ["a_b.tid"]) := by
  refine ⟨by simp, fun m hm => ?_⟩
  simp only [List.cons_append, List.nil_append, List.mem_cons, List.not_mem_nil, or_false] at hm
  rcases hm with rfl | rfl <;> exact ⟨by decide, by decide, by decide, by decide⟩

theorem slashedRecord_text : slashedRecord.absolutePath = Place.text (["w"] ++ ["a_b.tid"]) := by
  decide

theorem freshWiki_noLinks : freshWiki.store.disk.NoLinks := by
  intro pl t
  simp only [freshWiki, Disk.lookup]
  split <;> simp

theorem freshWiki_rooted : freshWiki.store.disk.Rooted := by
  intro pl x hl
  simp only [freshWiki, Disk.lookup] at hl ⊢
  split at hl
  · simp_all
  · obtain ⟨rfl, -⟩ : ["w"] = pl ∧ Node.dir = x := by simpa using hl
    rfl

/-- The fresh wiki holds no sidecar beside `/w/a_b.tid`. -/
theorem freshWiki_no_slashed_sidecar :
    freshWiki.store.disk.isFile (sidecarPath slashedRecord.absolutePath) = false := by
  rw [Bool.eq_false_iff]
  intro h
  rw [slashedRecord_text, Place.sidecarPath_text] at h
  obtain ⟨-, -, bs, t, hl⟩ :=
    (Disk.isFile_text_iff freshWiki_noLinks slashedPlace_plain.sidecar).mp h
  simp [freshWiki, Disk.lookup] at hl

/-- `a/b` has no text, so its header file has no body to keep on one line. -/
theorem newSlashed_body : (encode (Document.new "a/b")).extension = "tid" → ∀ t,
    (Document.new "a/b").field? textField = some t → t ≠ "" ∧ ¬ ['\r', '\n'] <:+: t.toList := by
  intro _ t ht
  have hnone : (Document.new "a/b").field? textField = none := by decide
  rw [hnone] at ht
  cases ht

theorem newSlashed_text : (encode (Document.new "a/b")).sidecar.isSome →
    (Document.new "a/b").fields.contains textField = true := by
  rw [encode_new_slashed]
  intro h
  cases h

/-- A pipeline with the text wiki's rules and exclusions admits `/w/a_b.tid` over any disk and at
any time. -/
theorem slashed_admitted {p : Pipeline} (hrules : p.rules = Pipeline.textWiki.rules)
    (hex : p.exclusions = Pipeline.textWiki.exclusions) (disk : Disk) (now : Nat) :
    p.Admits disk slashedRecord.absolutePath now := by
  have hmeta : (Path.splitName "a_b.tid").2 ≠ some "meta" := by decide
  have hside : primaryForSidecar slashedRecord.absolutePath = none := by
    rw [slashedRecord_text]
    exact Place.primaryForSidecar_text slashedPlace_plain hmeta
  have hbegins : Path.startsWith slashedRecord.absolutePath "/w" = true := by
    rw [slashedRecord_text, Path.startsWith, Place.components_text slashedPlace_plain,
      Pipeline.components_w]
    decide
  exact Pipeline.textWiki_admits hrules disk hside hbegins
    (hex ▸ Pipeline.textWiki_excludes_nothing _ _)

/-- Saved by the fresh wiki, `a/b` is read back from its file as the record the save
returned, and queued as a change to it. -/
theorem slashed_save_reads_back :
    (slashedWatch.handleBatch slashedWiki.store.disk [.modified "/w/a_b.tid"] 0).index.recordForTitle?
        "a/b" = some slashedRecord ∧
      (slashedWatch.handleBatch slashedWiki.store.disk [.modified "/w/a_b.tid"] 0).queue.pending
        "a/b" = some ⟨"/w/a_b.tid", "a_b.tid", .change, some (Document.new "a/b").fields⟩ ∧
      ∀ u, (slashedWatch.handleBatch slashedWiki.store.disk [.modified "/w/a_b.tid"]
        0).queue.isDeleted u = true → slashedWatch.queue.isDeleted u = true := by
  have hsame : slashedWatch.rules = Pipeline.textWiki.rules := rfl
  obtain ⟨-, ⟨rules, hrules, hign⟩, hx⟩ := slashed_admitted hsame rfl slashedWiki.store.disk 0
  exact Adaptor.saved_file_reads_back (IndexSet.sound_empty.registerRoot "/w") rfl
    freshWiki_noLinks freshWiki_rooted (by decide) (fun _ => by decide)
    newSlashed_body newSlashed_text (fun c hc => by cases hc) save_slashed slashedPlace_plain
    slashedRecord_text (by rw [freshWiki_no_slashed_sidecar]; intro h; cases h) slashedWatch rfl
    hrules (Or.inl rfl) hign hign hx hx

/-- With fields not kept, the change queued when `a/b` is read back carries no fields: a later
load reads the file as it is then. -/
theorem slashed_save_reads_back_uncached :
    (uncachedWatch.handleBatch slashedWiki.store.disk [.modified "/w/a_b.tid"] 0).queue.pending
      "a/b" = some ⟨"/w/a_b.tid", "a_b.tid", .change, none⟩ := by
  have hfile := Adaptor.save_leaves_file (IndexSet.sound_empty.registerRoot "/w") rfl
    freshWiki_noLinks freshWiki_rooted (by decide) (fun _ => by decide)
    newSlashed_body newSlashed_text (fun c hc => by cases hc) save_slashed slashedPlace_plain
    slashedRecord_text (by rw [freshWiki_no_slashed_sidecar]; intro h; cases h)
  obtain ⟨root, hsplit⟩ := hfile.split
  have hsame : uncachedWatch.rules = Pipeline.textWiki.rules := rfl
  obtain ⟨hown, ⟨rules, hrules, hign⟩, hx⟩ := slashed_admitted hsame rfl slashedWiki.store.disk 0
  exact (Pipeline.modified_reads_back hfile.sound hfile.holds hfile.recorded hfile.unbundled hsplit
    hfile.rebuilt hrules (by rw [hown]; rfl) hign hign hx hx).2.1

end WikiSync

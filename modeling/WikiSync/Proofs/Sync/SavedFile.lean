import WikiSync.Proofs.Disk.Write
import WikiSync.Proofs.Sync.Failure
import WikiSync.Proofs.Document.Roundtrip
import WikiSync.Proofs.Watch.Move

/-!
# The file a save leaves

A save plans, writes and commits. When it answers a record, the disk it leaves holds, at the
record's path, the bytes of the document's encoding, beside them the sidecar when the encoding has
one and no sidecar otherwise, and none of the old record's files that the save did not write
again. Read back, the file gives exactly the document's fields, and the record the read side
builds from them, placed under its root, is the record the save answered
(`Adaptor.save_leaves_file`).

This needs a disk that is a tree without links, removals that all succeed, at least one attempt
to write, a plain target path, old files at plain paths, and a document that the codec reads
back.
-/

namespace WikiSync

namespace FileStore

/-- A write leaves the removals that are to fail as they were. -/
theorem write_failingRemovals (s : FileStore) (p contents : String) :
    (s.write p contents).1.failingRemovals = s.failingRemovals := by
  unfold write
  generalize hs : (if s.counted then { s with writes := s.writes + 1 } else s) = s₁
  have hfail : s₁.failingRemovals = s.failingRemovals := by
    subst hs
    split <;> rfl
  rw [← hfail]
  dsimp only
  split
  · rfl
  · split <;> rfl

/-- With no removal set to fail, a removal does to the disk what removing the file does, when
that succeeds. -/
theorem remove_disk {s : FileStore} (h : s.failingRemovals = none) (p : String) :
    (s.remove p).1.disk = s.disk.removeStep p ∧ (s.remove p).1.failingRemovals = none := by
  unfold remove Disk.removeStep
  generalize hs : (if s.counted then { s with removes := s.removes + 1 } else s) = s₁
  have hdisk : s₁.disk = s.disk ∧ s₁.failingRemovals = s.failingRemovals := by
    subst hs
    split <;> exact ⟨rfl, rfl⟩
  rw [← hdisk.1]
  dsimp only
  rw [hdisk.2, h]
  dsimp only
  cases s₁.disk.removeFile p with
  | ok d' => exact ⟨rfl, rfl⟩
  | error e => exact ⟨rfl, hdisk.2.trans h⟩

end FileStore

/-- The old backing files a save removes once its writes succeed: those of the record its plan
saw that it does not write again. -/
def SavePlan.stale (pl : SavePlan) : List String :=
  match pl.current with
  | some old => old.backingFiles.filter fun p => !pl.written.any (Path.same · p)
  | none => []

namespace Adaptor

open FileStore

/-- The retry loop succeeds only through a write that succeeded: failed attempts leave the disk
and the removals that are to fail alone. -/
theorem writeWithRetry_go_ok (title path contents : String) (s : FileStore) (attempt retries : Nat)
    {k : Nat} (hok : (writeWithRetry.go title path contents s attempt retries).2 = .ok k) :
    writeNow s.disk path contents = .ok (writeWithRetry.go title path contents s attempt retries).1.disk ∧
      (writeWithRetry.go title path contents s attempt retries).1.failingRemovals =
        s.failingRemovals := by
  fun_induction writeWithRetry.go title path contents s attempt retries with
  | case1 _ s _ _ hw =>
    have hfail := write_failingRemovals s path contents
    rw [hw] at hfail
    exact ⟨write_ok_disk hw, hfail⟩
  | case2 s _ _ _ _ _ hw ih =>
    have hfail := write_failingRemovals s path contents
    rw [hw] at hfail
    obtain ⟨hnow, hrem⟩ := ih hok
    exact ⟨write_error_disk hw ▸ hnow, hrem.trans hfail⟩
  | case3 => cases hok
  | case4 => cases hok

/-- A write with retries succeeds only by writing the file; the removals that are to fail stay
as they were. -/
theorem writeWithRetry_ok {a : Adaptor} {title path contents : String} {k : Nat}
    (h : (a.writeWithRetry title path contents).2 = .ok k) :
    writeNow a.store.disk path contents = .ok (a.writeWithRetry title path contents).1.store.disk ∧
      (a.writeWithRetry title path contents).1.store.failingRemovals = a.store.failingRemovals :=
  writeWithRetry_go_ok title path contents a.store 0 (a.retry.maxAttempts - 1) h

/-- Writing a document's files succeeds only by writing the primary file and then, when there is
one, the sidecar; the removals that are to fail stay as they were. -/
theorem writeAll_ok {a : Adaptor} {title target : String} {enc : Encoded}
    (h : (a.writeAll title target enc).2 = .ok ()) :
    ∃ d₁, writeNow a.store.disk target enc.content = .ok d₁ ∧
      (enc.sidecar = none → (a.writeAll title target enc).1.store.disk = d₁) ∧
      (∀ note, enc.sidecar = some note →
        writeNow d₁ (sidecarPath target) note = .ok (a.writeAll title target enc).1.store.disk) ∧
      (a.writeAll title target enc).1.store.failingRemovals = a.store.failingRemovals := by
  unfold writeAll at h ⊢
  rcases hw : a.writeWithRetry title target enc.content with ⟨a₁, _ | k⟩
  · rw [hw] at h
    cases h
  obtain ⟨hnow, hrem⟩ := writeWithRetry_ok
    (by rw [hw] : (a.writeWithRetry title target enc.content).2 = .ok k)
  rw [hw] at hnow hrem h
  dsimp only at h hnow hrem ⊢
  refine ⟨a₁.store.disk, hnow, ?_⟩
  cases hnote : enc.sidecar with
  | none => exact ⟨fun _ => rfl, (fun note h => by cases h), hrem⟩
  | some note =>
    rw [hnote] at h
    dsimp only at h ⊢
    rcases hw₂ : a₁.writeWithRetry title (sidecarPath target) note with ⟨a₂, _ | m⟩
    · rw [hw₂] at h
      cases h
    obtain ⟨hnow₂, hrem₂⟩ := writeWithRetry_ok
      (by rw [hw₂] : (a₁.writeWithRetry title (sidecarPath target) note).2 = .ok m)
    rw [hw₂] at hnow₂ hrem₂
    refine ⟨(fun h => by cases h), fun note' h' => ?_, hrem₂.trans hrem⟩
    cases h'
    exact hnow₂

/-- With no removal set to fail, removing stale files does to the disk what removing each file in
turn does. -/
theorem removeStale_disk {a : Adaptor} (h : a.store.failingRemovals = none) (stale : List String) :
    (a.removeStale stale).store.disk = a.store.disk.removeEach stale := by
  suffices hfold : ∀ (l : List String) (b : Adaptor), b.store.failingRemovals = none →
      (l.foldl (fun a p =>
          let a := a.exclude [p]
          { a with store := (a.store.remove p).1 }) b).store.disk = b.store.disk.removeEach l from
    hfold stale a h
  intro l
  induction l with
  | nil => intro b _; rfl
  | cons p l ih =>
    intro b hb
    obtain ⟨hdisk, hrem⟩ := remove_disk hb p
    rw [List.foldl_cons, ih _ hrem, Disk.removeEach_cons]
    exact congrArg (·.removeEach l) hdisk

/-- The disk a successful save leaves: its target written with the document's content, then the
sidecar, when the document has one, and then the stale files of the record its plan saw removed
one after another. -/
theorem save_disk {a a₁ : Adaptor} {d : Document} {r : FileRecord}
    (hrem : a.store.failingRemovals = none)
    (hsave : a.save d = (a₁, .ok r)) :
    ∃ d₁ d₂, writeNow a.store.disk (a.plan d).2.target (encode d).content = .ok d₁ ∧
      ((encode d).sidecar = none → d₂ = d₁) ∧
      (∀ note, (encode d).sidecar = some note →
        writeNow d₁ (sidecarPath (a.plan d).2.target) note = .ok d₂) ∧
      a₁.store.disk = d₂.removeEach (a.plan d).2.stale := by
  rw [save_eq_steps] at hsave
  rcases hw : (a.plan d).1.writeStep (a.plan d).2 with ⟨W, w⟩
  rw [hw] at hsave
  cases w with
  | error e =>
    unfold commit at hsave
    cases (Prod.mk.inj hsave).2
  | ok u =>
    have hwrite : ((a.plan d).1.writeAll d.title (a.plan d).2.target (encode d)).2 = .ok () :=
      congrArg Prod.snd hw
    obtain ⟨d₁, hnow, hnone, hsome, hremW⟩ := writeAll_ok hwrite
    have hW : ((a.plan d).1.writeAll d.title (a.plan d).2.target (encode d)).1 = W :=
      congrArg Prod.fst hw
    rw [hW] at hnone hsome hremW
    refine ⟨d₁, W.store.disk, hnow, hnone, hsome, ?_⟩
    obtain rfl : a₁ = (W.commit (a.plan d).2 (.ok ())).1 := (congrArg Prod.fst hsave).symm
    unfold commit SavePlan.stale
    cases (a.plan d).2.current with
    | none => rfl
    | some old => exact removeStale_disk (hremW.trans hrem) _

end Adaptor

namespace Disk

variable {D : Place} {n : String}

/-- A name is not its own sidecar's name. -/
theorem ne_append_sidecarSuffix (n : String) : n ≠ n ++ sidecarSuffix := by
  intro h
  have hlen := congrArg (·.toList.length) h
  simp [sidecarSuffix] at hlen

/-- Two places in one directory lie one within the other only when they are the same. -/
theorem eq_of_concat_isPrefix {a b : String} (h : (D ++ [a]) <+: (D ++ [b])) : a = b := by
  simpa using h.eq_of_length (by simp)

/-- What saving a file leaves on a tree without links: the text written at the plain place
`D ++ [n]`, then the sidecar note when there is one, then stale plain files removed, none of
them a place written. The file holds the text; the sidecar holds the note, or when there is no
note, no regular file sits at the sidecar's path, since any that sat there before was a stale
file. -/
theorem saved_files {d₀ d₁ d₂ : Disk} {content : String} {sidecar : Option String}
    {stale : List String} (hnl : d₀.NoLinks) (hrooted : d₀.Rooted) (hT : (D ++ [n]).Plain)
    (hw₁ : FileStore.writeNow d₀ (D ++ [n]).text content = .ok d₁)
    (hnone : sidecar = none → d₂ = d₁)
    (hsome : ∀ note, sidecar = some note →
      FileStore.writeNow d₁ (sidecarPath (D ++ [n]).text) note = .ok d₂)
    (hstale : ∀ p ∈ stale, ∃ P : Place, P.Plain ∧ p = P.text ∧ P ≠ D ++ [n] ∧
      (sidecar.isSome → P ≠ D ++ [n ++ sidecarSuffix]))
    (hside : sidecar = none → d₀.isFile (sidecarPath (D ++ [n]).text) = true →
      sidecarPath (D ++ [n]).text ∈ stale) :
    (d₂.removeEach stale).NoLinks ∧ (d₂.removeEach stale).DirsTo D ∧ (D ++ [n]).Fits ∧
      (∃ t, (d₂.removeEach stale).lookup (D ++ [n]) = some (.file (Utf8.encode content) t)) ∧
      (∀ note, sidecar = some note → (D ++ [n ++ sidecarSuffix]).Fits ∧
        ∃ t, (d₂.removeEach stale).lookup (D ++ [n ++ sidecarSuffix]) =
          some (.file (Utf8.encode note) t)) ∧
      (sidecar = none → (d₂.removeEach stale).isFile (sidecarPath (D ++ [n]).text) = false) := by
  have W₁ := writeNow_text hnl hT hw₁
  have hS : (D ++ [n ++ sidecarSuffix]).Plain := hT.sidecar
  have hTS : ¬ (D ++ [n]) <+: (D ++ [n ++ sidecarSuffix]) :=
    fun h => ne_append_sidecarSuffix n (eq_of_concat_isPrefix h)
  have hST : ¬ (D ++ [n ++ sidecarSuffix]) <+: (D ++ [n]) :=
    fun h => ne_append_sidecarSuffix n (eq_of_concat_isPrefix h).symm
  have hpsT : ∀ p ∈ stale, ∃ P : Place, P.Plain ∧ P ≠ D ++ [n] ∧ p = P.text := fun p hp => by
    obtain ⟨P, hP, rfl, hne, -⟩ := hstale p hp
    exact ⟨P, hP, hne, rfl⟩
  cases hsc : sidecar with
  | none =>
    have hd := hnone hsc
    subst d₂
    obtain ⟨hnl₃, hdirs₃, hT₃⟩ := removeEach_keeps stale hpsT W₁.noLinks W₁.dirs
    refine ⟨hnl₃, hdirs₃, W₁.fits, hT₃ ▸ W₁.file, (fun note h => by cases h), fun _ => ?_⟩
    rw [Place.sidecarPath_text, Bool.eq_false_iff]
    intro hfile
    obtain ⟨hfitS, -, bs, t, hS₃⟩ := (isFile_text_iff hnl₃ hS).mp hfile
    have hS₁ : d₁.lookup (D ++ [n ++ sidecarSuffix]) = some (.file bs t) :=
      (removeEach_sub d₁ stale).lookup hS₃
    have hS₀ : d₀.lookup (D ++ [n ++ sidecarSuffix]) = some (.file bs t) := by
      rcases W₁.adds _ _ hTS hS₁ with h | h
      · cases h
      · exact h
    have hmem := hside hsc (by
      rw [Place.sidecarPath_text]
      exact (isFile_text_iff hnl hS).mpr ⟨hfitS, hrooted.dirsTo hS₀, bs, t, hS₀⟩)
    rw [Place.sidecarPath_text] at hmem
    have hgone := removeEach_erases stale (fun p hp => by
        obtain ⟨P, hP, rfl, -⟩ := hstale p hp
        exact ⟨P, hP, rfl⟩) hmem hS hfitS W₁.noLinks W₁.dirs fun x hx => by
      rw [hS₁] at hx
      cases hx
      exact fun h => by cases h
    rw [hgone] at hS₃
    cases hS₃
  | some note =>
    have W₂ := writeNow_text W₁.noLinks hS (by rw [← Place.sidecarPath_text]; exact hsome note hsc)
    obtain ⟨t₁, hT₁⟩ := W₁.file
    have hT₂ := W₂.keeps _ _ (by simp) hST hT₁
    have hpsS : ∀ p ∈ stale, ∃ P : Place, P.Plain ∧ P ≠ D ++ [n ++ sidecarSuffix] ∧ p = P.text :=
      fun p hp => by
        obtain ⟨P, hP, rfl, -, hne⟩ := hstale p hp
        exact ⟨P, hP, hne (by rw [hsc]; rfl), rfl⟩
    obtain ⟨hnl₃, hdirs₃, hT₃⟩ := removeEach_keeps stale hpsT W₂.noLinks W₂.dirs
    obtain ⟨-, -, hS₃⟩ := removeEach_keeps stale hpsS W₂.noLinks W₂.dirs
    refine ⟨hnl₃, hdirs₃, W₁.fits, ⟨t₁, hT₃.trans hT₂⟩, fun note' h => ?_, fun h => by cases h⟩
    cases h
    exact ⟨W₂.fits, hS₃ ▸ W₂.file⟩

end Disk

open Codec

/-- A document is written with its own content type, on every layout. -/
theorem encode_contentType (d : Document) : (encode d).contentType = d.contentType := by
  unfold encode
  dsimp only
  split
  · rfl
  · split
    · rfl
    · split <;> rfl

/-- A saved document reads back as its own fields, on every layout, when it has a title, each of
its fields but the body survives a header line on the layouts with a header, a body it has on the
header layout is non-empty and free of `\r\n`, and it has a body when its body is stored raw
beside a sidecar, so that reading fills in no empty body. -/
theorem decode_saved (d : Document) (P : String) (htitle : d.title ≠ "") (hext : Path.extension? P = some (encode d).extension)
    (hheader : (encode d).extension = "tid" ∨ (encode d).sidecar.isSome →
      ∀ p ∈ d.fields.toList, p.1 ≠ textField → HeaderSafe p)
    (hbody : (encode d).extension = "tid" →
      ∀ t, d.field? textField = some t → t ≠ "" ∧ ¬ ['\r', '\n'] <:+: t.toList)
    (htext : (encode d).sidecar.isSome → d.fields.contains textField = true) :
    decode P (encode d).content (encode d).sidecar = .ok [d.fields] := by
  obtain ⟨t, ht, hne⟩ : ∃ t, d.fields.get? titleField = some t ∧ t ≠ "" := by
    unfold Document.title Document.field? at htitle
    cases h : d.fields.get? titleField with
    | none => simp [h] at htitle
    | some t => exact ⟨t, rfl, by simpa [h] using htitle⟩
  have hsafe : (encode d).extension = "tid" ∨ (encode d).sidecar.isSome →
      ∀ p ∈ headerPairs d.fields, HeaderSafe p := by
    intro hl p hp
    rw [headerPairs, List.mem_filter] at hp
    exact hheader hl p hp.1 (by simpa using hp.2)
  -- the three layouts, as `encode` picks them
  by_cases hm : multilineHeader d.fields = true
  · have he : encode d = ⟨"json", bundle d.fields, none, d.contentType⟩ := by simp [encode, hm]
    rw [he] at hext ⊢
    exact decode_bundle P d.fields hext t ht hne
  have hnl := newline_not_mem_of_multilineHeader (Bool.eq_false_iff.2 hm)
  by_cases hct : d.contentType = defaultContentType
  · have he : encode d = ⟨"tid", headerFile d.fields, none, d.contentType⟩ := by
      simp [encode, hm, hct]
    rw [he] at hext hsafe hbody ⊢
    exact decode_headerFile P d.fields hext t ht hne (hsafe (Or.inl rfl)) hnl
      (hbody rfl)
  cases hx : extensionForType d.contentType with
  | some ext =>
    have he : encode d = ⟨ext, (d.field? textField).getD "", some (header d.fields),
        d.contentType⟩ := by
      simp [encode, hm, hct, hx]
    rw [he] at hsafe htext ⊢
    dsimp only [Document.field?]
    rw [decode_raw P d.fields t ht hne (contains_type_of_contentType_ne hct)
      (hsafe (Or.inr rfl)) hnl, Fields.insertIfAbsent_of_contains _ (htext rfl)]
  | none =>
    have he : encode d = ⟨"json", bundle d.fields, none, d.contentType⟩ := by
      simp [encode, hm, hct, hx]
    rw [he] at hext ⊢
    exact decode_bundle P d.fields hext t ht hne

/-- The documents read from a file that holds `content`, at a plain place of a disk without
links, are those that `content` decodes to together with the note its sidecar holds, if any. -/
theorem readDocuments_of_file {e : Disk} {D : Place} {n : String} (hnl : e.NoLinks)
    (hT : (D ++ [n]).Plain) (hfit : (D ++ [n]).Fits) (hdirs : e.DirsTo D) {content : String}
    {sidecar : Option String} {t : Nat}
    (hfile : e.lookup (D ++ [n]) = some (.file (Utf8.encode content) t))
    (hnote : ∀ note, sidecar = some note → (D ++ [n ++ sidecarSuffix]).Fits ∧
      ∃ t, e.lookup (D ++ [n ++ sidecarSuffix]) = some (.file (Utf8.encode note) t))
    (hnone : sidecar = none → e.isFile (sidecarPath (D ++ [n]).text) = false) :
    readDocuments e (D ++ [n]).text = decode (D ++ [n]).text content sidecar := by
  unfold readDocuments
  rw [Disk.readText_text hnl hT hfit hdirs hfile]
  dsimp only
  cases sidecar with
  | none =>
    rw [hnone rfl]
    rfl
  | some note =>
    obtain ⟨hfitS, t', hS⟩ := hnote note rfl
    have hisFile : e.isFile (sidecarPath (D ++ [n]).text) = true := by
      rw [Place.sidecarPath_text]
      exact (Disk.isFile_text_iff hnl hT.sidecar).mpr ⟨hfitS, hdirs, _, _, hS⟩
    rw [hisFile, Place.sidecarPath_text, Disk.readText_text hnl hT.sidecar hfitS hdirs hS]
    rfl

namespace Router

/-- Every path the router gives a document has the extension asked for: a current file is kept
only when it has it, a remembered path is reused only when it has it, and a generated one is
made with it. -/
theorem targetPath_hasExtension (r : Router) (d : Document) (cur : Option FileRecord)
    {ext : String} (taken : String → Bool) (bound : Nat) (hext : ext.toList ≠ [])
    (he : '/' ∉ ext.toList) (hdot : '.' ∉ ext.toList) :
    hasExtension (r.targetPath d cur ext taken bound).2 ext = true := by
  have hgen := (FileName.generate_fits (r.resolve d).rootDirectory d.title taken bound hext he
    hdot).2
  unfold targetPath
  dsimp only
  split
  · rename_i p hkeep
    cases cur with
    | none => cases hkeep
    | some c₀ =>
      simp only [Option.ite_none_right_eq_some, Option.some.injEq] at hkeep
      obtain ⟨htest, rfl⟩ := hkeep
      simp only [Bool.and_eq_true] at htest
      exact htest.2
  · split
    · split
      · rename_i hfits
        simp only [Bool.and_eq_true, Bool.not_eq_true'] at hfits
        exact hfits.1.2
      · exact hgen
    · exact hgen

end Router

namespace Adaptor

/-- A save's target has the extension the document is written with. -/
theorem plan_target_extension (a : Adaptor) (d : Document) :
    Path.extension? (a.plan d).2.target = some (encode d).extension := by
  obtain ⟨hne, hdot, hslash⟩ := encode_extension_plain d
  have h := Router.targetPath_hasExtension a.router d (a.index.recordForTitle? d.title)
    (a.isTaken d.title (a.index.recordForTitle? d.title))
    (a.store.disk.nodes.length + a.index.len + 1) hne hslash hdot
  rw [Router.hasExtension, beq_iff_eq] at h
  exact h

end Adaptor

namespace IndexSet

/-- Inserting a record into a sound set leaves no title bundled at its path. -/
theorem Sound.insert_bundledAt_self {s s' : IndexSet} (h : s.Sound) {r : FileRecord}
    {dsp : Option FileRecord} (hi : s.insert r = .ok (s', dsp)) : s'.bundledAt r.absolutePath = [] := by
  have h' := h.insert hi
  obtain ⟨root, rel, ix, hsplit, hix, rfl, -⟩ := insert_eq_ok hi
  have hdrop := h.dropTitleElsewhere root r.title
  obtain ⟨hmem, hroot⟩ := index?_eq_some hix
  have hsplit' : ((s.dropTitleElsewhere root r.title).update
      (ix.set rel { r with relativePath := rel }).1).split r.absolutePath = .ok (root, rel) := by
    rw [split_eq_of_roots (update_roots hdrop hmem (by simp)), split_eq_of_roots
      (dropTitleElsewhere_roots s root r.title), hsplit]
  rw [(h'.lookup_of_split hsplit' (mem_update_self hmem (by simp)) (by simp [hroot])).2,
    FileIndex.model_set (hdrop.consistent ix hmem)]
  simp [IndexModel.set]

/-- Tracking a record in a sound set, when it answers a record, leaves no title bundled at the
record's path. -/
theorem Sound.track_bundledAt {s s' : IndexSet} (h : s.Sound) {root : String} {r r' : FileRecord}
    (ht : s.track root r = (s', .ok r')) : s'.bundledAt r.absolutePath = [] := by
  unfold track at ht
  generalize hs₁ : (if (s.owningRoot? r.absolutePath).isNone then (s.registerRoot root).1
    else s) = s₁ at ht
  have hsound₁ : s₁.Sound := by
    subst hs₁
    split
    · exact h.registerRoot root
    · exact h
  dsimp only at ht
  split at ht
  · rename_i s₂ dsp hi
    split at ht
    · obtain ⟨rfl, -⟩ := Prod.mk.inj ht
      exact hsound₁.insert_bundledAt_self hi
    · cases (Prod.mk.inj ht).2
  · cases (Prod.mk.inj ht).2

end IndexSet

namespace Adaptor

/-- After a save that answers a record, the record lies at its path, with no title bundled
there. -/
theorem save_ok_at_path {a a₁ : Adaptor} {d : Document} {r : FileRecord} (hs : a.index.Sound)
    (h : a.save d = (a₁, .ok r)) :
    a₁.index.recordAt? r.absolutePath = some r ∧ a₁.index.bundledAt r.absolutePath = [] := by
  rw [save_eq_steps] at h
  rcases hw : (a.plan d).1.writeStep (a.plan d).2 with ⟨W, w⟩
  rw [hw] at h
  cases w with
  | error e =>
    unfold commit at h
    cases (Prod.mk.inj h).2
  | ok u =>
    have hWi : W.index = a.index := by
      have h₁ := writeStep_index (a.plan d).1 (a.plan d).2
      rw [hw, plan_index] at h₁
      exact h₁
    obtain ⟨hidx, hans⟩ := commit_ok W (a.plan d).2
    rw [h] at hidx hans
    have htrack : W.index.track (W.router.resolve (a.plan d).2.doc).rootDirectory
        (a.plan d).2.record = (a₁.index, .ok r) := Prod.ext hidx.symm hans.symm
    have hsW : W.index.Sound := hWi ▸ hs
    have htr := hsW.track_ok htrack
    rw [htr.path]
    exact ⟨htr.at_path, hsW.track_bundledAt htrack⟩

end Adaptor

namespace Place

/-- The sidecar of a plain place's file is a plain place's file. -/
theorem Plain.sidecar_text {P : Place} (h : P.Plain) :
    ∃ Q : Place, Q.Plain ∧ sidecarPath P.text = Q.text := by
  obtain ⟨E, m, rfl⟩ : ∃ E m, P = E ++ [m] :=
    ⟨P.dropLast, P.getLast h.ne_nil, (List.dropLast_append_getLast h.ne_nil).symm⟩
  exact ⟨E ++ [m ++ sidecarSuffix], h.sidecar, Place.sidecarPath_text E m⟩

end Place

namespace SavePlan

/-- A stale file is a backing file of the record the plan saw that the save does not write. -/
theorem mem_stale_iff {pl : SavePlan} {p : String} :
    p ∈ pl.stale ↔ ∃ c, pl.current = some c ∧ p ∈ c.backingFiles ∧
      ∀ w ∈ pl.written, Path.same w p = false := by
  unfold stale
  cases pl.current with
  | none => simp
  | some c => simp

theorem target_mem_written (pl : SavePlan) : pl.target ∈ pl.written := by
  unfold written
  split <;> simp

theorem sidecar_mem_written {pl : SavePlan} (h : (encode pl.doc).sidecar.isSome = true) :
    sidecarPath pl.target ∈ pl.written := by
  simp [written, h]

variable {D : Place} {n : String}

/-- When the record the plan saw sits at a plain place, its stale files are files of plain
places, none of them the plain target or the sidecar the plan writes beside it. -/
theorem stale_plain {pl : SavePlan}
    (hold : ∀ c, pl.current = some c → ∃ P : Place, P.Plain ∧ c.absolutePath = P.text)
    (htarget : pl.target = (D ++ [n]).text) :
    ∀ q ∈ pl.stale, ∃ P : Place, P.Plain ∧ q = P.text ∧ P ≠ D ++ [n] ∧
      ((encode pl.doc).sidecar.isSome → P ≠ D ++ [n ++ sidecarSuffix]) := by
  intro q hq
  obtain ⟨c, hc, hmem, hsame⟩ := mem_stale_iff.mp hq
  obtain ⟨P₀, hP₀, habs⟩ := hold c hc
  obtain ⟨P, hP, rfl⟩ : ∃ P : Place, P.Plain ∧ q = P.text := by
    unfold FileRecord.backingFiles at hmem
    split at hmem
    · rcases List.mem_cons.mp hmem with rfl | hmem
      · exact ⟨P₀, hP₀, habs⟩
      · obtain ⟨Q, hQ, hQt⟩ := hP₀.sidecar_text
        rw [List.mem_singleton.mp hmem, habs]
        exact ⟨Q, hQ, hQt⟩
    · exact ⟨P₀, hP₀, (List.mem_singleton.mp hmem).trans habs⟩
  refine ⟨P, hP, rfl, fun hPT => ?_, fun hsc hPS => ?_⟩
  · have hne := hsame _ (target_mem_written _)
    rw [htarget, hPT, Path.same_eq] at hne
    simp at hne
  · have hne := hsame _ (sidecar_mem_written hsc)
    rw [htarget, hPS, Place.sidecarPath_text, Path.same_eq] at hne
    simp at hne

/-- A file of the record the plan saw, lying where a sidecar of the target would, is stale when
the plan writes no sidecar. -/
theorem sidecar_mem_stale {pl : SavePlan} (hplain : (D ++ [n]).Plain)
    (htarget : pl.target = (D ++ [n]).text) (hsc : (encode pl.doc).sidecar = none)
    {c : FileRecord} (hc : pl.current = some c) (hmem : sidecarPath pl.target ∈ c.backingFiles) :
    sidecarPath pl.target ∈ pl.stale := by
  refine mem_stale_iff.mpr ⟨c, hc, hmem, fun w hw => ?_⟩
  have hw' : w = pl.target := by simpa [written, hsc] using hw
  rw [hw', htarget, Place.sidecarPath_text, Bool.eq_false_iff]
  intro hsame
  exact Disk.ne_append_sidecarSuffix n (by
    simpa using (Place.same_text hplain hplain.sidecar).mp hsame)

end SavePlan

namespace Adaptor

/-- What a save that answered `r` for `d` leaves for the read side: a sound index that tracks
`r` at its path and nothing bundled with it, a disk holding exactly `d` there, a path that names
no sidecar while its sidecar's path names it, and the record the file gives when read, placed
relative to its root, is `r`. -/
structure SavedFile (a₁ : Adaptor) (d : Document) (r : FileRecord) : Prop where
  sound : a₁.index.Sound
  holds : a₁.store.disk.HoldsDocuments r.absolutePath [d.fields]
  own_file : primaryForSidecar r.absolutePath = none
  sidecar_back : primaryForSidecar (sidecarPath r.absolutePath) = some r.absolutePath
  recorded : a₁.index.recordAt? r.absolutePath = some r
  unbundled : a₁.index.bundledAt r.absolutePath = []
  split : ∃ root, a₁.index.split r.absolutePath = .ok (root, r.relativePath)
  rebuilt : { FileRecord.discovered r.absolutePath d.fields
    (a₁.store.disk.isFile (sidecarPath r.absolutePath)) with relativePath := r.relativePath } = r

/-- A save onto a tree without links, whose removals all succeed, of a document the codec reads
back, to a plain path beside which no sidecar lies but one of the document's old files, leaves
the file the read side expects. -/
theorem save_leaves_file {a a₁ : Adaptor} {d : Document} {r : FileRecord}
    (hs : a.index.Sound) (hremovals : a.store.failingRemovals = none)
    (hnl : a.store.disk.NoLinks) (hrooted : a.store.disk.Rooted)
    (htitle : d.title ≠ "")
    (hheader : (encode d).extension = "tid" ∨ (encode d).sidecar.isSome →
      ∀ p ∈ d.fields.toList, p.1 ≠ textField → Codec.HeaderSafe p)
    (hbody : (encode d).extension = "tid" →
      ∀ t, d.field? textField = some t → t ≠ "" ∧ ¬ ['\r', '\n'] <:+: t.toList)
    (htext : (encode d).sidecar.isSome → d.fields.contains textField = true)
    (hold : ∀ c, a.index.recordForTitle? d.title = some c →
      ∃ P : Place, P.Plain ∧ c.absolutePath = P.text)
    (hsave : a.save d = (a₁, .ok r))
    {D : Place} {n : String} (hplain : (D ++ [n]).Plain)
    (hpath : r.absolutePath = (D ++ [n]).text)
    (hside : a.store.disk.isFile (sidecarPath r.absolutePath) = true →
      ∃ c, a.index.recordForTitle? d.title = some c ∧ sidecarPath r.absolutePath ∈ c.backingFiles) :
    a₁.SavedFile d r := by
  obtain ⟨hs₁, -, -, root₀, rel₀, hsplit₀, hr⟩ := save_ok_spec hs hsave
  obtain ⟨hat, hbun⟩ := save_ok_at_path hs hsave
  have htarget : (a.plan d).2.target = (D ++ [n]).text := by rw [← hpath, hr]; rfl
  obtain ⟨d₁, d₂, hw₁, hnone, hsome, hdisk⟩ := save_disk hremovals hsave
  rw [htarget] at hw₁ hsome
  have hstale := SavePlan.stale_plain (fun c hc => hold c hc) htarget
  have hside' : (encode d).sidecar = none →
      a.store.disk.isFile (sidecarPath (D ++ [n]).text) = true →
      sidecarPath (D ++ [n]).text ∈ (a.plan d).2.stale := by
    intro hsc hfile
    rw [← hpath] at hfile
    obtain ⟨c, hc, hmem⟩ := hside hfile
    rw [hpath, ← htarget] at hmem
    rw [← htarget]
    exact SavePlan.sidecar_mem_stale hplain htarget hsc hc hmem
  obtain ⟨hnl₃, hdirs₃, hfit, ⟨t, hfile⟩, hnote, hnoside⟩ :=
    Disk.saved_files hnl hrooted hplain hw₁ hnone hsome hstale hside'
  rw [← hdisk] at hnl₃ hdirs₃ hfile hnote hnoside
  have hext : Path.extension? (D ++ [n]).text = some (encode d).extension :=
    htarget ▸ plan_target_extension a d
  have hholds : a₁.store.disk.HoldsDocuments (D ++ [n]).text [d.fields] := by
    refine ⟨⟨_, _, _, Disk.stat_text_of_lookup hnl₃ hplain hfit hdirs₃ hfile false⟩,
      (Disk.isFile_text_iff hnl₃ hplain).mpr ⟨hfit, hdirs₃, _, _, hfile⟩, ?_⟩
    rw [readDocuments_of_file hnl₃ hplain hfit hdirs₃ hfile hnote hnoside]
    exact decode_saved d _ htitle hext hheader hbody htext
  have hsidecar : a₁.store.disk.isFile (sidecarPath (D ++ [n]).text) =
      (encode d).sidecar.isSome := by
    cases hsc : (encode d).sidecar with
    | none => exact hnoside hsc
    | some note =>
      obtain ⟨hfitS, t', hS⟩ := hnote note hsc
      rw [Place.sidecarPath_text]
      exact (Disk.isFile_text_iff hnl₃ hplain.sidecar).mpr ⟨hfitS, hdirs₃, _, _, hS⟩
  have hmeta : (Path.splitName n).2 ≠ some "meta" := by
    rw [← Place.extension?_text hplain, hext]
    exact fun h => encode_extension_ne_meta d (Option.some.inj h)
  have hrel : r.relativePath = rel₀ := by rw [hr]
  refine ⟨hs₁, hpath ▸ hholds, ?_, ?_, hat, hbun, ⟨root₀, hrel ▸ hsplit₀⟩, ?_⟩
  · rw [hpath, Place.primaryForSidecar_text hplain hmeta]
  · rw [hpath, Place.primaryForSidecar_sidecarPath hplain]
  · rw [hpath, hsidecar, hr]
    simp only [FileRecord.discovered, SavePlan.record, htarget, encode_contentType]
    rfl

end Adaptor

end WikiSync

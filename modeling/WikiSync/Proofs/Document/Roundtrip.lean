import WikiSync.Document.Codec
import WikiSync.Proofs.Text.Lines
import WikiSync.Proofs.Json.PrettyRead
import WikiSync.Proofs.Document.Fields

/-!
# Decoding undoes encoding

A document is written in one of three layouts and read back from the file's extension and, for
the raw layout, its sidecar. Each layout reads back on its own terms:

* a bundle reads back as the fields it holds, with no condition on them (`readBundle_bundle`);
* a header reads back as its fields when each survives a header line (`HeaderSafe`): its name is
  split at the first colon and both parts are trimmed (`readHeader_header`);
* a header file also needs its body, if any, to be non-empty and free of `\r\n`, since the
  file's line breaks are normalised and an empty body is dropped (`readHeaderFile_headerFile`).

`decode_encode` puts them together for every document with a title.
-/

namespace WikiSync.Codec

/-- The header line of a field, without its line feed. -/
def headerLine (p : String × String) : List Char :=
  p.1.toList ++ ':' :: ' ' :: p.2.toList

/-- The fields a header carries: every field but the body. -/
def headerPairs (fs : Fields) : List (String × String) :=
  fs.toList.filter (·.1 != textField)

/-- The characters of a header: one line per field but the body. -/
theorem header_toList (fs : Fields) :
    (header fs).toList = (headerPairs fs).flatMap (headerLine · ++ ['\n']) := by
  rw [header, String.toList_join, headerPairs]
  induction fs.toList with
  | nil => rfl
  | cons p l ih =>
    rw [List.filterMap_cons, List.filter_cons]
    by_cases hp : p.1 = textField
    · simpa [hp] using ih
    · simpa [hp, headerLine] using ih

/-- A field that a header line carries back unchanged: its name is non-empty and holds no colon
and no line feed, and neither its name nor its value starts or ends with a blank. -/
structure HeaderSafe (p : String × String) : Prop where
  /-- A line with an empty name is skipped. -/
  name_ne : p.1 ≠ ""
  /-- The line splits at its first colon. -/
  colon_not_mem : ':' ∉ p.1.toList
  /-- A line feed would end the line. -/
  newline_not_mem : '\n' ∉ p.1.toList
  /-- Both parts are trimmed of blanks. -/
  name_trim : Text.trim p.1 = p.1
  /-- The value is trimmed too; no trailing blank also keeps a carriage return off the line's end. -/
  value_trim : Text.trim p.2 = p.2

instance (p : String × String) : Decidable (HeaderSafe p) :=
  decidable_of_iff (p.1 ≠ "" ∧ ':' ∉ p.1.toList ∧ '\n' ∉ p.1.toList ∧ Text.trim p.1 = p.1 ∧
      Text.trim p.2 = p.2)
    ⟨fun ⟨h₁, h₂, h₃, h₄, h₅⟩ => ⟨h₁, h₂, h₃, h₄, h₅⟩, fun h => ⟨h.1, h.2, h.3, h.4, h.5⟩⟩

/-- A header line has no line feed when its field has none. -/
theorem newline_not_mem_headerLine {p : String × String} (hk : '\n' ∉ p.1.toList)
    (hv : '\n' ∉ p.2.toList) : '\n' ∉ headerLine p := by
  simp [headerLine, hk, hv]

/-- A header line does not end with a carriage return: its value ends with no blank. -/
theorem HeaderSafe.getLast?_headerLine {p : String × String} (h : HeaderSafe p) :
    (headerLine p).getLast? ≠ some '\r' := by
  have hsplit : headerLine p = (p.1.toList ++ [':', ' ']) ++ p.2.toList := by simp [headerLine]
  rw [hsplit, List.getLast?_append]
  cases hv : p.2.toList.getLast? with
  | none => simp
  | some c =>
    have hblank := Text.getLast?_trim p.2 c (by rw [h.value_trim]; exact hv)
    intro hc
    simp only [Option.some_or, Option.some.injEq] at hc
    subst hc
    exact absurd hblank (by decide)

/-- Header lines read back as their fields, set one after another. -/
theorem readHeader_of_lines (raw : String) (ps : List (String × String)) (acc : Fields)
    (hlines : Text.lines raw = ps.map fun p => String.ofList (headerLine p))
    (hsafe : ∀ p ∈ ps, HeaderSafe p) :
    readHeader raw acc = ps.foldl (fun fs p => fs.insert p.1 p.2) acc := by
  rw [readHeader, hlines]
  clear hlines
  induction ps generalizing acc with
  | nil => rfl
  | cons p ps ih =>
    have hp := hsafe p List.mem_cons_self
    have hsplit : Text.splitAtChar (String.ofList (headerLine p)) ':' =
        some (p.1, " " ++ p.2) := by
      rw [headerLine, Text.splitAtChar_append _ _ _ hp.colon_not_mem, String.ofList_toList]
      simp
    have hname : p.1.isEmpty = false := by simpa using hp.name_ne
    rw [List.map_cons, List.foldl_cons, List.foldl_cons]
    simp only [hsplit, hname, Text.trim_blank_append, hp.value_trim, hp.name_trim,
      Bool.false_eq_true, if_false]
    exact ih _ fun q hq => hsafe q (List.mem_cons_of_mem p hq)

/-- The characters of a header file: the header lines, a blank line, then the body. -/
theorem headerFile_toList (fs : Fields) :
    (headerFile fs).toList = ((headerPairs fs).map headerLine).flatMap (· ++ ['\n']) ++
      '\n' :: ((fs.get? textField).getD "").toList := by
  rw [headerFile, String.toList_append, String.toList_append, header_toList, List.flatMap_map]
  simp

section Header

variable (fs : Fields) (hsafe : ∀ p ∈ headerPairs fs, HeaderSafe p)
  (hnl : ∀ p ∈ headerPairs fs, '\n' ∉ p.2.toList)
include hsafe hnl

/-- The lines of a header, each a non-empty line with no line feed that does not end with a
carriage return. -/
theorem headerLines_wellFormed :
    ∀ x ∈ (headerPairs fs).map headerLine, x ≠ [] ∧ '\n' ∉ x ∧ x.getLast? ≠ some '\r' := by
  intro x hx
  obtain ⟨p, hp, rfl⟩ := List.mem_map.1 hx
  exact ⟨by simp [headerLine], newline_not_mem_headerLine (hsafe p hp).newline_not_mem (hnl p hp),
    (hsafe p hp).getLast?_headerLine⟩

/-- The lines of a header are its fields' lines. -/
theorem lines_header :
    Text.lines (header fs) = (headerPairs fs).map fun p => String.ofList (headerLine p) := by
  have hlines := headerLines_wellFormed fs hsafe hnl
  rw [Text.lines, header_toList, ← List.flatMap_map headerLine (· ++ ['\n']),
    Text.linesFrom_closed _ fun x hx => (hlines x hx).2, List.map_map]
  rfl

/-- A header reads back as the fields it carries, in order. -/
theorem readHeader_header : readHeader (header fs) Fields.empty = fs.erase textField := by
  rw [readHeader_of_lines _ _ _ (lines_header fs hsafe hnl) hsafe]
  exact Fields.foldl_insert_toList (fs.erase textField)

/-- A header file has no `\r\n` when its body has none. -/
theorem isChain_headerFile
    (hbody : ∀ t, fs.get? textField = some t → ¬ ['\r', '\n'] <:+: t.toList) :
    (headerFile fs).toList.IsChain fun x y => ¬ (x = '\r' ∧ y = '\n') := by
  have hlines := headerLines_wellFormed fs hsafe hnl
  have hbodyChain : ((fs.get? textField).getD "").toList.IsChain
      fun x y => ¬ (x = '\r' ∧ y = '\n') := by
    cases ht : fs.get? textField with
    | none => simp
    | some t => simpa using Text.isChain_of_not_infix _ _ _ (hbody t ht)
  rw [headerFile_toList fs]
  refine List.IsChain.append (Text.isChain_closed _ fun x hx => (hlines x hx).2) ?_ ?_
  · exact List.isChain_cons.2 ⟨by simp, hbodyChain⟩
  · rintro a ha b - ⟨rfl, -⟩
    exact absurd (Text.getLast?_closed _ _ ha) (by decide)

/-- The part of a header file before its blank line reads back as the header's fields. -/
theorem readHeader_headLines (hne : headerPairs fs ≠ []) :
    readHeader (String.ofList (['\n'].intercalate ((headerPairs fs).map headerLine)))
      Fields.empty = fs.erase textField := by
  have hlines := headerLines_wellFormed fs hsafe hnl
  rw [readHeader_of_lines _ (headerPairs fs) _ ?_ hsafe]
  · exact Fields.foldl_insert_toList (fs.erase textField)
  · rw [Text.lines, String.toList_ofList,
      Text.linesFrom_intercalate _ (by simpa using hne) hlines, List.map_map]
    rfl

/-- A header file reads back as its fields, when the body, if any, is non-empty and holds no
`\r\n`. -/
theorem readHeaderFile_headerFile (hne : headerPairs fs ≠ [])
    (hbody : ∀ t, fs.get? textField = some t → t ≠ "" ∧ ¬ ['\r', '\n'] <:+: t.toList) :
    readHeaderFile (headerFile fs) = fs := by
  have hlines := headerLines_wellFormed fs hsafe hnl
  have hchain := isChain_headerFile fs hsafe hnl fun t ht => (hbody t ht).2
  have hcrlf : (if Text.containsChars (headerFile fs).toList ['\r', '\n'] then
      Text.replacePair '\r' '\n' '\n' (headerFile fs).toList else (headerFile fs).toList) =
      (headerFile fs).toList := by
    split
    · exact Text.replacePair_of_isChain _ _ _ _ hchain
    · rfl
  have hsplit := Text.splitOnFirst_blankLine ((headerPairs fs).map headerLine)
    ((fs.get? textField).getD "").toList (by simpa using hne)
    fun x hx => ⟨(hlines x hx).1, (hlines x hx).2.1⟩
  rw [← headerFile_toList] at hsplit
  rw [readHeaderFile]
  simp only [hcrlf, hsplit, readHeader_headLines fs hsafe hnl hne, String.ofList_toList]
  cases ht : fs.get? textField with
  | none =>
    have hkeep : headerPairs fs = fs.toList := by
      rw [headerPairs, List.filter_eq_self]
      intro a ha
      simpa using Fields.not_mem_of_get?_eq_none ht a ha
    simpa using Fields.ext hkeep
  | some t =>
    have hempty : t.toList.isEmpty = false := by simpa using (hbody t ht).1
    have hrestore := Fields.erase_insert_getD fs textField ""
    have hcontains : fs.contains textField = true := by
      rw [Fields.contains_eq_isSome_get?, ht]
      rfl
    rw [ht, Option.getD_some, Fields.insertIfAbsent, if_pos hcontains] at hrestore
    rw [Option.getD_some, hempty, if_neg Bool.false_ne_true, hrestore]

end Header

/-- A bundle of ordered fields with a title reads back as those fields. -/
theorem readBundle_bundle (path : String) (fs : Fields)
    (ht : fs.contains titleField = true) : readBundle path (bundle fs) = .ok [fs] := by
  obtain ⟨m, ms, hfs⟩ : ∃ m ms, fs.toList = m :: ms := by
    cases hl : fs.toList with
    | nil => simp [Fields.contains, hl] at ht
    | cons m ms => exact ⟨m, ms, rfl⟩
  have hparse : Json.parse (bundle fs) = .ok (.arr [fieldsJson fs]) := by
    rw [bundle, fieldsJson, hfs]
    exact Json.parse_pretty_strings m ms (hfs ▸ fs.ordered)
  rw [readBundle, hparse]
  simp only [fieldsJson, List.filterMap_cons, List.filterMap_nil, List.map_map, Function.comp_def,
    memberText, List.map_id', Fields.ofList_toList fs, ht, if_true]

/-- The header keeps every field but the body. -/
theorem contains_erase_text (fs : Fields) (k : String) (hk : k ≠ textField) :
    (fs.erase textField).contains k = fs.contains k := by
  simp only [Fields.contains, Fields.erase, List.any_filter]
  congr 1
  funext p
  by_cases hp : p.1 = k
  · simp [hp, hk]
  · simp [hp]

/-- When no field but the body spans several lines, no header value holds a line feed. -/
theorem newline_not_mem_of_multilineHeader {fs : Fields} (h : multilineHeader fs = false) :
    ∀ p ∈ headerPairs fs, '\n' ∉ p.2.toList := by
  intro p hp hn
  rw [headerPairs, List.mem_filter] at hp
  have hp' := List.any_eq_false.1 h p hp.1
  simp only [hp.2, Bool.true_and, String.contains_char_eq, decide_eq_true_eq] at hp'
  exact hp' hn

end WikiSync.Codec

namespace WikiSync

open Codec

/-- The layouts' own extensions are already lower case. -/
theorem asciiLower_json : asciiLower "json" = "json" := by
  rw [← String.toList_inj, asciiLower, String.toList_map]
  decide

/-- The layouts' own extensions are already lower case. -/
theorem asciiLower_tid : asciiLower "tid" = "tid" := by
  rw [← String.toList_inj, asciiLower, String.toList_map]
  decide

/-- A bundle file decodes to the document it holds. -/
theorem decode_bundle (P : String) (fs : Fields) (hP : Path.extension? P = some "json")
    (t : String) (ht : fs.get? titleField = some t) (hne : t ≠ "") :
    decode P (bundle fs) none = .ok [fs] := by
  have hcontains : fs.contains titleField = true := by
    rw [Fields.contains_eq_isSome_get?, ht]
    rfl
  simp [decode, hP, asciiLower_json, readBundle_bundle P fs hcontains, bind, Except.bind, ht,
    hne, pure, Except.pure]

/-- A header file decodes to the document it holds. -/
theorem decode_headerFile (P : String) (fs : Fields) (hP : Path.extension? P = some "tid")
    (t : String) (ht : fs.get? titleField = some t) (hne : t ≠ "")
    (hsafe : ∀ p ∈ headerPairs fs, HeaderSafe p) (hnl : ∀ p ∈ headerPairs fs, '\n' ∉ p.2.toList)
    (hbody : ∀ t, fs.get? textField = some t → t ≠ "" ∧ ¬ ['\r', '\n'] <:+: t.toList) :
    decode P (headerFile fs) none = .ok [fs] := by
  have hpairs : headerPairs fs ≠ [] := by
    have hmem : (titleField, t) ∈ headerPairs fs := by
      rw [headerPairs, List.mem_filter]
      exact ⟨Fields.mem_of_get?_eq_some ht, show (titleField != textField) = true by decide⟩
    exact List.ne_nil_of_mem hmem
  simp [decode, hP, asciiLower_tid, readHeaderFile_headerFile fs hsafe hnl hpairs hbody, bind,
    Except.bind, ht, hne, pure, Except.pure]

/-- A raw file with a sidecar decodes to the document it holds, with an empty body when the
document had none. -/
theorem decode_raw (P : String) (fs : Fields) (t : String)
    (ht : fs.get? titleField = some t) (hne : t ≠ "") (htype : fs.contains typeField = true)
    (hsafe : ∀ p ∈ headerPairs fs, HeaderSafe p) (hnl : ∀ p ∈ headerPairs fs, '\n' ∉ p.2.toList) :
    decode P ((fs.get? textField).getD "") (some (header fs)) =
      .ok [fs.insertIfAbsent textField ""] := by
  have htitle : (fs.erase textField).contains titleField = true := by
    rw [contains_erase_text fs titleField (by decide), Fields.contains_eq_isSome_get?, ht]
    rfl
  have htype' : (fs.erase textField).contains typeField = true := by
    rw [contains_erase_text fs typeField (by decide), htype]
  have hresult : (fs.insertIfAbsent textField "").get? titleField = some t := by
    unfold Fields.insertIfAbsent
    split
    · exact ht
    · rw [Fields.get?_insert_of_ne _ _ _ _ (by decide), ht]
  have hfields : (fs.erase textField).insert textField ((fs.get? textField).getD "") =
      fs.insertIfAbsent textField "" :=
    Fields.erase_insert_getD fs textField ""
  rw [decode]
  cases typeForExtension (asciiLower ((Path.extension? P).getD "")) <;>
    simp [readHeader_header fs hsafe hnl, Fields.insertIfAbsent_of_contains _ htitle,
      Fields.insertIfAbsent_of_contains _ htype', hfields, hresult, hne, bind, Except.bind, pure,
      Except.pure]

/-- A document whose content type is not the default names it in a field. -/
theorem contains_type_of_contentType_ne {d : Document} (h : d.contentType ≠ defaultContentType) :
    d.fields.contains typeField = true := by
  unfold Document.contentType Document.field? at h
  rw [Fields.contains_eq_isSome_get?]
  cases hty : d.fields.get? typeField with
  | none => simp [hty] at h
  | some t => rfl

/-- Decoding undoes encoding, on every layout. A document with a title, written out and read back
from a path with the layout's extension, comes back with the same fields, except that the raw
layout gives an empty body to a document that had none. The header and sidecar layouts need each
field but the body to survive a header line (`HeaderSafe`), and the header layout needs a body,
when there is one, that is non-empty and holds no `\r\n`. -/
theorem decode_encode (d : Document) (P : String) (htitle : d.title ≠ "") (hext : Path.extension? P = some (encode d).extension)
    (hheader : (encode d).extension = "tid" ∨ (encode d).sidecar.isSome →
      ∀ p ∈ d.fields.toList, p.1 ≠ textField → HeaderSafe p)
    (hbody : (encode d).extension = "tid" →
      ∀ t, d.field? textField = some t → t ≠ "" ∧ ¬ ['\r', '\n'] <:+: t.toList) :
    decode P (encode d).content (encode d).sidecar =
      .ok [if (encode d).sidecar.isSome then d.fields.insertIfAbsent textField "" else d.fields] := by
  obtain ⟨t, ht, hne⟩ : ∃ t, d.fields.get? titleField = some t ∧ t ≠ "" := by
    unfold Document.title Document.field? at htitle
    cases h : d.fields.get? titleField with
    | none => simp [h] at htitle
    | some t => exact ⟨t, rfl, by simpa [h] using htitle⟩
  have hsafe : (encode d).extension = "tid" ∨ (encode d).sidecar.isSome →
      ∀ p ∈ headerPairs d.fields, HeaderSafe p := by
    intro hl p hp
    rw [headerPairs, List.mem_filter] at hp
    exact hheader hl p hp.1 (by simpa using hp.2)
  by_cases hm : multilineHeader d.fields = true
  · have he : encode d = ⟨"json", bundle d.fields, none, d.contentType⟩ := by simp [encode, hm]
    rw [he] at hext ⊢
    exact decode_bundle P d.fields hext t ht hne
  have hnl := newline_not_mem_of_multilineHeader (Bool.eq_false_iff.2 hm)
  by_cases hct : d.contentType = defaultContentType
  · have he : encode d = ⟨"tid", headerFile d.fields, none, d.contentType⟩ := by
      simp [encode, hm, hct]
    rw [he] at hext hsafe hbody ⊢
    exact decode_headerFile P d.fields hext t ht hne (hsafe (Or.inl rfl)) hnl
      (hbody rfl)
  cases hx : extensionForType d.contentType with
  | some ext =>
    have he : encode d = ⟨ext, (d.field? textField).getD "", some (header d.fields),
        d.contentType⟩ := by
      simp [encode, hm, hct, hx]
    rw [he] at hsafe ⊢
    exact decode_raw P d.fields t ht hne (contains_type_of_contentType_ne hct)
      (hsafe (Or.inr rfl)) hnl
  | none =>
    have he : encode d = ⟨"json", bundle d.fields, none, d.contentType⟩ := by
      simp [encode, hm, hct, hx]
    rw [he] at hext ⊢
    exact decode_bundle P d.fields hext t ht hne

/-- A wikitext document with a title and a body reads back from its header file. -/
theorem decode_encode_note :
    let d : Document := ⟨⟨[("text", "Hello"), ("title", "Note")], by decide⟩⟩
    d.title ≠ "" ∧ Path.extension? "Note.tid" = some (encode d).extension ∧
      ((encode d).extension = "tid" ∨ (encode d).sidecar.isSome →
        ∀ p ∈ d.fields.toList, p.1 ≠ textField → HeaderSafe p) ∧
      ((encode d).extension = "tid" →
        ∀ t, d.field? textField = some t → t ≠ "" ∧ ¬ ['\r', '\n'] <:+: t.toList) ∧
      decode "Note.tid" (encode d).content (encode d).sidecar =
        .ok [if (encode d).sidecar.isSome then d.fields.insertIfAbsent textField "" else d.fields] := by
  intro d
  have hext : (encode d).extension = "tid" := by
    simp +decide [d, encode, multilineHeader, String.contains_char_eq, Document.contentType,
      Document.field?, Fields.get?]
  have h₂ : d.title ≠ "" := by decide
  have h₃ : Path.extension? "Note.tid" = some (encode d).extension := by
    rw [hext]
    simp +decide [Path.extension?, Path.fileName?, Path.components, Path.pieces, Path.splitName]
  have h₄ : (encode d).extension = "tid" ∨ (encode d).sidecar.isSome →
      ∀ p ∈ d.fields.toList, p.1 ≠ textField → HeaderSafe p := by
    intro _
    decide
  have h₅ : (encode d).extension = "tid" →
      ∀ t, d.field? textField = some t → t ≠ "" ∧ ¬ ['\r', '\n'] <:+: t.toList := by
    intro _ t ht
    have htext : d.field? textField = some "Hello" := by decide
    rw [htext, Option.some_inj] at ht
    subst ht
    decide
  exact ⟨h₂, h₃, h₄, h₅, decode_encode d "Note.tid" h₂ h₃ h₄ h₅⟩

end WikiSync

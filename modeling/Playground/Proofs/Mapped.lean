import Mathlib.Data.List.TakeDrop
import Playground.Proofs.Cursor
import Playground.Proofs.Labelling
import Playground.Proofs.Text.Utf8
/-!
# Which messages are shown in a region, and where

A message is shown in the active region exactly when it starts in the text of the region that is looked
up for it.  That the lines around the two places read the same is asked as well, but the padding of a
region ends its first and its last line, so that they always do.
-/

namespace Playground

open Text

namespace Text.Utf8

variable {a b front back : List Char} {n : Nat}

theorem length_encode (cs : List Char) : (encode (String.ofList cs)).length = byteLength cs := by
  rw [encode_eq, String.toList_ofList]
  induction cs with
  | nil => rfl
  | cons c cs ih =>
    rw [List.flatMap_cons, List.length_append, ih, byteLength_cons, String.length_utf8EncodeChar]

theorem encode_append (a b : List Char) :
    encode (String.ofList (a ++ b)) = encode (String.ofList a) ++ encode (String.ofList b) := by
  simp only [encode_eq, String.toList_ofList, List.flatMap_append]

theorem drop_encode_append (a b : List Char) :
    (encode (String.ofList (a ++ b))).drop (byteLength a) = encode (String.ofList b) := by
  rw [encode_append, List.drop_append_of_le_length (length_encode a).ge, ← length_encode a,
    List.drop_length, List.nil_append]

/-- As far as a text goes, its bytes are the same with something behind it. -/
theorem take_encode_append (hn : n ≤ byteLength a) :
    (encode (String.ofList (a ++ b))).take n = (encode (String.ofList a)).take n := by
  rw [encode_append, List.take_append_of_le_length (hn.trans (length_encode a).ge)]

end Text.Utf8

namespace DiagnosticMap

open Inline Region

variable {w : Workspace} {active : BufferId} {regions : List Region} {r : Region} {d : RawDiagnostic}
  {path : String} {content text document : List Char}

/-! ## 1. The text of a region -/

theorem unpadded?_eq_some_iff : unpadded? content = some text ↔ content = '\n' :: text ++ ['\n'] := by
  constructor
  · intro h
    unfold unpadded? at h
    split at h
    · rename_i rest
      split at h
      · rename_i inner hreverse
        rw [← Option.some.inj h, ← List.reverse_inj, List.cons_append, List.reverse_cons, hreverse]
        simp
      · cases h
    · cases h
  · rintro rfl
    exact ActiveRegion.unpadded?_padded text

/-- A text of two bytes that begins and ends with a line feed is padded. -/
theorem exists_padded_iff : (∃ text, content = '\n' :: text ++ ['\n']) ↔
    2 ≤ byteLength content ∧ content.head? = some '\n' ∧ content.getLast? = some '\n' := by
  constructor
  · rintro ⟨text, rfl⟩
    refine ⟨?_, rfl, List.getLast?_concat⟩
    rw [byteLength_padded]
    exact Nat.le_add_left 2 _
  · rintro ⟨hlong, hfirst, hlast⟩
    obtain ⟨rest, rfl⟩ := List.head?_eq_some_iff.mp hfirst
    obtain ⟨init, hinit⟩ := List.getLast?_eq_some_iff.mp hlast
    cases init with
    | nil =>
      -- a single line feed is one byte
      rw [hinit] at hlong
      exact absurd hlong (by decide)
    | cons c init =>
      rw [List.cons_append, List.cons.injEq] at hinit
      exact ⟨init, by rw [hinit.2, List.cons_append]⟩

/-- The region that is looked up for a message: the first one with the active id in a file that the
path ends in, if the message starts in it. -/
def regionFor? (regions : List Region) (active : BufferId) (d : RawDiagnostic) (path : String) :
    Option Region :=
  regions.find? fun r =>
    r.bufferId == active && FileName.endsPath path r.destination && r.span.contains d.start

/-- The region fits the document, and its content there, which is padded, holds the offset behind its
first line feed. -/
structure HoldsInText (document : List Char) (r : Region) (content : List Char) (offset : Nat) :
    Prop where
  content_eq : r.content? document = some content
  long : 2 ≤ byteLength content
  first : content.head? = some '\n'
  last : content.getLast? = some '\n'
  behind : r.span.start < offset
  boundary : IsBoundary document offset

/-- The document and the region, cut at the offset. -/
structure CutAt (document : List Char) (r : Region) (offset : Nat) (front a b back : List Char) :
    Prop where
  document_eq : document = front ++ ('\n' :: (a ++ b) ++ ['\n']) ++ back
  start_eq : r.span.start = byteLength front
  stop_eq : r.span.stop = byteLength front + paddingSize + byteLength (a ++ b) + paddingSize
  offset_eq : offset = byteLength front + paddingSize + byteLength a

theorem CutAt.content_eq {offset : Nat} {front a b back : List Char}
    (h : CutAt document r offset front a b back) :
    r.content? document = some ('\n' :: (a ++ b) ++ ['\n']) := by
  have hpad : paddingSize = 1 := rfl
  have hstop : r.span.stop = byteLength front + byteLength ('\n' :: (a ++ b) ++ ['\n']) := by
    rw [h.stop_eq, byteLength_padded]
    omega
  rw [content?, h.document_eq, h.start_eq, hstop]
  exact slice_append front _ back

theorem CutAt.holds {offset : Nat} {front a b back : List Char}
    (h : CutAt document r offset front a b back) :
    HoldsInText document r ('\n' :: (a ++ b) ++ ['\n']) offset := by
  have hpad : paddingSize = 1 := rfl
  obtain ⟨hlong, hfirst, hlast⟩ := exists_padded_iff.mp ⟨a ++ b, rfl⟩
  refine ⟨h.content_eq, hlong, hfirst, hlast, ?_, ?_⟩
  · rw [h.start_eq, h.offset_eq]
    omega
  · rw [h.document_eq, h.offset_eq, isBoundary_padded (byteLength_le_append a b)]
    exact ⟨a, b, rfl, rfl⟩

theorem exists_cutAt {offset : Nat} (h : r.content? document = some ('\n' :: text ++ ['\n']))
    (hin : offset < r.span.stop) (hbehind : r.span.start + paddingSize ≤ offset)
    (hboundary : IsBoundary document offset) :
    ∃ front a b back, text = a ++ b ∧ CutAt document r offset front a b back := by
  have hpad : paddingSize = 1 := rfl
  obtain ⟨front, back, rfl, hfront, hstop⟩ := slice_eq_some_iff.mp h
  rw [byteLength_padded] at hstop
  have hle : offset - (byteLength front + paddingSize) ≤ byteLength text := by omega
  have hoffset : offset = byteLength front + paddingSize +
      (offset - (byteLength front + paddingSize)) := by omega
  rw [hoffset, isBoundary_padded hle] at hboundary
  obtain ⟨a, b, rfl, ha⟩ := hboundary
  exact ⟨front, a, b, back, rfl, rfl, hfront.symm, by omega, by omega⟩

/-! ## 2. One message -/

/-- What is mapped into a region starts in the text of the region. -/
theorem holds_of_intoRegion? {entry : Diagnostic}
    (h : intoRegion? w regions active d path = some entry) :
    ∃ r file content, regionFor? regions active d path = some r ∧
      w.file? r.destination = some file ∧ HoldsInText file.text.toList r content d.start := by
  obtain ⟨r, hfind, h⟩ := Option.bind_eq_some_iff.mp h
  obtain ⟨file, hfile, h⟩ := Option.bind_eq_some_iff.mp h
  obtain ⟨content, hcontent, h⟩ := Option.bind_eq_some_iff.mp h
  obtain ⟨text, htext, h⟩ := Option.bind_eq_some_iff.mp h
  refine ⟨r, file, content, hfind, hfile, ?_⟩
  rw [unpadded?_eq_some_iff] at htext
  obtain ⟨hlong, hfirst, hlast⟩ := exists_padded_iff.mp ⟨text, htext⟩
  dsimp only at h
  split at h
  · cases h
  rename_i hbehind
  obtain ⟨line, hline, -⟩ := Option.bind_eq_some_iff.mp h
  -- there is a line around the place in the text, so the text can be cut there
  obtain ⟨bounds, hbounds, -⟩ := Option.bind_eq_some_iff.mp hline
  obtain ⟨⟨a, b⟩, hcut, -⟩ := Option.bind_eq_some_iff.mp hbounds
  obtain ⟨rfl, ha⟩ := cut_eq_some_iff.mp hcut
  have hpad : paddingSize = 1 := rfl
  obtain ⟨front, back, hdocument, hfront, -⟩ := slice_eq_some_iff.mp hcontent
  refine ⟨hcontent, hlong, hfirst, hlast, by omega, ?_⟩
  have hstart : d.start = byteLength front + paddingSize + byteLength a := by omega
  rw [hdocument, htext, hstart, isBoundary_padded (byteLength_le_append a b)]
  exact ⟨a, b, rfl, rfl⟩

/-- Where a message that starts in the text of its region is mapped to. -/
structure MappedTo (document : List Char) (r : Region) (content : List Char) (active : BufferId)
    (d : RawDiagnostic) (entry : Diagnostic) (text : List Char) : Prop where
  content_eq : content = '\n' :: text ++ ['\n']
  bufferId_eq : entry.bufferId = some active
  start_eq : entry.start = d.start - r.span.start - 1
  start_le : entry.start ≤ entry.stop
  stop_le : entry.stop ≤ byteLength text
  length_eq : entry.stop - entry.start =
    if d.start ≤ d.stop then min d.stop (r.span.stop - 1) - d.start else 0
  /-- The buffer reads from the start to the end of the entry as the document does from the start of
  the message. -/
  bytes_eq : ((Utf8.encode (String.ofList text)).drop entry.start).take (entry.stop - entry.start) =
    ((Utf8.encode (String.ofList document)).drop d.start).take (entry.stop - entry.start)
  /-- The line that the entry starts on reads the same in the buffer and in the document. -/
  line_eq : ∃ line, lineAt text entry.start = some line ∧ lineAt document d.start = some line

theorem exists_mappedTo {file : SourceFile} (hfind : regionFor? regions active d path = some r)
    (hfile : w.file? r.destination = some file)
    (h : HoldsInText file.text.toList r content d.start) :
    ∃ entry text, intoRegion? w regions active d path = some entry ∧
      MappedTo file.text.toList r content active d entry text := by
  have hpad : paddingSize = 1 := rfl
  obtain ⟨text, rfl⟩ := exists_padded_iff.mpr ⟨h.long, h.first, h.last⟩
  have hcontains := List.find?_some hfind
  simp only [Span.contains, Bool.and_eq_true, decide_eq_true_eq] at hcontains
  obtain ⟨front, a, b, back, rfl, hcut⟩ :=
    exists_cutAt h.content_eq hcontains.2.2 h.behind h.boundary
  obtain ⟨entry, hentry, hid, hstart, hstop⟩ := ActiveRegion.intoRegion?_of_padded hfind hfile
    hcut.document_eq h.content_eq hcut.start_eq hcut.offset_eq
  have horigin := hcut.start_eq
  have hend := hcut.stop_eq
  have hoffset := hcut.offset_eq
  have hlength := byteLength_append a b
  refine ⟨entry, a ++ b, hentry, rfl, hid, by omega, by omega, by omega, ?_, ?_, ?_⟩
  · split <;> omega
  · -- both read on from the place where they have been cut
    rw [hcut.document_eq, padded_append, hoffset, ← byteLength_append_lf, Utf8.drop_encode_append,
      hstart, Utf8.drop_encode_append, Utf8.take_encode_append (by omega)]
  · refine ⟨lineAround a b, ?_, ?_⟩
    · rw [hstart, lineAt_append]
    · rw [hcut.document_eq, hoffset, lineAt_padded, lineAt_append]

/-! ## 3. The messages of a compile -/

/-- With a region active, an error is mapped into the region, and so is a message of the file that the
region belongs to. -/
theorem forActive?_region (hne : regions ≠ []) (hregion : active.hasRegion = true)
    (hpath : d.filePath = some path)
    (hshown : d.severity = .error ∨ FileName.endsPath path active.fileName = true) :
    forActive? w regions active d = intoRegion? w regions active d path := by
  have hempty : regions.isEmpty = false := List.isEmpty_eq_false_iff.mpr hne
  have hkept : (!d.severity.isError && !active.isEmpty && !FileName.endsPath path active.fileName) =
      false := by
    rcases hshown with herror | hfile
    · rw [herror]
      rfl
    · rw [hfile, Bool.not_true, Bool.and_false]
  rw [forActive?, hpath]
  simp only [Option.bind_eq_bind, Option.bind_some, hkept, hempty, hregion]
  rfl

/-- A message is shown in the active region exactly if a region is found for it and it starts in the text
of that region; then it is shown at the same place of the text. -/
theorem shown_in_region (hregions : ofFiles w.files = .ok regions) (hne : regions ≠ [])
    (hregion : active.hasRegion = true) (hpath : d.filePath = some path)
    (hshown : d.severity = .error ∨ FileName.endsPath path active.fileName = true)
    (before after : List RawDiagnostic) {budget : Budget} {now : Instant}
    (hbudget : budget.isExceeded now = false) :
    ∃ front back m, ∃ shown : Option Diagnostic,
      (mapDiagnostics w active before budget now).2 = .ok front ∧
      (mapDiagnostics w active after budget now).2 = .ok back ∧
      (mapDiagnostics w active (before ++ d :: after) budget now).2 = .ok m ∧
      m.inActiveBuffer = front.inActiveBuffer ++ shown.toList ++ back.inActiveBuffer ∧
      (shown.isSome = true ↔ ∃ r file content, regionFor? regions active d path = some r ∧
        w.file? r.destination = some file ∧ HoldsInText file.text.toList r content d.start) ∧
      ∀ r file content, regionFor? regions active d path = some r →
        w.file? r.destination = some file → HoldsInText file.text.toList r content d.start →
        ∃ entry text, shown = some entry ∧
          MappedTo file.text.toList r content active d entry text := by
  have hmapped : ∀ ds, (mapDiagnostics w active ds budget now).2 =
      .ok ⟨ds.filterMap (forActive? w regions active), ds.map unfiltered⟩ := fun ds =>
    congrArg Prod.snd (ActiveRegion.mapDiagnostics_of_ofFiles hregions ds hbudget)
  refine ⟨_, _, _, intoRegion? w regions active d path, hmapped before, hmapped after,
    hmapped (before ++ d :: after), ?_, ⟨fun hsome => ?_, ?_⟩, ?_⟩
  · show List.filterMap _ _ = _
    have hone := forActive?_region (w := w) hne hregion hpath hshown
    cases hd : intoRegion? w regions active d path <;> simp [List.filterMap_append, hone, hd]
  · obtain ⟨entry, hentry⟩ := Option.isSome_iff_exists.mp hsome
    exact holds_of_intoRegion? hentry
  · rintro ⟨r, file, content, hfind, hfile, hholds⟩
    obtain ⟨entry, -, hentry, -⟩ := exists_mappedTo hfind hfile hholds
    rw [hentry]
    rfl
  · intro r file content hfind hfile hholds
    exact exists_mappedTo hfind hfile hholds

/-- A warning that begins with a character of two bytes and ends inside of it. -/
theorem shown_in_region_twoRegions :
    ∃ entry text,
      (mapDiagnostics twoRegionsInlined ⟨"a.cs", some "r"⟩
        [⟨some "/tmp/a.cs", 12, 13, .warning, "CS0168", "unused"⟩] (.unbounded 0) 0).2.map
          (·.inActiveBuffer) = .ok [entry] ∧
      MappedTo "#region r\n\nné\n#endregion\n".toList ⟨⟨"a.cs", some "r"⟩, ⟨10, 5⟩, "a.cs"⟩
        "\nné\n".toList ⟨"a.cs", some "r"⟩
        ⟨some "/tmp/a.cs", 12, 13, .warning, "CS0168", "unused"⟩ entry text ∧
      entry.start = 1 ∧ entry.stop = 2 ∧ text = "né".toList := by
  obtain ⟨regions, hregions, hfind⟩ : ∃ regions, ofFiles twoRegionsInlined.files = .ok regions ∧
      regionFor? regions ⟨"a.cs", some "r"⟩
        ⟨some "/tmp/a.cs", 12, 13, .warning, "CS0168", "unused"⟩ "/tmp/a.cs" =
          some ⟨⟨"a.cs", some "r"⟩, ⟨10, 5⟩, "a.cs"⟩ :=
    ⟨[⟨⟨"a.cs", some "r"⟩, ⟨10, 5⟩, "a.cs"⟩, ⟨⟨"b.cs", some "s"⟩, ⟨10, 2⟩, "b.cs"⟩],
      by decide +kernel, by decide +kernel⟩
  have hholds : HoldsInText "#region r\n\nné\n#endregion\n".toList
      ⟨⟨"a.cs", some "r"⟩, ⟨10, 5⟩, "a.cs"⟩ "\nné\n".toList 12 := by
    constructor <;> decide +kernel
  have hne : regions ≠ [] := List.ne_nil_of_mem (List.mem_of_find?_eq_some hfind)
  obtain ⟨front, back, m, shown, hfront, hback, hm, hactive, -, hplace⟩ :=
    shown_in_region (d := ⟨some "/tmp/a.cs", 12, 13, .warning, "CS0168", "unused"⟩) hregions hne
      (rfl : BufferId.hasRegion ⟨"a.cs", some "r"⟩ = true) (rfl : _ = some "/tmp/a.cs")
      (.inr (by decide +kernel)) [] [] (rfl : (Budget.unbounded 0).isExceeded 0 = false)
  obtain ⟨entry, text, rfl, hmapped⟩ := hplace _ ⟨"a.cs", "#region r\n\nné\n#endregion\n"⟩ _ hfind
    (by decide +kernel) hholds
  have hnil : (mapDiagnostics twoRegionsInlined ⟨"a.cs", some "r"⟩ [] (.unbounded 0) 0).2 =
      .ok ⟨[], []⟩ := by
    decide +kernel
  rw [hnil] at hfront hback
  obtain rfl := Except.ok.inj hfront
  obtain rfl := Except.ok.inj hback
  have htext : text = "né".toList := by
    have hcontent := unpadded?_eq_some_iff.mpr hmapped.content_eq
    have hsame : unpadded? "\nné\n".toList = some "né".toList := by decide +kernel
    exact Option.some.inj (hcontent.symm.trans hsame)
  refine ⟨entry, text, ?_, hmapped, hmapped.start_eq, ?_, htext⟩
  · rw [List.nil_append] at hm
    rw [hm, Except.map, hactive]
    rfl
  · have hstart : entry.start = 1 := hmapped.start_eq
    have hlength : entry.stop - entry.start = 1 := hmapped.length_eq
    omega

end DiagnosticMap

end Playground

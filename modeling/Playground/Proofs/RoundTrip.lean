import Playground.DiagnosticMap
import Playground.Locate
import Playground.Proofs.Reextraction
/-!
# Places in the active buffer and in the inlined file

A cursor goes from the active buffer into the inlined file, and messages come back.  Both look the
active region up in the inlined files, so the way there and back ends where it began.
-/

namespace Playground

open Inline Text

/-! ## 1. The line around an offset -/

namespace Text

theorem takeWhile_append_lf (cs rest : List Char) :
    (cs ++ '\n' :: rest).takeWhile (· ≠ '\n') = cs.takeWhile (· ≠ '\n') := by
  induction cs with
  | nil => rfl
  | cons c cs ih =>
    rw [List.cons_append, List.takeWhile_cons, List.takeWhile_cons, ih]

/-- The line between the line feeds around a place, without a carriage return at its end. -/
def lineAround (before after : List Char) : List Char :=
  let line := (before.reverse.takeWhile (· ≠ '\n')).reverse ++ after.takeWhile (· ≠ '\n')
  if line.getLast? = some '\r' then line.dropLast else line

/-- The line around an offset does not look past the line feeds around it. -/
theorem lineAround_padded (front a b back : List Char) :
    lineAround (front ++ '\n' :: a) (b ++ '\n' :: back) = lineAround a b := by
  have hrev : (front ++ '\n' :: a).reverse = a.reverse ++ '\n' :: front.reverse := by simp
  rw [lineAround, hrev, takeWhile_append_lf, takeWhile_append_lf, lineAround]

/-- A carriage return is one byte, so a line can be cut before it. -/
theorem slice_line (front line back : List Char) :
    slice (front ++ line ++ back) (byteLength front)
        (if line.getLast? = some '\r' then byteLength front + byteLength line - 1
          else byteLength front + byteLength line) =
      some (if line.getLast? = some '\r' then line.dropLast else line) := by
  by_cases hcr : line.getLast? = some '\r'
  · obtain ⟨body, rfl⟩ := List.getLast?_eq_some_iff.mp hcr
    have hlen : byteLength front + byteLength (body ++ ['\r']) - 1 =
        byteLength front + byteLength body := by
      rw [byteLength_append, show byteLength ['\r'] = 1 from rfl]
      omega
    rw [if_pos hcr, if_pos hcr, hlen, List.dropLast_concat,
      show front ++ (body ++ ['\r']) ++ back = front ++ body ++ ('\r' :: back) by simp]
    exact slice_append front body _
  · rw [if_neg hcr, if_neg hcr]
    exact slice_append front line back

/-- Around a place stand the parts of its line, `lead` and `tail`, and the text before and behind the
line. -/
theorem exists_line_around (a b : List Char) :
    ∃ front lead tail back, a = front ++ lead ∧ b = tail ++ back ∧
      a.reverse.takeWhile (· ≠ '\n') = lead.reverse ∧ b.takeWhile (· ≠ '\n') = tail := by
  refine ⟨(a.reverse.dropWhile (· ≠ '\n')).reverse, (a.reverse.takeWhile (· ≠ '\n')).reverse,
    b.takeWhile (· ≠ '\n'), b.dropWhile (· ≠ '\n'), ?_, ?_, List.reverse_reverse _ |>.symm, rfl⟩
  · rw [← List.reverse_append, List.takeWhile_append_dropWhile, List.reverse_reverse]
  · rw [List.takeWhile_append_dropWhile]

theorem lineBounds_append {a b front lead tail : List Char} (ha : a = front ++ lead)
    (hlead : a.reverse.takeWhile (· ≠ '\n') = lead.reverse)
    (htail : b.takeWhile (· ≠ '\n') = tail) :
    lineBounds (a ++ b) (byteLength a) = some (byteLength front,
      if (lead ++ tail).getLast? = some '\r' then byteLength front + byteLength (lead ++ tail) - 1
      else byteLength front + byteLength (lead ++ tail)) := by
  -- the search for the end of the line looks at it backwards
  have hlast : (tail.reverse ++ lead.reverse).head? = (lead ++ tail).getLast? := by
    rw [List.getLast?_eq_head?_reverse, List.reverse_append]
  have hstart : byteLength a - byteLength lead.reverse = byteLength front := by
    rw [ha, byteLength_append, byteLength_reverse, Nat.add_sub_cancel]
  have hstop : byteLength a + byteLength tail = byteLength front + byteLength (lead ++ tail) := by
    rw [ha, byteLength_append, byteLength_append, Nat.add_assoc]
  rw [lineBounds, cut_append, ← hstop, ← hlast]
  simp only [Option.bind_eq_bind, Option.bind_some, hlead, htail, hstart]
  rfl

theorem lineAt_append (a b : List Char) :
    lineAt (a ++ b) (byteLength a) = some (lineAround a b) := by
  obtain ⟨front, lead, tail, back, ha, hb, hlead, htail⟩ := exists_line_around a b
  rw [lineAt, lineBounds_append ha hlead htail, lineAround, hlead, htail, List.reverse_reverse]
  show slice _ (byteLength front) _ = _
  rw [show a ++ b = front ++ (lead ++ tail) ++ back by rw [ha, hb]; simp]
  exact slice_line front (lead ++ tail) back

/-- A padded text, cut at a place in it. -/
theorem padded_append (front a b back : List Char) :
    front ++ ('\n' :: (a ++ b) ++ ['\n']) ++ back = (front ++ '\n' :: a) ++ (b ++ '\n' :: back) := by
  simp

theorem byteLength_append_lf (front a : List Char) :
    byteLength (front ++ '\n' :: a) = byteLength front + paddingSize + byteLength a := by
  rw [byteLength_append, byteLength_cons, show ('\n').utf8Size = 1 by decide, Nat.add_assoc]
  rfl

/-- The padding of a text ends its first and its last line. -/
theorem lineAt_padded (front a b back : List Char) :
    lineAt (front ++ ('\n' :: (a ++ b) ++ ['\n']) ++ back)
        (byteLength front + paddingSize + byteLength a) = lineAt (a ++ b) (byteLength a) := by
  rw [padded_append, ← byteLength_append_lf, lineAt_append, lineAround_padded, lineAt_append]

theorem byteLength_padded (text : List Char) :
    byteLength ('\n' :: text ++ ['\n']) = byteLength text + 2 := by
  have hlf : ('\n').utf8Size = 1 := by decide
  rw [byteLength_append, byteLength_cons, byteLength_cons, byteLength_nil]
  omega

end Text

/-! ## 2. The active region of the inlined files -/

/-- The region `r` is the only one of the workspace for `active`.  It stands in the file `name`
between `front` and `back` and holds `text` between two line feeds. -/
structure ActiveRegion (w : Workspace) (active : BufferId) (name : String) (text : List Char)
    (regions : List Region) (r : Region) (front back : List Char) : Prop where
  regions_eq : Region.ofFiles w.files = .ok regions
  mem : r ∈ regions
  id_eq : r.bufferId = active
  only : ∀ v ∈ regions, v.bufferId = active → v = r
  destination_eq : r.destination = name
  document : ∃ file, w.file? name = some file ∧
    file.text.toList = front ++ ('\n' :: text ++ ['\n']) ++ back
  span_eq : r.span = ⟨byteLength front, byteLength text + 2⟩

theorem find?_eq_some_of_unique {α : Type} {p : α → Bool} {l : List α} {x : α} (hx : x ∈ l)
    (hp : p x = true) (hunique : ∀ y ∈ l, p y = true → y = x) : l.find? p = some x := by
  cases hfind : l.find? p with
  | none => exact absurd hp (List.find?_eq_none.mp hfind x hx)
  | some y =>
    rw [hunique y (List.mem_of_find?_eq_some hfind) (List.find?_some hfind)]

namespace ActiveRegion

variable {w : Workspace} {active : BufferId} {name : String} {text front back : List Char}
  {regions : List Region} {r : Region}

theorem find?_bufferId (h : ActiveRegion w active name text regions r front back) :
    regions.find? (·.bufferId == active) = some r :=
  find?_eq_some_of_unique h.mem (beq_iff_eq.mpr h.id_eq) fun v hv hp =>
    h.only v hv (beq_iff_eq.mp hp)

/-! ## 3. There -/

/-- Positions in the buffer are located behind the first line feed, those past its end at its
end. -/
theorem locatePosition? (h : ActiveRegion w active name text regions r front back)
    (hregion : active.hasRegion = true) (o : Nat) :
    locatePosition? w active o =
      some (name, byteLength front + paddingSize + min o (byteLength text)) := by
  have hlength : r.span.length = byteLength text + 2 * paddingSize := by rw [h.span_eq]; rfl
  have hstart : r.span.start = byteLength front := by rw [h.span_eq]
  rw [Playground.locatePosition?, if_pos hregion, h.regions_eq]
  dsimp only
  rw [h.find?_bufferId]
  show (if r.span.length < 2 * paddingSize then none
    else some (r.destination, r.span.start + paddingSize +
      min o (r.span.length - 2 * paddingSize))) = _
  rw [if_neg (by omega), h.destination_eq, hstart, hlength, Nat.add_sub_cancel]

/-! ## 4. And back -/

theorem unpadded?_padded (text : List Char) :
    DiagnosticMap.unpadded? ('\n' :: text ++ ['\n']) = some text := by
  have hreverse : (text ++ ['\n']).reverse = '\n' :: text.reverse := List.reverse_concat
  simp only [DiagnosticMap.unpadded?, List.cons_append, hreverse, List.reverse_reverse]

theorem content?_document (h : ActiveRegion w active name text regions r front back) :
    r.content? (front ++ ('\n' :: text ++ ['\n']) ++ back) = some ('\n' :: text ++ ['\n']) := by
  rw [Region.content?, Span.stop, h.span_eq, ← byteLength_padded]
  exact slice_append front _ back

theorem find?_contains (h : ActiveRegion w active name text regions r front back)
    {path : String} (hpath : FileName.endsPath path name = true) (start : Nat)
    (hlower : byteLength front ≤ start) (hupper : start < byteLength front + byteLength text + 2) :
    (regions.find? fun r => r.bufferId == active && FileName.endsPath path r.destination &&
      r.span.contains start) = some r := by
  refine find?_eq_some_of_unique h.mem ?_ fun v hv hp => h.only v hv ?_
  · have hcontains : r.span.contains start = true := by
      rw [Span.contains, Span.stop, h.span_eq, Bool.and_eq_true, decide_eq_true_eq,
        decide_eq_true_eq]
      exact ⟨hlower, hupper⟩
    rw [h.destination_eq, hpath, hcontains, beq_iff_eq.mpr h.id_eq]
    rfl
  · rw [Bool.and_eq_true, Bool.and_eq_true, beq_iff_eq] at hp
    exact hp.1.1

/-- A message that starts in the text of the region looked up for it is mapped to the same place in
that text. -/
theorem intoRegion?_of_padded {d : RawDiagnostic} {path : String} {file : SourceFile} {a b : List Char}
    (hfind : (regions.find? fun r => r.bufferId == active && FileName.endsPath path r.destination &&
      r.span.contains d.start) = some r)
    (hfile : w.file? r.destination = some file)
    (hdocument : file.text.toList = front ++ ('\n' :: (a ++ b) ++ ['\n']) ++ back)
    (hcontent : r.content? file.text.toList = some ('\n' :: (a ++ b) ++ ['\n']))
    (horigin : r.span.start = byteLength front)
    (hstart : d.start = byteLength front + paddingSize + byteLength a) :
    ∃ entry, DiagnosticMap.intoRegion? w regions active d path = some entry ∧
      entry.bufferId = some active ∧ entry.start = byteLength a ∧
      entry.stop = min (max (d.stop - (byteLength front + paddingSize)) (byteLength a))
        (byteLength (a ++ b)) := by
  have hback : d.start - (byteLength front + paddingSize) = byteLength a := by omega
  have hnot : ¬d.start < byteLength front + paddingSize := by omega
  have hline : lineAt file.text.toList d.start = lineAt (a ++ b) (byteLength a) := by
    rw [hdocument, hstart, lineAt_padded]
  obtain ⟨line, column, hcolumn⟩ : ∃ line column,
      lineColumn (a ++ b) (byteLength a) = some (line, column) := by
    rw [lineColumn, cut_append]
    exact ⟨_, _, rfl⟩
  rw [DiagnosticMap.intoRegion?, hfind]
  simp only [Option.bind_eq_bind, Option.bind_some, hfile, hcontent, unpadded?_padded, horigin, hback,
    hline, lineAt_append, hcolumn, if_neg hnot, if_true]
  exact ⟨_, rfl, rfl, rfl, rfl⟩

/-- A message that starts in the text of the region is mapped to the same place in the buffer. -/
theorem intoRegion? (h : ActiveRegion w active name text regions r front back) {a b : List Char}
    (htext : text = a ++ b) {d : RawDiagnostic} {path : String}
    (hpath : FileName.endsPath path name = true)
    (hstart : d.start = byteLength front + paddingSize + byteLength a) :
    ∃ entry, DiagnosticMap.intoRegion? w regions active d path = some entry ∧
      entry.bufferId = some active ∧ entry.start = byteLength a ∧
      entry.stop = min (max (d.stop - (byteLength front + paddingSize)) (byteLength a))
        (byteLength text) := by
  obtain ⟨file, hfile, hdocument⟩ := h.document
  have hpad : paddingSize = 1 := rfl
  have hlen : byteLength text = byteLength a + byteLength b := by rw [htext, byteLength_append]
  have hcontent := h.content?_document
  rw [← hdocument] at hcontent
  subst htext
  exact intoRegion?_of_padded (h.find?_contains hpath d.start (by omega) (by omega))
    (h.destination_eq ▸ hfile) hdocument hcontent (by rw [h.span_eq]) hstart

/-- A checkpoint in the log does not exceed a budget. -/
theorem recordAndCheck_eq_ok {budget : Budget} {now : Instant}
    (hbudget : budget.isExceeded now = false) (name : String) :
    budget.recordAndCheck now name = (budget.record now name, .ok ()) := by
  have hrecord : (budget.record now name).isExceeded now = false := hbudget
  rw [Budget.recordAndCheck, Budget.ensureWithin, hrecord]
  rfl

/-- Once the regions are found, messages are mapped one by one. -/
theorem mapDiagnostics_of_ofFiles (hregions : Region.ofFiles w.files = .ok regions)
    (ds : List RawDiagnostic) {budget : Budget} {now : Instant}
    (hbudget : budget.isExceeded now = false) :
    Playground.mapDiagnostics w active ds budget now = (budget.record now "diagnostics.map",
      .ok ⟨ds.filterMap (DiagnosticMap.forActive? w regions active),
        ds.map DiagnosticMap.unfiltered⟩) := by
  rw [Playground.mapDiagnostics, recordAndCheck_eq_ok hbudget]
  dsimp only
  rw [regionsOf, hregions]
  rfl

/-- An error that starts in the text of the region is the only message shown in the buffer. -/
theorem mapDiagnostics (h : ActiveRegion w active name text regions r front back)
    (hregion : active.hasRegion = true) {a b : List Char} (htext : text = a ++ b)
    {d : RawDiagnostic} (herror : d.severity = .error) {path : String}
    (hfile : d.filePath = some path) (hpath : FileName.endsPath path name = true)
    (hstart : d.start = byteLength front + paddingSize + byteLength a) {budget : Budget}
    {now : Instant} (hbudget : budget.isExceeded now = false) :
    ∃ budget' entry all, Playground.mapDiagnostics w active [d] budget now =
        (budget', .ok ⟨[entry], all⟩) ∧
      entry.bufferId = some active ∧ entry.start = byteLength a ∧
      entry.stop = min (max (d.stop - (byteLength front + paddingSize)) (byteLength a))
        (byteLength text) := by
  obtain ⟨entry, hentry, hplace⟩ := h.intoRegion? htext hpath hstart
  have hne : regions.isEmpty = false := List.isEmpty_eq_false_iff.mpr (List.ne_nil_of_mem h.mem)
  have hactive : DiagnosticMap.forActive? w regions active d = some entry := by
    rw [DiagnosticMap.forActive?, hfile]
    simp only [Option.bind_eq_bind, Option.bind_some, herror, hne, hregion]
    exact hentry
  refine ⟨budget.record now "diagnostics.map", entry, [DiagnosticMap.unfiltered d], ?_, hplace⟩
  rw [mapDiagnostics_of_ofFiles h.regions_eq _ hbudget, List.filterMap_cons_some hactive]
  rfl

end ActiveRegion

/-! ## 5. The active region after inlining -/

theorem Region.DistinctNames.find?_isNamed {files : List SourceFile} (h : DistinctNames files)
    {f : SourceFile} (hf : f ∈ files) : files.find? (·.isNamed f.name) = some f :=
  find?_eq_some_of_unique hf (isNamed_iff.mpr rfl) fun _ hg hnamed =>
    h.eq_of_normalize hg hf (isNamed_iff.mp hnamed)

theorem Region.Reextraction.distinctNames {w : Workspace} {active : BufferId}
    {files files' : List SourceFile} {before rewritten after : List Region}
    (h : Reextraction w active files files' before rewritten after)
    (hnames : DistinctNames files) : DistinctNames files' :=
  hnames.of_map_name h.names_eq

theorem exists_activeRegion {w w' : Workspace} {active : BufferId}
    (hregion : active.hasRegion = true) (hnames : Region.DistinctNames (baseFiles w))
    (hplain : PlainBuffers w) (h : inline w active = .ok w') :
    ∃ f ∈ baseFiles w, ∃ part a old, Region.ofFile f = .ok part ∧ a ∈ part ∧
      a.bufferId = active ∧ a.content? f.text.toList = some old ∧
      ∃ regions r front back,
        ActiveRegion w' active f.name (Region.activeText w active old) regions r front back := by
  obtain ⟨before, rewritten, after, hre⟩ :=
    Region.exists_reextraction_of_inline hregion hnames hplain h
  obtain ⟨a, ha, a', ha', hid, hid', old, hold, hnew⟩ := hre.exists_active hregion hnames h
  have hmem := hre.sublist.mem ha
  have hnames' := hre.distinctNames hnames
  obtain ⟨f, hf, hdestination, hfile⟩ := Region.fileName_of_ofFiles hre.before_eq hmem
  obtain ⟨f', hf', hdestination', hfile'⟩ := Region.fileName_of_ofFiles hre.after_eq ha'
  obtain ⟨parts, hparts, hbefore⟩ := Region.ofFiles_eq_ok_iff.mp hre.before_eq
  have hpart := Region.ofFile_eq_filter hparts hnames hf
  rw [← hbefore] at hpart
  -- normalised names are distinct, so the id leads back to the same file
  have hname : f'.name = f.name := by
    have hmap : f'.name ∈ (baseFiles w).map (·.name) := by
      rw [← hre.names_eq]
      exact List.mem_map_of_mem hf'
    obtain ⟨g, hg, hgname⟩ := List.mem_map.mp hmap
    have hnormal : FileName.normalize g.name = FileName.normalize f.name := by
      rw [hgname, ← hfile', ← hfile, hid, hid']
    rw [← hgname, hnames.eq_of_normalize hg hf hnormal]
  rw [Region.held?, hdestination, hnames.find?_isNamed hf] at hold
  rw [Region.held?, hdestination', hnames'.find?_isNamed hf'] at hnew
  obtain ⟨front, back, htext, hfront, hstop⟩ := slice_eq_some_iff.mp hnew
  refine ⟨f, hf, _, a, old, hpart, List.mem_filter.mpr ⟨hmem, Region.isNamed_iff.mpr (by
    rw [hdestination])⟩, hid, hold, after, a', front, back, hre.after_eq, ha', hid', ?_, ?_, ?_, ?_⟩
  · exact fun v hv hactive => List.inj_on_of_nodup_map
      (Region.nodup_bufferId_of_ofFiles hnames' hre.after_eq) hv ha' (by rw [hactive, hid'])
  · rw [hdestination', hname]
  · refine ⟨f', ?_, htext⟩
    rw [Workspace.file?, ← hname]
    exact hnames'.find?_isNamed hf'
  · rw [byteLength_padded, Span.stop] at hstop
    rw [hfront, Nat.add_left_cancel hstop]

/-- For the active region of an inlined workspace, locating a place in its text and mapping an error
that starts there are inverse to each other. -/
theorem cursor_round_trip {w w' : Workspace} {active : BufferId} (hregion : active.hasRegion = true)
    (hnames : Region.DistinctNames (baseFiles w)) (hplain : PlainBuffers w)
    (h : inline w active = .ok w') :
    ∃ f ∈ baseFiles w, ∃ part a old, Region.ofFile f = .ok part ∧ a ∈ part ∧
      a.bufferId = active ∧ a.content? f.text.toList = some old ∧
      ∀ text, text = Region.activeText w active old →
        (∀ o, byteLength text ≤ o →
          locatePosition? w' active o = locatePosition? w' active (byteLength text)) ∧
        ∀ o, IsBoundary text o →
          ∃ q, locatePosition? w' active o = some (f.name, q) ∧
            ∀ (d : RawDiagnostic) (path : String), d.severity = .error → d.filePath = some path →
              FileName.endsPath path f.name = true → d.start = q →
              ∀ (budget : Budget) (now : Instant), budget.isExceeded now = false →
                ∃ budget' entry all,
                  mapDiagnostics w' active [d] budget now = (budget', .ok ⟨[entry], all⟩) ∧
                  entry.bufferId = some active ∧ entry.start = o ∧
                  entry.stop = min (max (d.stop - (q - o)) o) (byteLength text) := by
  obtain ⟨f, hf, part, a, old, hpart, ha, hid, hold, regions, r, front, back, hactive⟩ :=
    exists_activeRegion hregion hnames hplain h
  refine ⟨f, hf, part, a, old, hpart, ha, hid, hold, ?_⟩
  rintro text rfl
  refine ⟨fun o ho => ?_, ?_⟩
  · rw [hactive.locatePosition? hregion, hactive.locatePosition? hregion, Nat.min_eq_right ho,
      Nat.min_self]
  · intro o ho
    refine ⟨byteLength front + paddingSize + o, ?_, ?_⟩
    · rw [hactive.locatePosition? hregion, Nat.min_eq_left ho.le]
    · intro d path herror hfile hpath hstart budget now hbudget
      obtain ⟨before, after, htext, rfl⟩ := ho
      rw [Nat.add_sub_cancel]
      exact hactive.mapDiagnostics hregion htext herror hfile hpath hstart hbudget

theorem cursor_round_trip_twoRegions :
    ∃ q, locatePosition? twoRegionsInlined ⟨"a.cs", some "r"⟩ 3 = some ("a.cs", q) ∧
      ∃ budget' entry all,
        mapDiagnostics twoRegionsInlined ⟨"a.cs", some "r"⟩
          [⟨some "/tmp/a.cs", q, q + 9, .error, "CS1002", "; expected"⟩] (.unbounded 0) 0 =
            (budget', .ok ⟨[entry], all⟩) ∧
        entry.start = 3 := by
  obtain ⟨f, hf, part, a, old, hpart, ha, hid, -, hplaces⟩ := cursor_round_trip rfl
    distinctNames_twoRegions Region.plainBuffers_twoRegions inline_twoRegions
  have hfile : f = ⟨"a.cs", "#region r\nold\n#endregion\n"⟩ := by
    refine distinctNames_twoRegions.eq_of_normalize hf (by decide +kernel) ?_
    rw [← Region.fileName_of_ofFile hpart ha, hid]
    decide +kernel
  subst hfile
  have hboundary : IsBoundary "né".toList 3 := ⟨"né".toList, [], by decide +kernel⟩
  obtain ⟨q, hq, hmap⟩ := (hplaces "né".toList rfl).2 3 hboundary
  obtain ⟨budget', entry, all, hentry, -, hstart, -⟩ := hmap
    ⟨some "/tmp/a.cs", q, q + 9, .error, "CS1002", "; expected"⟩ "/tmp/a.cs" rfl rfl
    (by decide +kernel) rfl (.unbounded 0) 0 rfl
  exact ⟨q, hq, budget', entry, all, hentry, hstart⟩

end Playground

import Playground.Hub.Job
import Playground.Proofs.Acceptance
/-!
# Where a cursor lands

A question about the active buffer is put to the compiler as one about a place in an inlined file.
The cursor always lands in a file that is there, and not past its end.  That it lands between two
characters is another matter: a position inside a character is moved into the file as it is.
-/

namespace Playground

open Inline Text

/-! ## 1. Offsets between characters -/

namespace Text

variable {a b own rest text behind : List Char} {n : Nat}

/-- A text can be cut at just these offsets. -/
theorem isBoundary_iff_isSome_cut {cs : List Char} :
    IsBoundary cs n ↔ (cut cs n).isSome = true := by
  rw [Option.isSome_iff_exists, Prod.exists]
  simp only [cut_eq_some_iff, IsBoundary]

instance (cs : List Char) (n : Nat) : Decidable (IsBoundary cs n) :=
  decidable_of_iff _ isBoundary_iff_isSome_cut.symm

theorem isBoundary_zero (cs : List Char) : IsBoundary cs 0 := ⟨[], cs, rfl, rfl⟩

theorem isBoundary_byteLength (cs : List Char) : IsBoundary cs (byteLength cs) :=
  ⟨cs, [], (List.append_nil cs).symm, rfl⟩

/-- Behind a front part the offsets of the rest go on. -/
theorem isBoundary_append_left : IsBoundary (a ++ b) (byteLength a + n) ↔ IsBoundary b n := by
  constructor
  · rintro ⟨x, y, hsplit, hx⟩
    rcases List.append_eq_append_iff.mp hsplit with ⟨m, rfl, rfl⟩ | ⟨m, rfl, rfl⟩
    · rw [byteLength_append] at hx
      exact ⟨m, y, rfl, Nat.add_left_cancel hx⟩
    · -- the cut comes before the end of the front part, so it is there
      rw [byteLength_append] at hx
      obtain rfl : n = 0 := by omega
      exact isBoundary_zero b
  · rintro ⟨x, y, rfl, rfl⟩
    exact ⟨a ++ x, y, (List.append_assoc a x y).symm, byteLength_append a x⟩

/-- What stands behind a text makes no difference to the offsets in it. -/
theorem isBoundary_append_right (hn : n ≤ byteLength a) :
    IsBoundary (a ++ b) n ↔ IsBoundary a n := by
  constructor
  · rintro ⟨x, y, hsplit, rfl⟩
    rcases List.append_eq_append_iff.mp hsplit with ⟨m, rfl, rfl⟩ | ⟨m, rfl, rfl⟩
    · -- the cut comes behind the end of the text, so it is there
      rw [byteLength_append] at hn
      obtain rfl : m = [] := byteLength_eq_zero.mp (by omega)
      rw [List.append_nil]
      exact isBoundary_byteLength a
    · exact ⟨x, m, rfl, rfl⟩
  · rintro ⟨x, y, rfl, rfl⟩
    exact ⟨x, y ++ b, List.append_assoc x y b, rfl⟩

/-- An offset between two characters of one text is one of any text that agrees with it as far as
both go, once it is moved back to the end of a shorter one. -/
theorem isBoundary_min_of_append_eq (h : own ++ rest = text ++ behind) (hn : IsBoundary own n) :
    IsBoundary text (min n (byteLength text)) := by
  by_cases hle : n ≤ byteLength text
  · rw [Nat.min_eq_left hle, ← isBoundary_append_right hle (b := behind), ← h,
      isBoundary_append_right hn.le]
    exact hn
  · rw [Nat.min_eq_right (Nat.le_of_not_le hle)]
    exact isBoundary_byteLength text

theorem eq_of_append_eq (h : own ++ rest = text ++ behind)
    (hlen : byteLength own = byteLength text) : own = text := by
  have hcut : some (own, rest) = some (text, behind) := by
    rw [← cut_append own rest, h, hlen, cut_append text behind]
  exact (Prod.mk.inj (Option.some.inj hcut)).1

end Text

namespace Region

/-! ## 2. The lines around a region -/

namespace Outline

variable {k : Strays} {file : String} {offset : Nat} {r : Region}

/-- The region stands between its marker lines among the lines, the first of which is at the
offset. -/
inductive Framed (file : String) (offset : Nat) : Region → List (List Char) → Prop where
  | intro (front behind : List (List Char)) {opening name closing : List Char}
      (body : Outline .none) (hstarts : Marker.ofLine? opening = some (.start name))
      (hstops : Marker.ofLine? closing = some .stop) :
      Framed file offset (region file name (offset + byteLength (front ++ [opening]).flatten) body)
        (front ++ opening :: (body.lines ++ closing :: behind))

theorem Framed.append {start : Nat} {ls : List (List Char)} (h : Framed file start r ls)
    (offset : Nat) (front back : List (List Char))
    (hstart : start = offset + byteLength front.flatten) :
    Framed file offset r (front ++ (ls ++ back)) := by
  subst hstart
  cases h with
  | @intro front' behind opening name closing body hstarts hstops =>
    have hlines : front ++ (front' ++ opening :: (body.lines ++ closing :: behind) ++ back) =
        (front ++ front') ++ opening :: (body.lines ++ closing :: (behind ++ back)) := by
      simp
    have hstart : offset + byteLength front.flatten + byteLength (front' ++ [opening]).flatten =
        offset + byteLength (front ++ front' ++ [opening]).flatten := by
      simp only [List.flatten_append, byteLength_append, Nat.add_assoc]
    rw [hlines, hstart]
    exact .intro (front ++ front') (behind ++ back) body hstarts hstops

/-- Every region of an outline stands between its marker lines. -/
theorem framed_of_mem_regions {o : Outline k} (hr : r ∈ o.regions file offset) :
    Framed file offset r o.lines := by
  have hone : ∀ l : List Char, byteLength [l].flatten = byteLength l := fun l => by
    rw [List.flatten_singleton]
  induction o generalizing offset with
  | done => cases hr
  | line text plain rest ih | unclosed allowed text name starts rest ih
  | unopened allowed text stops rest ih =>
    have hrest := (ih hr).append offset [text] [] (by rw [hone])
    rwa [List.append_nil] at hrest
  | block opening name starts body closing stops rest ihbody ihrest =>
    rw [regions, List.cons_append, List.mem_cons, List.mem_append] at hr
    rcases hr with rfl | hr | hr
    · rw [← hone opening]
      exact .intro [] rest.lines body starts stops
    · exact (ihbody hr).append offset [opening] (closing :: rest.lines) (by rw [hone])
    · have hrest := (ihrest hr).append offset (opening :: (body.lines ++ [closing])) []
        (by simp only [List.flatten_cons, List.flatten_append, List.flatten_nil, List.append_nil,
          byteLength_append, Nat.add_assoc]; rfl)
      simpa [lines] using hrest

end Outline

/-! ## 3. The start line of a name -/

theorem mem_startNames {ls : List (List Char)} {l name : List Char} (hl : l ∈ ls)
    (hstarts : Marker.ofLine? l = some (.start name)) : name ∈ startNames ls :=
  List.mem_filterMap.mpr ⟨.start name, List.mem_filterMap.mpr ⟨l, hl, hstarts⟩, rfl⟩

/-- When no name is started twice, the lines can be parted at the start line of a name in one way
only. -/
theorem eq_of_nodup_startNames {front behind front' behind' : List (List Char)}
    {opening opening' name : List Char}
    (hnodup : (startNames (front ++ opening :: behind)).Nodup)
    (h : front ++ opening :: behind = front' ++ opening' :: behind')
    (hstarts : Marker.ofLine? opening = some (.start name))
    (hstarts' : Marker.ofLine? opening' = some (.start name)) :
    front = front' ∧ behind = behind' := by
  rw [startNames_append, startNames_cons_start hstarts, List.nodup_middle, List.nodup_cons,
    List.mem_append, not_or] at hnodup
  obtain ⟨⟨hfront, hbehind⟩, -⟩ := hnodup
  -- the other start line stands neither in front of the first nor behind it
  have hparted := (List.append_cons_inj_of_notMem
    (fun hmem => hfront (mem_startNames hmem hstarts'))
    (fun hmem => hbehind (mem_startNames hmem hstarts'))).mp h
  exact ⟨hparted.1, hparted.2.2⟩

/-! ## 4. What stands in the active region -/

/-- Lines that are found where a padded text has been put begin with its first line feed; if there
is more than that, they are padded themselves. -/
theorem exists_text_between {own closing closing' : List Char}
    {inner behind behind' : List (List Char)} (hinner : ∀ l ∈ inner, IsLine l)
    (hlength : 2 ≤ byteLength inner.flatten)
    (h : lines (padded own) ++ closing :: behind = inner ++ closing' :: behind') :
    ∃ text, inner.flatten = '\n' :: text ++ ['\n'] ∧
      own ++ '\n' :: (closing :: behind).flatten = text ++ '\n' :: (closing' :: behind').flatten := by
  cases inner with
  | nil =>
    rw [List.flatten_nil, byteLength_nil] at hlength
    omega
  | cons l inner =>
    rw [padded, List.cons_append, lines_cons_lf, List.cons_append, List.cons_append,
      List.cons.injEq] at h
    obtain ⟨rfl, hrest⟩ := h
    rcases endsLine_flatten (List.forall_mem_cons.mp hinner).2 with hnil | ⟨text, htext⟩
    · -- the first line feed would be all there is
      rw [List.flatten_cons, hnil] at hlength
      exact absurd hlength (by decide)
    · refine ⟨text, by rw [List.flatten_cons, htext]; rfl, ?_⟩
      have hflat := congrArg List.flatten hrest
      rwa [List.flatten_append, flatten_lines, List.flatten_append, htext, List.append_assoc,
        List.append_assoc] at hflat

/-- How the text that stands in a region compares with the buffer for it: they agree as far as both
go, and if the markers in the buffer are matched, they are the same. -/
structure StandsFor (b : Buffer) (text : List Char) : Prop where
  agrees : ∃ rest behind, b.content.toList ++ rest = text ++ behind
  same : Matched b.content.toList → b.content.toList = text

/-- In files of distinct names, buffers of regions tell the file and the name of the region. -/
theorem DistinctNames.eq_of_region {files : List SourceFile} (hnames : DistinctNames files)
    {f g : SourceFile} (hf : f ∈ files) (hg : g ∈ files) {a b : List Char} (ha : a ≠ []) (hb : b ≠ [])
    (h : BufferId.region f.name (String.ofList a) = BufferId.region g.name (String.ofList b)) :
    f = g ∧ a = b := by
  have hname : FileName.normalize f.name = FileName.normalize g.name :=
    congrArg BufferId.fileName h
  obtain rfl : f = g := hnames.eq_of_normalize hf hg hname
  exact ⟨rfl, BufferId.region_injective ha hb h⟩

/-- Matched markers make a region of just the text that is put between two marker lines. -/
theorem length_of_matched {f : SourceFile} {regions : List Region} (h : ofFile f = .ok regions)
    {front behind : List (List Char)} {opening name closing own : List Char}
    (hstarts : Marker.ofLine? opening = some (.start name))
    (hstops : Marker.ofLine? closing = some .stop) (hmatched : Matched own)
    (hput : Text.lines f.text.toList =
      front ++ (opening :: lines (padded own) ++ closing :: behind)) {r : Region} (hr : r ∈ regions)
    (hid : r.bufferId = .region f.name (String.ofList name)) :
    r.span.length = byteLength own + 2 * paddingSize := by
  have hmem := region_mem_of_closes h hstarts hstops (by rw [markers_padded]; exact hmatched) hput
  have hsame := List.inj_on_of_nodup_map (nodup_bufferId_of_ofFile h) hr hmem hid
  have hlength : r.span.length = byteLength (lines (padded own)).flatten :=
    congrArg (·.span.length) hsame
  rw [hlength, flatten_lines, padded, byteLength_padded]
  rfl

variable {w w' : Workspace} {active : BufferId}

/-- The active region, once it is found in the inlined files, holds a padded text, which stands for
its buffer. -/
theorem exists_activeRegion_of_mem (hregion : active.hasRegion = true)
    (hnames : DistinctNames (baseFiles w)) (h : inline w active = .ok w') {regions : List Region}
    (hregions : ofFiles w'.files = .ok regions) {r : Region} (hr : r ∈ regions)
    (hactive : r.bufferId = active) (hlength : 2 * paddingSize ≤ r.span.length) :
    ∃ text front back, ActiveRegion w' active r.destination text regions r front back ∧
      ∀ b, w.buffer? active = some b → StandsFor b text := by
  have hnames' : DistinctNames w'.files := hnames.of_map_name (map_name_of_inline hregion h)
  obtain ⟨parts, hparts, hflat⟩ := ofFiles_eq_ok_iff.mp hregions
  obtain ⟨g, hg, part, hpart, hrpart⟩ := exists_file_of_mem_flatten hparts (hflat ▸ hr)
  obtain ⟨f, -, f', hf', hname, own, a, -, -, ha, haround⟩ := exists_around_active hregion hnames h
  obtain ⟨o, ho, hnodup, rfl⟩ := ofFile_eq_ok_iff.mp hpart
  have hlines := areLines_lines g.text.toList
  have hframed := Outline.framed_of_mem_regions hrpart
  rw [← o.startNames_lines] at hnodup
  rw [ho] at hframed hnodup
  generalize hput : Text.lines f'.text.toList = put at haround
  generalize hfound : Text.lines g.text.toList = found at hframed hnodup hlines
  cases haround with
  | @intro opening name new closing body before behind hstarts hstops hid hbody hnew =>
  cases hframed with
  | @intro front behind' opening' name' closing' inner hstarts' hstops' =>
  -- normalised names are distinct, so it is the same file in which the replacement was put
  obtain ⟨rfl, rfl⟩ : g = f' ∧ name' = name := by
    refine hnames'.eq_of_region hg hf' (Marker.name_ne_nil hstarts') (Marker.name_ne_nil hstarts) ?_
    rw [hname, ← hid, ha]
    exact hactive
  -- and there only one line starts a region of that name
  obtain ⟨hfront, hbetween⟩ := eq_of_nodup_startNames hnodup (hfound.symm.trans hput) hstarts'
    hstarts
  rw [replacement?_target, if_pos ha, Option.some.injEq] at hnew
  subst hnew
  have hinner : ∀ l ∈ inner.lines, IsLine l :=
    hlines.right.tail.isLine_left (List.cons_ne_nil closing' behind')
  obtain ⟨text, htext, hagrees⟩ := exists_text_between hinner hlength hbetween.symm
  have hdocument : g.text.toList = (front ++ [opening']).flatten ++ ('\n' :: text ++ ['\n']) ++
      (closing' :: behind').flatten := by
    rw [← flatten_lines g.text.toList, hfound, ← htext]
    simp
  refine ⟨text, (front ++ [opening']).flatten, (closing' :: behind').flatten, ?_, fun b hb => ?_⟩
  · have hids := nodup_bufferId_of_ofFiles hnames' hregions
    constructor
    case regions_eq => exact hregions
    case mem => exact hr
    case id_eq => exact hactive
    case only => exact fun v hv hid => List.inj_on_of_nodup_map hids hv hr (hid.trans hactive.symm)
    case destination_eq => rfl
    case document => exact ⟨g, hnames'.find?_isNamed hg, hdocument⟩
    case span_eq =>
      have hbytes : byteLength inner.text = byteLength text + 2 := by
        rw [Outline.text, htext, byteLength_padded]
      rw [Outline.region, hbytes, Nat.zero_add]
  · rw [hb] at hagrees hput
    refine ⟨⟨_, _, hagrees⟩, fun hmatched => eq_of_append_eq hagrees ?_⟩
    have hbytes : byteLength inner.text = byteLength b.content.toList + 2 :=
      length_of_matched hpart hstarts hstops hmatched hput hrpart rfl
    rw [Outline.text, htext, byteLength_padded] at hbytes
    exact (Nat.add_right_cancel hbytes).symm

end Region

/-! ## 5. Where the cursor lands -/

open Region

/-- How the cursor of the active buffer stands between two characters.  In a region the position is
one in the buffer.  In a file it is one in the text that the whole-file buffers have left there. -/
inductive CursorFits (w : Workspace) (active : BufferId) : Prop where
  | unset (hb : w.buffer? active = none)
  | within (b : Buffer) (hb : w.buffer? active = some b) (hregion : active.hasRegion = true)
      (hcursor : IsBoundary b.content.toList b.position)
  | past (b : Buffer) (hb : w.buffer? active = some b) (hregion : active.hasRegion = true)
      (hmatched : Matched b.content.toList) (hcursor : byteLength b.content.toList ≤ b.position)
  | inFile (b : Buffer) (hb : w.buffer? active = some b) (hfile : active.hasRegion = false)
      (f : SourceFile) (hf : (baseFiles w).find? (·.isNamed active.fileName) = some f)
      (hcursor : IsBoundary f.text.toList (min b.position (byteLength f.text.toList)))

/-- How the cursor of the active buffer lands at an offset of a file. -/
structure Lands (w : Workspace) (active : BufferId) (file : SourceFile) (offset : Nat) : Prop where
  inside : offset ≤ byteLength file.text.toList
  between : (active.hasRegion = true → DistinctNames (baseFiles w)) → CursorFits w active →
    IsBoundary file.text.toList offset
  fits : (active.hasRegion = true → DistinctNames (baseFiles w) ∧
      ∀ b, w.buffer? active = some b → Matched b.content.toList) →
    IsBoundary file.text.toList offset → CursorFits w active

/-- The position of the cursor in the active buffer; without a buffer it is at the start. -/
def cursorPosition (w : Workspace) (active : BufferId) : Nat :=
  ((w.buffer? active).map (·.position)).getD 0

variable {w w' : Workspace} {active : BufferId} {place : String × Nat}

theorem cursorPosition_of_buffer? {b : Buffer} (hb : w.buffer? active = some b) :
    cursorPosition w active = b.position := by
  rw [cursorPosition, hb]
  rfl

theorem cursorPosition_of_none (hb : w.buffer? active = none) : cursorPosition w active = 0 := by
  rw [cursorPosition, hb]
  rfl

/-- For a whole file, nothing is changed but what whole-file buffers change. -/
theorem files_of_inline (hfile : active.hasRegion = false) (h : inline w active = .ok w') :
    w'.files = baseFiles w := by
  rw [inline_eq] at h
  split at h
  · cases h
  · split at h
    · cases h
    · split at h
      · cases h
      · rw [hfile, if_neg Bool.false_ne_true] at h
        rw [← Except.ok.inj h]
        rfl

theorem lands_of_file (hfile : active.hasRegion = false) (h : inline w active = .ok w')
    (hplace : locatePosition? w' active (cursorPosition w active) = some place) :
    ∃ file ∈ w'.files, file.name = place.1 ∧ Lands w active file place.2 := by
  rw [locatePosition?, hfile] at hplace
  obtain ⟨file, hfind, hplace⟩ := Option.bind_eq_some_iff.mp hplace
  obtain rfl := Option.some.inj hplace
  have hbase : (baseFiles w).find? (·.isNamed active.fileName) = some file := by
    rw [← files_of_inline hfile h]
    exact hfind
  refine ⟨file, List.mem_of_find?_eq_some hfind, rfl, Nat.min_le_right _ _, fun _ hfits => ?_,
    fun _ hbetween => ?_⟩
  · cases hfits with
    | unset hb =>
      rw [cursorPosition_of_none hb, Nat.zero_min]
      exact isBoundary_zero _
    | within b hb hregion | past b hb hregion =>
      rw [hfile] at hregion
      cases hregion
    | inFile b hb _ f hf hcursor =>
      obtain rfl := Option.some.inj (hf.symm.trans hbase)
      rwa [cursorPosition_of_buffer? hb]
  · cases hb : w.buffer? active with
    | none => exact .unset hb
    | some b =>
      rw [cursorPosition_of_buffer? hb] at hbetween
      exact .inFile b hb hfile file hbase hbetween

/-- A position is located in a region that is found in the files and is long enough to be padded. -/
theorem locatePosition?_region (hregion : active.hasRegion = true) {position : Nat}
    (hplace : locatePosition? w active position = some place) :
    ∃ regions r, ofFiles w.files = .ok regions ∧ r ∈ regions ∧ r.bufferId = active ∧
      2 * paddingSize ≤ r.span.length ∧
      place = (r.destination,
        r.span.start + paddingSize + min position (r.span.length - 2 * paddingSize)) := by
  rw [locatePosition?, if_pos hregion] at hplace
  cases hregions : ofFiles w.files with
  | error e =>
    rw [hregions] at hplace
    cases hplace
  | ok regions =>
    rw [hregions] at hplace
    obtain ⟨r, hfind, hplace⟩ := Option.bind_eq_some_iff.mp hplace
    split at hplace
    · cases hplace
    · rename_i hlength
      have hid : (r.bufferId == active) = true := by simpa using List.find?_some hfind
      exact ⟨regions, r, rfl, List.mem_of_find?_eq_some hfind, beq_iff_eq.mp hid,
        Nat.le_of_not_lt hlength, (Option.some.inj hplace).symm⟩

/-- The offsets of a text between its padding. -/
theorem isBoundary_padded {front text back : List Char} {n : Nat} (hn : n ≤ byteLength text) :
    IsBoundary (front ++ ('\n' :: text ++ ['\n']) ++ back) (byteLength front + paddingSize + n) ↔
      IsBoundary text n := by
  have hsplit : front ++ ('\n' :: text ++ ['\n']) ++ back =
      (front ++ ['\n']) ++ (text ++ ('\n' :: back)) := by
    simp
  have hfront : byteLength front + paddingSize = byteLength (front ++ ['\n']) := by
    rw [byteLength_append]
    rfl
  rw [hsplit, hfront, isBoundary_append_left, isBoundary_append_right hn]

/-- Where the region is found, the cursor is between two characters if it is so in the text that stands
for the buffer. -/
theorem exists_standsFor (hregion : active.hasRegion = true) (hnames : DistinctNames (baseFiles w))
    (h : inline w active = .ok w') {regions : List Region} (hregions : ofFiles w'.files = .ok regions)
    {r : Region} (hr : r ∈ regions) (hactive : r.bufferId = active)
    (hlength : 2 * paddingSize ≤ r.span.length) {file : SourceFile} (hfile : file ∈ w'.files)
    (hdestination : r.destination = file.name) (position : Nat) :
    ∃ text, (∀ b, w.buffer? active = some b → StandsFor b text) ∧
      (IsBoundary file.text.toList (r.span.start + paddingSize +
          min position (r.span.length - 2 * paddingSize)) ↔
        IsBoundary text (min position (byteLength text))) := by
  obtain ⟨text, front, back, hregion', hstands⟩ :=
    exists_activeRegion_of_mem hregion hnames h hregions hr hactive hlength
  obtain ⟨file', hfile', hdocument⟩ := hregion'.document
  have hnames' : DistinctNames w'.files := hnames.of_map_name (map_name_of_inline hregion h)
  obtain rfl : file = file' := by
    rw [hdestination, Workspace.file?, hnames'.find?_isNamed hfile] at hfile'
    exact Option.some.inj hfile'
  refine ⟨text, hstands, ?_⟩
  rw [hdocument, hregion'.span_eq]
  exact isBoundary_padded (Nat.min_le_right _ _)

/-- A cursor that fits its buffer is between two characters of the text that stands for it. -/
theorem CursorFits.isBoundary (hregion : active.hasRegion = true) {text : List Char}
    (hstands : ∀ b, w.buffer? active = some b → StandsFor b text) (hfits : CursorFits w active) :
    IsBoundary text (min (cursorPosition w active) (byteLength text)) := by
  cases hfits with
  | unset hb =>
    rw [cursorPosition_of_none hb, Nat.zero_min]
    exact isBoundary_zero text
  | within b hb _ hcursor =>
    obtain ⟨rest, behind, hagrees⟩ := (hstands b hb).agrees
    rw [cursorPosition_of_buffer? hb]
    exact isBoundary_min_of_append_eq hagrees hcursor
  | past b hb _ hmatched hcursor =>
    rw [(hstands b hb).same hmatched] at hcursor
    rw [cursorPosition_of_buffer? hb, Nat.min_eq_right hcursor]
    exact isBoundary_byteLength text
  | inFile b hb hfile =>
    rw [hregion] at hfile
    cases hfile

theorem cursorFits_of_isBoundary (hregion : active.hasRegion = true) {text : List Char}
    (hstands : ∀ b, w.buffer? active = some b → StandsFor b text)
    (hmatched : ∀ b, w.buffer? active = some b → Matched b.content.toList)
    (h : IsBoundary text (min (cursorPosition w active) (byteLength text))) :
    CursorFits w active := by
  cases hb : w.buffer? active with
  | none => exact .unset hb
  | some b =>
    rw [← (hstands b hb).same (hmatched b hb), cursorPosition_of_buffer? hb] at h
    by_cases hle : b.position ≤ byteLength b.content.toList
    · rw [Nat.min_eq_left hle] at h
      exact .within b hb hregion h
    · exact .past b hb hregion (hmatched b hb) (Nat.le_of_not_le hle)

theorem lands_of_region (hregion : active.hasRegion = true) (h : inline w active = .ok w')
    (hplace : locatePosition? w' active (cursorPosition w active) = some place) :
    ∃ file ∈ w'.files, file.name = place.1 ∧ Lands w active file place.2 := by
  obtain ⟨regions, r, hregions, hr, hactive, hlength, rfl⟩ := locatePosition?_region hregion hplace
  obtain ⟨parts, hparts, hflat⟩ := ofFiles_eq_ok_iff.mp hregions
  obtain ⟨file, hfile, part, hpart, hrpart⟩ := exists_file_of_mem_flatten hparts (hflat ▸ hr)
  have hdestination := destination_of_ofFile hpart hrpart
  have hpad : paddingSize = 1 := rfl
  refine ⟨file, hfile, hdestination.symm, ?_⟩
  constructor
  case inside =>
    obtain ⟨o, ho, -, rfl⟩ := ofFile_eq_ok_iff.mp hpart
    obtain ⟨a, m, b, htext, hstart, hlen⟩ := Outline.exists_piece_of_mem_regions hrpart
    rw [← Outline.text_eq_of_lines ho, htext, byteLength_append, byteLength_append]
    dsimp only
    omega
  case between =>
    intro hnames hfits
    obtain ⟨text, hstands, hiff⟩ := exists_standsFor hregion (hnames hregion) h hregions hr hactive
      hlength hfile hdestination (cursorPosition w active)
    exact hiff.mpr (hfits.isBoundary hregion hstands)
  case fits =>
    intro hnames hbetween
    obtain ⟨hnames, hmatched⟩ := hnames hregion
    obtain ⟨text, hstands, hiff⟩ := exists_standsFor hregion hnames h hregions hr hactive
      hlength hfile hdestination (cursorPosition w active)
    exact cursorFits_of_isBoundary hregion hstands hmatched (hiff.mp hbetween)

/-- The place that a compiler is asked about is one in a file that it is given. -/
theorem exists_lands_of_cursorInput? {r : Request} {p : Prepared} {input : CursorInput}
    (h : inline r.workspace r.activeBufferId = .ok p.inlined)
    (hinput : Hub.cursorInput? r p = some input) :
    ∃ file ∈ input.files, file.name = input.fileName ∧
      Lands r.workspace r.activeBufferId file input.offset := by
  obtain ⟨place, hplace, rfl⟩ := Option.map_eq_some_iff.mp hinput
  cases hregion : r.activeBufferId.hasRegion with
  | true => exact lands_of_region hregion h hplace
  | false => exact lands_of_file hregion h hplace

end Playground

import Playground.Proofs.Reextraction
/-!
# The lines of a revised text

What takes the place of a region ends with a line feed, so inlining joins no two lines: the lines of
a revised text are lines that were kept and lines of replacements.  Whatever a buffer holds, the
marker lines of a rewritten region are still there, one right before the replacement and one right
behind it.
-/

namespace Playground

open Inline Text

/-! ## 1. Replacements end with a line feed -/

namespace Inline

theorem endsLine_of_replacement? {t : Target} {r : Region} {body new : List Char}
    (hbody : EndsLine body) (h : replacement? t r body = some new) : EndsLine new := by
  have hpadded : ∀ text, EndsLine (padded text) := fun text => endsLine_append_lf ('\n' :: text)
  unfold replacement? at h
  dsimp only at h
  split at h
  · rw [← Option.some.inj h]
    exact hpadded _
  · split at h
    · cases h
    · split at h
      · rw [← Option.some.inj h]
        exact hpadded _
      · split at h
        · rw [← Option.some.inj h]
          exact endsLine_blank hbody
        · cases h

end Inline

namespace Region

namespace Outline

variable {k : Strays} {t : Target} {file : String}

/-! ## 2. Lines that are kept and lines of replacements -/

/-- The lines of an outline with its edits made. -/
def revisedLines (t : Target) (file : String) {k : Strays} :
    Nat → Outline k → List (List Char)
  | _, done => []
  | offset, line text _ rest => text :: rest.revisedLines t file (offset + byteLength text)
  | offset, block opening name _ body closing _ rest =>
      let start := offset + byteLength opening
      opening :: (match replacement? t (region file name start body) body.text with
        | some new => Text.lines new
        | none => body.revisedLines t file start) ++
        closing :: rest.revisedLines t file (start + byteLength body.text + byteLength closing)
  | offset, unclosed _ opening _ _ rest =>
      opening :: rest.revisedLines t file (offset + byteLength opening)
  | offset, unopened _ closing _ rest =>
      closing :: rest.revisedLines t file (offset + byteLength closing)

theorem flatten_revisedLines (o : Outline k) (offset : Nat) :
    (o.revisedLines t file offset).flatten = o.revised t file offset := by
  induction o generalizing offset with
  | done => rfl
  | line text plain rest ih => rw [revisedLines, revised, List.flatten_cons, ih]
  | block opening name starts body closing stops rest ihbody ihrest =>
    rw [revisedLines, revised]
    cases replacement? t (region file name (offset + byteLength opening) body) body.text with
    | some new => simp [flatten_lines, ihrest]
    | none => simp [ihbody, ihrest]
  | unclosed allowed opening name starts rest ih =>
    rw [revisedLines, revised, List.flatten_cons, ih]
  | unopened allowed closing stops rest ih =>
    rw [revisedLines, revised, List.flatten_cons, ih]

theorem revisedLines_eq_nil {o : Outline k} (h : o.lines = []) (offset : Nat) :
    o.revisedLines t file offset = [] := by
  cases o with
  | done => rfl
  | _ => cases h

theorem isLine_revisedLines {o : Outline k} (offset : Nat) (h : ∀ l ∈ o.lines, IsLine l) :
    ∀ l ∈ o.revisedLines t file offset, IsLine l := by
  induction o generalizing offset with
  | done => exact h
  | line text plain rest ih | unclosed allowed text name starts rest ih
  | unopened allowed text stops rest ih =>
    rw [lines, List.forall_mem_cons] at h
    rw [revisedLines, List.forall_mem_cons]
    exact ⟨h.1, ih _ h.2⟩
  | block opening name starts body closing stops rest ihbody ihrest =>
    rw [forall_mem_lines_block] at h
    rw [revisedLines, List.forall_mem_append, List.forall_mem_cons, List.forall_mem_cons]
    refine ⟨⟨h.1, ?_⟩, h.2.2.1, ihrest _ h.2.2.2⟩
    cases hnew : replacement? t (region file name (offset + byteLength opening) body)
        body.text with
    | some new =>
      intro l hl
      exact isLine_of_mem_lines (endsLine_of_replacement? (endsLine_flatten h.2.1) hnew) hl
    | none => exact ihbody _ h.2.1

theorem areLines_revisedLines {o : Outline k} (offset : Nat) (h : AreLines o.lines) :
    AreLines (o.revisedLines t file offset) := by
  induction o generalizing offset with
  | done => exact h
  | line text plain rest ih | unclosed allowed text name starts rest ih
  | unopened allowed text stops rest ih =>
    exact h.change_tail (fun hnil => revisedLines_eq_nil hnil _) (ih _ h.tail)
  | block opening name starts body closing stops rest ihbody ihrest =>
    have hclosing : AreLines (closing :: rest.lines) := h.right
    have hfront : ∀ l ∈ opening :: body.lines, IsLine l := h.isLine_left (List.cons_ne_nil _ _)
    rw [List.forall_mem_cons] at hfront
    rw [revisedLines]
    refine .append (List.forall_mem_cons.mpr ⟨hfront.1, ?_⟩)
      (hclosing.change_tail (fun hnil => revisedLines_eq_nil hnil _) (ihrest _ hclosing.tail))
    cases hnew : replacement? t (region file name (offset + byteLength opening) body)
        body.text with
    | some new =>
      intro l hl
      exact isLine_of_mem_lines (endsLine_of_replacement? (endsLine_flatten hfront.2) hnew) hl
    | none => exact isLine_revisedLines _ hfront.2

/-- Splitting the revised text gives the kept lines and those of the replacements again. -/
theorem lines_revised {o : Outline k} (h : AreLines o.lines) (offset : Nat) :
    Text.lines (o.revised t file offset) = o.revisedLines t file offset := by
  rw [← flatten_revisedLines, lines_flatten (areLines_revisedLines offset h)]

/-- The replacement of the region `v` stands among the lines, between the marker lines of `v`. -/
inductive Around (t : Target) (file : String) (v : Region) : List (List Char) → Prop where
  | intro {opening name new closing : List Char} {body : Outline .none}
      (before behind : List (List Char))
      (hstarts : Marker.ofLine? opening = some (.start name))
      (hstops : Marker.ofLine? closing = some .stop)
      (hid : v.bufferId = .region file (String.ofList name)) (hbody : ∀ l ∈ body.lines, IsLine l)
      (hnew : replacement? t v body.text = some new) :
      Around t file v (before ++ (opening :: Text.lines new ++ closing :: behind))

theorem Around.append {v : Region} {ls : List (List Char)} (h : Around t file v ls)
    (front back : List (List Char)) : Around t file v (front ++ ls ++ back) := by
  cases h with
  | @intro opening name new closing body before behind hstarts hstops hid hbody hnew =>
    have hlines : front ++ (before ++ (opening :: Text.lines new ++ closing :: behind)) ++ back =
        (front ++ before) ++ (opening :: Text.lines new ++ closing :: (behind ++ back)) := by
      simp
    rw [hlines]
    exact .intro (front ++ before) (behind ++ back) hstarts hstops hid hbody hnew

/-- In the revised text every rewritten region has its replacement between its marker lines. -/
theorem around_revisedLines {o : Outline k} {offset : Nat} (h : AreLines o.lines) {v : Region}
    (hv : v ∈ o.rewritten t file offset) : Around t file v (o.revisedLines t file offset) := by
  induction o generalizing offset with
  | done => cases hv
  | line text plain rest ih | unclosed allowed text name starts rest ih
  | unopened allowed text stops rest ih =>
    have hrest := (ih h.tail hv).append [text] []
    rw [List.append_nil] at hrest
    exact hrest
  | block opening name starts body closing stops rest ihbody ihrest =>
    have hclosing : AreLines (closing :: rest.lines) := h.right
    have hinner : ∀ l ∈ body.lines, IsLine l :=
      h.tail.isLine_left (List.cons_ne_nil closing rest.lines)
    -- behind the block, whatever has become of it
    have hbehind : ∀ {offset : Nat} (front : List (List Char)), v ∈ rest.rewritten t file offset →
        Around t file v (front ++ closing :: rest.revisedLines t file offset) := by
      intro offset front hv
      have hrest := (ihrest hclosing.tail hv).append (front ++ [closing]) []
      rw [List.append_nil, List.append_assoc] at hrest
      exact hrest
    rw [rewritten, List.mem_append] at hv
    rw [revisedLines]
    cases hnew : replacement? t (region file name (offset + byteLength opening) body)
        body.text with
    | some new =>
      rw [hnew, if_pos Option.isSome_some, List.mem_singleton] at hv
      rcases hv with rfl | hv
      · exact .intro [] _ starts stops rfl hinner hnew
      · exact hbehind _ hv
    | none =>
      rw [hnew, if_neg (by simp)] at hv
      rcases hv with hv | hv
      · have hbodyLines : AreLines body.lines := by
          rw [← List.append_nil body.lines]
          exact .append hinner .nil
        exact (ihbody hbodyLines hv).append [opening] _
      · exact hbehind _ hv

end Outline

/-! ## 3. The active region of the inlined files -/

/-- In the file that holds the active region, its replacement stands between its marker lines. -/
theorem exists_around_active {w w' : Workspace} {active : BufferId}
    (hregion : active.hasRegion = true) (hnames : DistinctNames (baseFiles w))
    (h : inline w active = .ok w') :
    ∃ f ∈ baseFiles w, ∃ f' ∈ w'.files, f'.name = f.name ∧
      ∃ regions a, ofFile f = .ok regions ∧ a ∈ regions ∧ a.bufferId = active ∧
        Outline.Around (target w active regions) f.name a (Text.lines f'.text.toList) := by
  obtain ⟨regions, -, hregions, hknown, -, -⟩ := inline_eq_ok hregion h
  obtain ⟨a, ha, hactive⟩ := hknown active (by simp) hregion
  obtain ⟨f, hf, hdestination, -⟩ := fileName_of_ofFiles hregions ha
  obtain ⟨parts, hparts, rfl⟩ := ofFiles_eq_ok_iff.mp hregions
  obtain ⟨f', hf', o, ho, hnodup, rfl⟩ :=
    exists_right_of_mem (inline_outlines hregion hnames h).2 hf
  have hown : ofFile f = .ok (o.regions f.name 0) := ofFile_eq_ok_iff.mpr ⟨o, ho, hnodup, rfl⟩
  -- the regions destined for the file are its own, and the active one is rewritten
  have ha' : a ∈ o.regions f.name 0 := by
    have hfilter := ofFile_eq_filter hparts hnames hf
    rw [hown, Except.ok.injEq] at hfilter
    rw [hfilter]
    exact List.mem_filter.mpr ⟨ha, by rw [isNamed_iff, hdestination]⟩
  have hall : AreRewritten w active (o.regions f.name 0) _ := areRewritten_rewritten hnodup f.name
  have hrewritten := AreRewritten.mem_active (nodup_bufferId_of_ofFile hown) hall ha' hactive
  have hlines : AreLines o.lines := ho ▸ areLines_lines _
  refine ⟨f, hf, _, hf', rfl, o.regions f.name 0, a, hown, ha', hactive, ?_⟩
  rw [String.toList_ofList, Outline.lines_revised hlines]
  exact Outline.around_revisedLines hlines hrewritten

end Region

end Playground

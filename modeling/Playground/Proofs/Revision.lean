import Mathlib.Data.List.TakeWhile
import Playground.Proofs.Inlining
/-!
# Outlines survive inlining

The replacement of a region is made of whole lines, and none of them is a marker unless it stood in
the region before.  So the revised text of an outline has an outline again: every block is still
there, with the outline of its replacement in place of its body.
-/

namespace Playground

open Inline Text

namespace Inline

/-- Region buffers hold no marker lines. -/
def PlainBuffers (w : Workspace) : Prop :=
  ∀ b ∈ w.buffers, b.id.hasRegion = true →
    ∀ l ∈ Text.lines b.content.toList, Region.Marker.ofLine? l = none

/-- Whether the replacement of a rewritten region keeps what the region held: the active region
does, unless it has a buffer. -/
def keeps (w : Workspace) (active : BufferId) (u : Region) : Bool :=
  decide (u.bufferId = active) && (w.buffer? active).isNone

/-- Whether a region is lost: it lies inside a rewritten one whose replacement does not keep it. -/
def erased (w : Workspace) (active : BufferId) (rewritten : List Region) (v : Region) : Bool :=
  rewritten.any fun u =>
    decide (u.destination = v.destination) && decide (u ≠ v) && u.span.containsSpan v.span &&
      !keeps w active u

end Inline

namespace Region

/-! ## 1. Lines that are no markers -/

theorem Marker.ofLine?_append_lf (l : List Char) : ofLine? (l ++ ['\n']) = ofLine? l := by
  have hdrop : dropEndWhile (fun c => c == '\n' || c == '\r') (l ++ ['\n']) =
      dropEndWhile (fun c => c == '\n' || c == '\r') l := by
    rw [dropEndWhile, List.reverse_append, dropEndWhile]
    rfl
  rw [ofLine?, hdrop, ofLine?]

theorem Marker.ofLine?_of_isBlank {l : List Char} (h : ∀ c ∈ l, isBlank c = true) :
    ofLine? l = none := by
  have hdrop : ∀ c ∈ dropEndWhile (fun c => c == '\n' || c == '\r') l, isBlank c = true := by
    intro c hc
    rw [dropEndWhile, List.mem_reverse] at hc
    exact h c (List.mem_reverse.mp ((List.dropWhile_sublist _).mem hc))
  have hlead : afterLead (dropEndWhile (fun c => c == '\n' || c == '\r') l) = [] := by
    rw [afterLead, trimStart, List.dropWhile_eq_nil_iff.mpr hdrop]
  have hstart : startName? (dropEndWhile (fun c => c == '\n' || c == '\r') l) = none := by
    rw [startName?, hlead]
    rfl
  have hstop : isStop (dropEndWhile (fun c => c == '\n' || c == '\r') l) = false := by
    rw [isStop, hlead]
    rfl
  rw [ofLine?, hstart, hstop]
  rfl

theorem Marker.ofLine?_lf : ofLine? ['\n'] = none := by
  refine ofLine?_of_isBlank fun c hc => ?_
  rw [List.mem_singleton.mp hc]
  rfl

theorem isBlank_of_mem_blank {cs : List Char} {c : Char} (h : c ∈ blank cs) :
    isBlank c = true := by
  rw [blank, List.mem_flatMap] at h
  obtain ⟨d, -, hc⟩ := h
  split at hc
  · rename_i hd
    rw [List.mem_singleton.mp hc]
    rcases hd with rfl | rfl <;> decide
  · rw [(List.mem_replicate.mp hc).2]
    decide

namespace Outline

variable {k : Strays} {t : Target} {file : String}

/-! ## 2. Outlines of replacements -/

theorem exists_plain (ls : List (List Char)) (h : ∀ l ∈ ls, Marker.ofLine? l = none) :
    ∃ o : Outline .none, o.lines = ls ∧ o.names = [] := by
  induction ls with
  | nil => exact ⟨done, rfl, rfl⟩
  | cons l ls ih =>
    rw [List.forall_mem_cons] at h
    obtain ⟨o, hlines, hnames⟩ := ih h.2
    exact ⟨line l h.1 o, by rw [lines, hlines], hnames⟩

theorem exists_append_line (o : Outline k) {l : List Char} (h : Marker.ofLine? l = none) :
    ∃ o' : Outline k, o'.lines = o.lines ++ [l] ∧ o'.names = o.names := by
  induction o with
  | done => exact ⟨line l h done, rfl, rfl⟩
  | line text plain rest ih =>
    obtain ⟨o', hlines, hnames⟩ := ih
    exact ⟨line text plain o', by rw [lines, hlines]; rfl, hnames⟩
  | block opening name starts body closing stops rest _ ih =>
    obtain ⟨o', hlines, hnames⟩ := ih
    exact ⟨block opening name starts body closing stops o', by simp [lines, hlines],
      by rw [names, hnames, names]⟩
  | unclosed allowed opening name starts rest ih =>
    obtain ⟨o', hlines, hnames⟩ := ih
    exact ⟨unclosed allowed opening name starts o', by rw [lines, hlines]; rfl,
      by rw [names, hnames, names]⟩
  | unopened allowed closing stops rest ih =>
    obtain ⟨o', hlines, hnames⟩ := ih
    exact ⟨unopened allowed closing stops o', by rw [lines, hlines]; rfl, hnames⟩

/-- The padded text of an outline has the same regions, between two empty lines. -/
theorem exists_padded {body : Outline .none} (hbody : ∀ l ∈ body.lines, IsLine l) :
    ∃ o : Outline .none, o.text = padded body.text ∧ (∀ l ∈ o.lines, IsLine l) ∧
      o.names = body.names := by
  obtain ⟨o, hlines, hnames⟩ := body.exists_append_line Marker.ofLine?_lf
  refine ⟨line ['\n'] Marker.ofLine?_lf o, ?_, ?_, hnames⟩
  · rw [text, lines, hlines, padded, text]
    simp
  · rw [lines, hlines, List.forall_mem_cons]
    refine ⟨isLine_lf, fun l hl => ?_⟩
    rcases List.mem_append.mp hl with hl | hl
    · exact hbody l hl
    · rw [List.mem_singleton.mp hl]
      exact isLine_lf

theorem exists_of_lines {cs : List Char} (hends : EndsLine cs)
    (h : ∀ l ∈ Text.lines cs, Marker.ofLine? l = none) :
    ∃ o : Outline .none, o.text = cs ∧ (∀ l ∈ o.lines, IsLine l) ∧ o.names = [] := by
  obtain ⟨o, hlines, hnames⟩ := exists_plain _ h
  refine ⟨o, text_eq_of_lines hlines, fun l hl => ?_, hnames⟩
  rw [hlines] at hl
  exact isLine_of_mem_lines hends hl

/-- Padded text without marker lines has none either. -/
theorem exists_padded_plain {cs : List Char} (h : ∀ l ∈ Text.lines cs, Marker.ofLine? l = none) :
    ∃ o : Outline .none, o.text = padded cs ∧ (∀ l ∈ o.lines, IsLine l) ∧ o.names = [] := by
  refine exists_of_lines (endsLine_append_lf ('\n' :: cs)) fun l hl => ?_
  rw [padded, List.cons_append, lines_cons_lf] at hl
  rcases List.mem_cons.mp hl with rfl | hl
  · exact Marker.ofLine?_lf
  · obtain ⟨old, hold, hl⟩ := mem_lines_append_lf hl
    have hplain : Marker.ofLine? old = none := by
      rcases hold with rfl | hold
      · exact Marker.ofLine?_of_isBlank fun c hc => absurd hc List.not_mem_nil
      · exact h old hold
    rcases hl with rfl | rfl
    · exact hplain
    · rw [Marker.ofLine?_append_lf, hplain]

theorem exists_blank {body : Outline .none} (hbody : ∀ l ∈ body.lines, IsLine l) :
    ∃ o : Outline .none, o.text = blank body.text ∧ (∀ l ∈ o.lines, IsLine l) ∧ o.names = [] := by
  refine exists_of_lines (endsLine_blank (endsLine_flatten hbody)) fun l hl => ?_
  exact Marker.ofLine?_of_isBlank fun c hc => isBlank_of_mem_blank (mem_of_mem_lines hl hc)

/-! ## 3. The revised outline -/

/-- The outline with a replacement in the place of the body of every block that has one. -/
inductive Revised (t : Target) (file : String) :
    {k : Strays} → Nat → Outline k → Outline k → Prop where
  | done {k : Strays} (offset : Nat) : Revised t file offset (done : Outline k) done
  | line {k : Strays} {offset : Nat} {text : List Char} {plain} {rest rest' : Outline k}
      (hrest : Revised t file (offset + byteLength text) rest rest') :
      Revised t file offset (line text plain rest) (line text plain rest')
  | change {k : Strays} {offset : Nat} {opening name : List Char} {starts}
      {body body' : Outline .none} {closing : List Char} {stops} {rest rest' : Outline k}
      (hnew : replacement? t (region file name (offset + byteLength opening) body) body.text =
        some body'.text)
      (hlines : ∀ l ∈ body'.lines, IsLine l)
      (hnames : body'.names =
        if keeps t.workspace t.active (region file name (offset + byteLength opening) body)
          then body.names else [])
      (hrest : Revised t file
        (offset + byteLength opening + byteLength body.text + byteLength closing) rest rest') :
      Revised t file offset (block opening name starts body closing stops rest)
        (block opening name starts body' closing stops rest')
  | enter {k : Strays} {offset : Nat} {opening name : List Char} {starts}
      {body body' : Outline .none} {closing : List Char} {stops} {rest rest' : Outline k}
      (hnone : replacement? t (region file name (offset + byteLength opening) body) body.text =
        none)
      (hbody : Revised t file (offset + byteLength opening) body body')
      (hrest : Revised t file
        (offset + byteLength opening + byteLength body.text + byteLength closing) rest rest') :
      Revised t file offset (block opening name starts body closing stops rest)
        (block opening name starts body' closing stops rest')
  | unclosed {k : Strays} {offset : Nat} {allowed : k ≠ .none} {opening name : List Char} {starts}
      {rest rest' : Outline .unclosed}
      (hrest : Revised t file (offset + byteLength opening) rest rest') :
      Revised t file offset (unclosed allowed opening name starts rest)
        (unclosed allowed opening name starts rest')
  | unopened {k : Strays} {offset : Nat} {allowed : k = .any} {closing : List Char} {stops}
      {rest rest' : Outline k}
      (hrest : Revised t file (offset + byteLength closing) rest rest') :
      Revised t file offset (unopened allowed closing stops rest)
        (unopened allowed closing stops rest')

theorem exists_replacement {w : Workspace} {active : BufferId} {regions : List Region}
    (hplain : PlainBuffers w) {v : Region} (hv : v.bufferId.hasRegion = true)
    {body : Outline .none} (hbody : ∀ l ∈ body.lines, IsLine l) {new : List Char}
    (h : replacement? (target w active regions) v body.text = some new) :
    ∃ body' : Outline .none, body'.text = new ∧ (∀ l ∈ body'.lines, IsLine l) ∧
      body'.names = if keeps w active v then body.names else [] := by
  -- the content of a buffer has no markers, whichever region it is for
  have hbuffer : ∀ b, w.buffer? v.bufferId = some b →
      ∃ body' : Outline .none, body'.text = padded b.content.toList ∧
        (∀ l ∈ body'.lines, IsLine l) ∧ body'.names = [] := by
    intro b hb
    have hid : b.id = v.bufferId := by simpa using List.find?_some hb
    exact exists_padded_plain (hplain b (List.mem_of_find?_eq_some hb) (by rw [hid, hv]))
  rw [replacement?_target] at h
  by_cases hactive : v.bufferId = active
  · rw [if_pos hactive, Option.some.injEq] at h
    rw [hactive] at hbuffer
    subst h
    rw [keeps, decide_eq_true hactive, Bool.true_and]
    -- only the active region may keep its own body, and with it the names inside
    cases hb : w.buffer? active with
    | some b => exact hbuffer b hb
    | none => exact exists_padded hbody
  · rw [if_neg hactive] at h
    rw [keeps, decide_eq_false hactive, Bool.false_and, if_neg Bool.false_ne_true]
    split at h
    · cases h
    · cases hb : w.buffer? v.bufferId with
      | some b =>
        rw [hb, Option.some.injEq] at h
        subst h
        exact hbuffer b hb
      | none =>
        rw [hb] at h
        dsimp only at h
        split at h
        · rw [Option.some.injEq] at h
          subst h
          exact exists_blank hbody
        · cases h

theorem hasRegion_region {name : List Char} (hname : name ≠ []) (start : Nat) (body : Outline k) :
    (region file name start body).bufferId.hasRegion = true := by
  have hne : String.ofList name ≠ "" := by simpa using hname
  show (if String.ofList name = "" then none else some (String.ofList name)).isSome = true
  rw [if_neg hne]
  rfl

theorem exists_revised {w : Workspace} (hplain : PlainBuffers w) (active : BufferId)
    (regions : List Region) (file : String) (o : Outline k) (offset : Nat)
    (hlines : AreLines o.lines) :
    ∃ o', Revised (target w active regions) file offset o o' := by
  induction o generalizing offset with
  | done => exact ⟨done, .done offset⟩
  | line text plain rest ih =>
    obtain ⟨rest', hrest⟩ := ih (offset + byteLength text) hlines.tail
    exact ⟨line text plain rest', .line hrest⟩
  | block opening name starts body closing stops rest ihbody ihrest =>
    have hparts : AreLines (body.lines ++ closing :: rest.lines) := hlines.tail
    have hbody : ∀ l ∈ body.lines, IsLine l := hparts.isLine_left (List.cons_ne_nil _ _)
    obtain ⟨rest', hrest⟩ := ihrest
      (offset + byteLength opening + byteLength body.text + byteLength closing) hparts.right.tail
    -- a block either gets another body at once, or its body is revised in turn
    cases hnew : replacement? (target w active regions)
        (region file name (offset + byteLength opening) body) body.text with
    | some new =>
      obtain ⟨body', rfl, hlines', hnames'⟩ := exists_replacement hplain
        (hasRegion_region (Marker.name_ne_nil starts) _ body) hbody hnew
      exact ⟨block opening name starts body' closing stops rest',
        .change hnew hlines' hnames' hrest⟩
    | none =>
      have hbody' : AreLines body.lines := by
        rw [← List.append_nil body.lines]
        exact .append hbody .nil
      obtain ⟨body', hbody'⟩ := ihbody (offset + byteLength opening) hbody'
      exact ⟨block opening name starts body' closing stops rest', .enter hnew hbody' hrest⟩
  | unclosed allowed opening name starts rest ih =>
    obtain ⟨rest', hrest⟩ := ih (offset + byteLength opening) hlines.tail
    exact ⟨unclosed allowed opening name starts rest', .unclosed hrest⟩
  | unopened allowed closing stops rest ih =>
    obtain ⟨rest', hrest⟩ := ih (offset + byteLength closing) hlines.tail
    exact ⟨unopened allowed closing stops rest', .unopened hrest⟩

theorem forall_mem_lines_block {p : List Char → Prop} {opening name : List Char} {starts}
    {body : Outline .none} {closing : List Char} {stops} {rest : Outline k} :
    (∀ l ∈ (block opening name starts body closing stops rest).lines, p l) ↔
      p opening ∧ (∀ l ∈ body.lines, p l) ∧ p closing ∧ ∀ l ∈ rest.lines, p l := by
  rw [lines, List.forall_mem_append, List.forall_mem_cons, List.forall_mem_cons, and_assoc]

namespace Revised

variable {offset : Nat} {o o' : Outline k}

theorem text_eq (h : Revised t file offset o o') : o'.text = o.revised t file offset := by
  induction h with
  | done => rfl
  | line _ ih => rw [text_line, revised, ih]
  | change hnew _ _ _ ih => rw [text_block, revised, hnew, ih]; rfl
  | enter hnone _ _ ihbody ihrest => rw [text_block, revised, hnone, ihbody, ihrest]; rfl
  | unclosed _ ih => rw [text_unclosed, revised, ih]
  | unopened _ ih => rw [text_unopened, revised, ih]

theorem lines_eq_nil (h : Revised t file offset o o') (hnil : o.lines = []) : o'.lines = [] := by
  cases h with
  | done => rfl
  | _ => cases hnil

theorem isLine (h : Revised t file offset o o') (hlines : ∀ l ∈ o.lines, IsLine l) :
    ∀ l ∈ o'.lines, IsLine l := by
  induction h with
  | done => exact hlines
  | line _ ih | unclosed _ ih | unopened _ ih =>
    rw [lines, List.forall_mem_cons] at hlines ⊢
    exact ⟨hlines.1, ih hlines.2⟩
  | change _ hnew _ _ ih =>
    rw [forall_mem_lines_block] at hlines ⊢
    exact ⟨hlines.1, hnew, hlines.2.2.1, ih hlines.2.2.2⟩
  | enter _ _ _ ihbody ihrest =>
    rw [forall_mem_lines_block] at hlines ⊢
    exact ⟨hlines.1, ihbody hlines.2.1, hlines.2.2.1, ihrest hlines.2.2.2⟩

theorem areLines (h : Revised t file offset o o') (hlines : AreLines o.lines) :
    AreLines o'.lines := by
  have hblock : ∀ {opening closing : List Char} {body body' rest rest' : List (List Char)},
      AreLines (opening :: body ++ closing :: rest) → (∀ l ∈ body', IsLine l) →
      (rest = [] → rest' = []) → (AreLines rest → AreLines rest') →
      AreLines (opening :: body' ++ closing :: rest') := by
    intro opening closing body body' rest rest' h hbody' hnil hrest
    have hopening : IsLine opening := h.isLine_left (List.cons_ne_nil _ _) _ List.mem_cons_self
    have hclosing : AreLines (closing :: rest) := h.right
    exact .append (List.forall_mem_cons.mpr ⟨hopening, hbody'⟩)
      (hclosing.change_tail hnil (hrest hclosing.tail))
  induction h with
  | done => exact hlines
  | line hrest ih | unclosed hrest ih | unopened hrest ih =>
    exact hlines.change_tail hrest.lines_eq_nil (ih hlines.tail)
  | change _ hnew _ hrest ih => exact hblock hlines hnew hrest.lines_eq_nil ih
  | enter _ hbody hrest _ ihrest =>
    have hbody' := hbody.isLine (hlines.tail.isLine_left (List.cons_ne_nil _ _))
    exact hblock hlines hbody' hrest.lines_eq_nil ihrest

theorem names_sublist (h : Revised t file offset o o') : o'.names.Sublist o.names := by
  induction h with
  | done => exact List.Sublist.refl _
  | line _ ih => exact ih
  | change _ _ hnames _ ih =>
    rw [names, names, hnames]
    refine List.Sublist.append (List.Sublist.cons_cons _ ?_) ih
    split
    · exact List.Sublist.refl _
    · exact List.nil_sublist _
  | enter _ _ _ ihbody ihrest => exact (ihbody.cons_cons _).append ihrest
  | unclosed _ ih => exact ih.cons_cons _
  | unopened _ ih => exact ih

end Revised

/-! ## 4. The regions of the revised outline -/

theorem names_eq_regionNames (o : Outline .none) : o.names = o.regionNames := by
  generalize hk : Strays.none = k at o
  induction o with
  | done => rfl
  | line text plain rest ih => exact ih hk
  | block opening name starts body closing stops rest ihbody ihrest =>
    rw [names, regionNames, ihbody rfl, ihrest hk]
  | unclosed allowed => exact absurd hk.symm allowed
  | unopened allowed => subst allowed; cases hk

/-- The regions of an outline that are not lost when it is revised. -/
def kept (t : Target) (file : String) {k : Strays} : Nat → Outline k → List Region
  | _, done => []
  | offset, line text _ rest => rest.kept t file (offset + byteLength text)
  | offset, block opening name _ body closing _ rest =>
      let start := offset + byteLength opening
      let r := region file name start body
      r :: (match replacement? t r body.text with
        | some _ => if keeps t.workspace t.active r then body.regions file start else []
        | none => body.kept t file start) ++
        rest.kept t file (start + byteLength body.text + byteLength closing)
  | offset, unclosed _ opening _ _ rest => rest.kept t file (offset + byteLength opening)
  | offset, unopened _ closing _ rest => rest.kept t file (offset + byteLength closing)

theorem Revised.map_bufferId_regions {o o' : Outline k} {offset : Nat}
    (h : Revised t file offset o o') (offset' : Nat) :
    (o'.regions file offset').map (·.bufferId) = (o.kept t file offset).map (·.bufferId) := by
  induction h generalizing offset' with
  | done => rfl
  | line _ ih | unclosed _ ih | unopened _ ih => exact ih _
  | @change _ offset opening name _ body body' _ _ _ _ hnew _ hnames _ ih =>
    have hbody : (body'.regions file (offset' + byteLength opening)).map (·.bufferId) =
        (if keeps t.workspace t.active (region file name (offset + byteLength opening) body)
          then body.regions file (offset + byteLength opening) else []).map (·.bufferId) := by
      rw [Outline.map_bufferId_regions, ← names_eq_regionNames, hnames]
      split
      · rw [Outline.map_bufferId_regions, ← names_eq_regionNames]
      · rfl
    rw [regions, kept, hnew]
    simp only [List.map_cons, List.map_append, hbody, ih]
    rfl
  | enter hnone _ _ ihbody ihrest =>
    rw [regions, kept, hnone]
    simp only [List.map_cons, List.map_append, ihbody, ihrest]
    rfl

theorem erased_append {w : Workspace} {active : BufferId} (a b : List Region) (v : Region) :
    erased w active (a ++ b) v = (erased w active a v || erased w active b v) := List.any_append

theorem erased_of_uncontained {w : Workspace} {active : BufferId} {us : List Region} {v : Region}
    (h : Uncontained us v) : erased w active us v = false := by
  rw [erased, List.any_eq_false]
  intro u hu herased
  simp only [Bool.and_eq_true, decide_eq_true_eq] at herased
  exact h u hu herased.1.1.2 herased.1.2

theorem erased_body {w : Workspace} {active : BufferId} {name : List Char} {start : Nat}
    {body : Outline .none} {v : Region} (hv : v ∈ body.regions file start) :
    erased w active [region file name start body] v =
      !keeps w active (region file name start body) := by
  obtain ⟨hne, hcontains⟩ := region_contains name hv
  have hfile : (region file name start body).destination = v.destination :=
    (destination_of_mem_regions hv).symm
  rw [erased, List.any_cons, List.any_nil, Bool.or_false, hcontains, decide_eq_true hfile,
    decide_eq_true hne]
  rfl

theorem filter_cons_erased {w : Workspace} {active : BufferId} {front behind inner : List Region}
    {r : Region} (hfront : erased w active front r = false)
    (hbehind : erased w active behind r = false)
    (hinner : ∀ v ∈ inner, erased w active behind v = false) :
    (r :: inner).filter (fun v => !erased w active (front ++ behind) v) =
      r :: inner.filter fun v => !erased w active front v := by
  rw [List.filter_cons_of_pos (by rw [erased_append, hfront, hbehind]; rfl)]
  refine congrArg _ (List.filter_congr fun v hv => ?_)
  rw [erased_append, hinner v hv, Bool.or_false]

/-- The kept regions are those that lie in no rewritten region that loses them. -/
theorem kept_eq_filter (o : Outline k) (offset : Nat) :
    o.kept t file offset = (o.regions file offset).filter fun v =>
      !erased t.workspace t.active (o.rewritten t file offset) v := by
  induction o generalizing offset with
  | done => rfl
  | line text plain rest ih => exact ih _
  | block opening name starts body closing stops rest ihbody ihrest =>
    have hoffset : offset + byteLength opening + byteLength body.text ≤
        offset + byteLength opening + byteLength body.text + byteLength closing :=
      Nat.le_add_right _ _
    rw [kept, regions, rewritten, List.filter_append, ihrest]
    obtain ⟨hbody, hrest⟩ := apart_of_region t file name rest hoffset
    -- what is rewritten of the block does not erase the region of the block itself
    have hown : erased t.workspace t.active
        (if (replacement? t (region file name (offset + byteLength opening) body)
          body.text).isSome then [region file name (offset + byteLength opening) body]
          else body.rewritten t file (offset + byteLength opening))
        (region file name (offset + byteLength opening) body) = false := by
      split
      · exact erased_of_uncontained (uncontained_self _)
      · exact erased_of_uncontained hbody.2
    rw [filter_cons_erased hown (erased_of_uncontained hrest.2) fun v hv =>
      erased_of_uncontained (apart_of_mem_body t rest hv hoffset).2]
    refine congrArg₂ (· ++ ·) (congrArg _ ?_) (List.filter_congr fun v hv => ?_)
    · -- the body: if the block is rewritten, its regions are kept or erased all together
      cases hnew : replacement? t (region file name (offset + byteLength opening) body)
          body.text with
      | some new =>
        rw [if_pos Option.isSome_some]
        dsimp only
        split
        · rename_i hkeeps
          refine (List.filter_eq_self.mpr fun v hv => ?_).symm
          rw [erased_body hv, hkeeps]
          rfl
        · rename_i hkeeps
          refine (List.filter_eq_nil_iff.mpr fun v hv => ?_).symm
          rw [erased_body hv, Bool.eq_false_of_not_eq_true hkeeps]
          exact Bool.false_ne_true
      | none => exact ihbody _
    · -- behind the block
      have hblock := apart_of_mem_rest t name hv hoffset rfl
      rw [erased_append, erased_of_uncontained hblock.2, Bool.false_or]
  | unclosed allowed opening name starts rest ih => exact ih _
  | unopened allowed closing stops rest ih => exact ih _

/-- Whether the region `v` of a text has a counterpart among the regions of another text that holds
the replacement of what `v` holds. -/
def Found (t : Target) (v : Region) (text : List Char) (regions' : List Region)
    (text' : List Char) : Prop :=
  ∃ v' ∈ regions', v'.bufferId = v.bufferId ∧ ∃ old new, v.content? text = some old ∧
    v'.content? text' = some new ∧ replacement? t v old = some new

theorem Found.mono {v : Region} {text text' : List Char} {rs rs' : List Region}
    (h : Found t v text rs text') (hsub : ∀ r ∈ rs, r ∈ rs') : Found t v text rs' text' := by
  obtain ⟨v', hv', hfound⟩ := h
  exact ⟨v', hsub v' hv', hfound⟩

theorem Found.behind {v : Region} {front front' back back' opening name closing : List Char}
    {starts stops} {body body' : Outline .none} {rest rest' : Outline k}
    (h : Found t v ((front ++ opening ++ body.text ++ closing) ++ rest.text ++ back)
      (rest'.regions file (byteLength (front' ++ opening ++ body'.text ++ closing)))
      ((front' ++ opening ++ body'.text ++ closing) ++ rest'.text ++ back')) :
    Found t v (front ++ (block opening name starts body closing stops rest).text ++ back)
      ((block opening name starts body' closing stops rest').regions file (byteLength front'))
      (front' ++ (block opening name starts body' closing stops rest').text ++ back') := by
  rw [append_text_rest, append_text_rest]
  refine h.mono fun r hr => ?_
  simp only [byteLength_append] at hr
  exact List.mem_append_right _ hr

/-- A rewritten region is found again, and it holds its replacement. -/
theorem Revised.found {o o' : Outline k} {offset : Nat} (h : Revised t file offset o o')
    (front : List Char) (hfront : byteLength front = offset) (front' back back' : List Char)
    {v : Region} (hv : v ∈ o.rewritten t file offset) :
    Found t v (front ++ o.text ++ back) (o'.regions file (byteLength front'))
      (front' ++ o'.text ++ back') := by
  induction h generalizing front front' back back' with
  | done => cases hv
  | @line _ _ text _ _ _ _ ih =>
    subst hfront
    have hfound := ih _ (byteLength_append front text) (front' ++ text) back back' hv
    rw [byteLength_append] at hfound
    simpa [regions] using hfound
  | @change _ offset opening name starts body body' closing stops rest rest' hnew _ _ _ ih =>
    subst hfront
    rw [rewritten, hnew, if_pos Option.isSome_some, List.mem_append, List.mem_singleton] at hv
    rcases hv with rfl | hv
    · -- the region of the block, between its two marker lines in both texts
      refine ⟨_, List.mem_cons_self, rfl, body.text, body'.text, ?_, ?_, hnew⟩
      · rw [append_text_body, ← byteLength_append]
        exact content?_region name (front ++ opening) body _
      · rw [append_text_body, ← byteLength_append]
        exact content?_region name (front' ++ opening) body' _
    · exact (ih _ (by simp only [byteLength_append]) _ back back' hv).behind
  | @enter _ offset opening name starts body body' closing stops rest rest' hnone _ _ ihbody
      ihrest =>
    subst hfront
    rw [rewritten, hnone, if_neg (by simp), List.mem_append] at hv
    rcases hv with hv | hv
    · -- a region in the body, around which the end line and the rest are `back`
      have hfound := ihbody _ (byteLength_append front opening) (front' ++ opening)
        (closing ++ rest.text ++ back) (closing ++ rest'.text ++ back') hv
      rw [append_text_body, append_text_body]
      refine hfound.mono fun r hr => ?_
      rw [byteLength_append] at hr
      exact List.mem_append_left _ (List.mem_cons_of_mem _ hr)
    · exact (ihrest _ (by simp only [byteLength_append]) _ back back' hv).behind
  | @unclosed _ _ _ opening _ _ _ _ _ ih =>
    subst hfront
    have hfound := ih _ (byteLength_append front opening) (front' ++ opening) back back' hv
    rw [byteLength_append] at hfound
    simpa [regions] using hfound
  | @unopened _ _ _ closing _ _ _ _ ih =>
    subst hfront
    have hfound := ih _ (byteLength_append front closing) (front' ++ closing) back back' hv
    rw [byteLength_append] at hfound
    simpa [regions] using hfound

end Outline

end Region

end Playground

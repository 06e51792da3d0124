import Playground.Inline
import Playground.Proofs.Extraction
/-!
# Inlining follows the outline

The edits of a file are collected from a sorted list of regions, skipping what lies inside an
earlier edit.  On the outline this is a recursion: a block that has a replacement gets it, and only
a block without one is entered.

`Replaced` says what it means to replace stretches of one text simultaneously: all spans are
counted in the text as it was.  The edits of a file are applied one after the other from back to
front, and that comes to the same.
-/

namespace Playground.Inline

open Text

/-! ## 1. Replacing several stretches of a text at once -/

/-- The last text is `text` with the spans of the edits replaced all at once.  The first character
of `text` stands at `offset`; the edits follow each other and everything between them is kept. -/
inductive Replaced : Nat → List Char → List Edit → List Char → Prop where
  | done (offset : Nat) (text : List Char) : Replaced offset text [] text
  | edit {offset : Nat} {e : Edit} {es : List Edit} {kept old rest rest' : List Char}
      (hspan : e.span = ⟨offset + byteLength kept, byteLength old⟩)
      (hrest : Replaced (offset + byteLength kept + byteLength old) rest es rest') :
      Replaced offset (kept ++ (old ++ rest)) (e :: es) (kept ++ (e.text ++ rest'))

namespace Replaced

variable {offset : Nat} {text text' more more' : List Char} {es fs : List Edit}

theorem keep (kept : List Char) (h : Replaced (offset + byteLength kept) text es text') :
    Replaced offset (kept ++ text) es (kept ++ text') := by
  cases h with
  | done => exact .done _ _
  | @edit _ e es kept' old rest rest' hspan hrest =>
    have hspan' : e.span = ⟨offset + byteLength (kept ++ kept'), byteLength old⟩ := by
      rw [hspan, byteLength_append, Nat.add_assoc]
    have hrest' :
        Replaced (offset + byteLength (kept ++ kept') + byteLength old) rest es rest' := by
      rw [byteLength_append, ← Nat.add_assoc]
      exact hrest
    simpa using Replaced.edit hspan' hrest'

theorem append (h : Replaced offset text es text')
    (hmore : Replaced (offset + byteLength text) more fs more') :
    Replaced offset (text ++ more) (es ++ fs) (text' ++ more') := by
  induction h with
  | done offset text => exact hmore.keep text
  | @edit offset e es kept old rest rest' hspan hrest ih =>
    have hmore' : Replaced (offset + byteLength kept + byteLength old + byteLength rest)
        more fs more' := by
      simpa [byteLength_append, Nat.add_assoc] using hmore
    simpa using Replaced.edit hspan (ih hmore')

/-- Behind a part that is not looked at any more, the edits applied from the last one on give the
text with all of them replaced: an edit moves only what is already done. -/
theorem applyEdits_reverse (h : Replaced offset text es text') (front : List Char)
    (hfront : byteLength front = offset) :
    applyEdits (front ++ text) es.reverse = some (front ++ text') := by
  induction h generalizing front with
  | done offset text => rfl
  | @edit offset e es kept old rest rest' hspan hrest ih =>
    have hlater := ih (front ++ kept ++ old) (by simp [byteLength_append, hfront, Nat.add_assoc])
    have hthis : splice (front ++ kept ++ old ++ rest') e.span.start e.span.stop e.text =
        some (front ++ kept ++ e.text ++ rest') := by
      rw [Span.stop, hspan, ← hfront, ← byteLength_append]
      exact splice_append (front ++ kept) old rest' e.text
    rw [applyEdits, List.reverse_cons, List.foldlM_append, ← applyEdits,
      show front ++ (kept ++ (old ++ rest)) = front ++ kept ++ old ++ rest by simp, hlater]
    show (splice (front ++ kept ++ old ++ rest') e.span.start e.span.stop e.text).bind some = _
    rw [hthis]
    simp

end Replaced

/-- Edits that start one after the other are applied from back to front. -/
theorem revise_of_replaced {text text' : List Char} {es : List Edit}
    (h : Replaced 0 text es text')
    (hstarts : es.Pairwise fun a b => a.span.start < b.span.start) :
    revise text es = some text' := by
  have hsort : es.mergeSort (fun a b => decide (b.span.start ≤ a.span.start)) = es.reverse := by
    refine mergeSort_eq_of_perm ?_ ?_ es.reverse_perm.symm
      (List.pairwise_reverse.mpr (hstarts.imp fun hlt => ?_))
    · intro a b c hab hbc
      rw [decide_eq_true_eq] at *
      exact Nat.le_trans hbc hab
    · intro a b
      rw [Bool.or_eq_true, decide_eq_true_eq, decide_eq_true_eq]
      exact Nat.le_total _ _
    · rw [decide_eq_true_eq, decide_eq_false_iff_not]
      omega
  rw [revise, hsort]
  exact h.applyEdits_reverse [] rfl

end Playground.Inline

namespace Playground

open Inline Text

theorem Span.containsSpan_iff {a b : Span} :
    a.containsSpan b = true ↔ a.start ≤ b.start ∧ b.stop ≤ a.stop := by
  rw [Span.containsSpan, Bool.and_eq_true, decide_eq_true_eq, decide_eq_true_eq]

theorem Span.not_containsSpan_of_start_lt {a b : Span} (h : b.start < a.start) :
    ¬a.containsSpan b = true := by
  rw [containsSpan_iff]
  omega

theorem Span.not_containsSpan_of_lt_start {a b : Span} (h : a.stop < b.start) :
    ¬a.containsSpan b = true := by
  have hb : b.start ≤ b.stop := Nat.le_add_right _ _
  rw [containsSpan_iff]
  omega

namespace Region.Outline

variable {k : Strays} {t : Target} {file : String}

/-! ## 2. The edits of an outline and their regions -/

/-- The regions that the edits of an outline are made for. -/
def rewritten (t : Target) (file : String) {k : Strays} : Nat → Outline k → List Region
  | _, done => []
  | offset, line text _ rest => rest.rewritten t file (offset + byteLength text)
  | offset, block opening name _ body closing _ rest =>
      let start := offset + byteLength opening
      (if (replacement? t (region file name start body) body.text).isSome
        then [region file name start body] else body.rewritten t file start) ++
        rest.rewritten t file (start + byteLength body.text + byteLength closing)
  | offset, unclosed _ opening _ _ rest =>
      rest.rewritten t file (offset + byteLength opening)
  | offset, unopened _ closing _ rest =>
      rest.rewritten t file (offset + byteLength closing)

theorem rewritten_sublist (o : Outline k) (offset : Nat) :
    (o.rewritten t file offset).Sublist (o.regions file offset) := by
  induction o generalizing offset with
  | done => exact List.Sublist.refl _
  | line text plain rest ih => exact ih _
  | block opening name starts body closing stops rest ihbody ihrest =>
    rw [rewritten, regions, List.cons_append]
    split
    · exact ((List.nil_sublist _).append (ihrest _)).cons_cons _
    · exact ((ihbody _).append (ihrest _)).cons _
  | unclosed allowed opening name starts rest ih => exact ih _
  | unopened allowed closing stops rest ih => exact ih _

theorem range_of_mem_rewritten {o : Outline k} {offset : Nat} {r : Region}
    (hr : r ∈ o.rewritten t file offset) :
    offset < r.span.start ∧ r.span.stop < offset + byteLength o.text :=
  range_of_mem_regions ((o.rewritten_sublist offset).mem hr)

/-- The region of a block contains every region inside it. -/
theorem region_contains (name : List Char) {start : Nat} {body : Outline .none} {v : Region}
    (hv : v ∈ body.regions file start) :
    region file name start body ≠ v ∧
      (region file name start body).span.containsSpan v.span = true := by
  have hv' := range_of_mem_regions hv
  constructor
  · rintro rfl
    exact Nat.lt_irrefl _ hv'.1
  · rw [Span.containsSpan_iff, region_start, region_stop]
    omega

/-- What is rewritten of a block lies within its region. -/
theorem range_of_mem_rewritten_block {name : List Char} {start : Nat} {body : Outline .none}
    {u : Region} (hu : u ∈ if (replacement? t (region file name start body) body.text).isSome
      then [region file name start body] else body.rewritten t file start) :
    start ≤ u.span.start ∧ u.span.stop ≤ start + byteLength body.text := by
  split at hu
  · rw [List.mem_singleton.mp hu, region_start, region_stop]
    omega
  · have hu' := range_of_mem_rewritten hu
    omega

/-- Rewritten regions lie apart. -/
theorem pairwise_rewritten (o : Outline k) (offset : Nat) :
    (o.rewritten t file offset).Pairwise fun a b => a.span.stop < b.span.start := by
  induction o generalizing offset with
  | done => exact List.Pairwise.nil
  | line text plain rest ih => exact ih _
  | block opening name starts body closing stops rest ihbody ihrest =>
    rw [rewritten]
    refine List.pairwise_append.mpr ⟨?_, ihrest _, ?_⟩
    · split
      · exact List.pairwise_singleton _ _
      · exact ihbody _
    · intro a ha b hb
      have ha' := range_of_mem_rewritten_block ha
      have hb' := range_of_mem_rewritten hb
      omega
  | unclosed allowed opening name starts rest ih => exact ih _
  | unopened allowed closing stops rest ih => exact ih _

/-- The edits of an outline that starts at `offset`. -/
def edits (t : Target) (file : String) {k : Strays} : Nat → Outline k → List Edit
  | _, done => []
  | offset, line text _ rest => rest.edits t file (offset + byteLength text)
  | offset, block opening name _ body closing _ rest =>
      let start := offset + byteLength opening
      (match replacement? t (region file name start body) body.text with
        | some new => [⟨(region file name start body).span, new⟩]
        | none => body.edits t file start) ++
        rest.edits t file (start + byteLength body.text + byteLength closing)
  | offset, unclosed _ opening _ _ rest => rest.edits t file (offset + byteLength opening)
  | offset, unopened _ closing _ rest => rest.edits t file (offset + byteLength closing)

/-- The text of an outline with its edits made. -/
def revised (t : Target) (file : String) {k : Strays} : Nat → Outline k → List Char
  | _, done => []
  | offset, line text _ rest => text ++ rest.revised t file (offset + byteLength text)
  | offset, block opening name _ body closing _ rest =>
      let start := offset + byteLength opening
      opening ++ ((replacement? t (region file name start body) body.text).getD
          (body.revised t file start) ++
        (closing ++ rest.revised t file (start + byteLength body.text + byteLength closing)))
  | offset, unclosed _ opening _ _ rest =>
      opening ++ rest.revised t file (offset + byteLength opening)
  | offset, unopened _ closing _ rest =>
      closing ++ rest.revised t file (offset + byteLength closing)

theorem map_span_edits (o : Outline k) (offset : Nat) :
    (o.edits t file offset).map (·.span) = (o.rewritten t file offset).map (·.span) := by
  induction o generalizing offset with
  | done => rfl
  | line text plain rest ih => exact ih _
  | block opening name starts body closing stops rest ihbody ihrest =>
    rw [edits, rewritten, List.map_append, List.map_append, ihrest]
    cases replacement? t (region file name (offset + byteLength opening) body) body.text with
    | some new => rfl
    | none => rw [ihbody]; rfl
  | unclosed allowed opening name starts rest ih => exact ih _
  | unopened allowed closing stops rest ih => exact ih _

theorem range_of_mem_edits {o : Outline k} {offset : Nat} {e : Edit}
    (he : e ∈ o.edits t file offset) :
    offset < e.span.start ∧ e.span.stop < offset + byteLength o.text := by
  have hspan : e.span ∈ (o.rewritten t file offset).map (·.span) := by
    rw [← map_span_edits]
    exact List.mem_map_of_mem he
  obtain ⟨r, hr, hspan⟩ := List.mem_map.mp hspan
  rw [← hspan]
  exact range_of_mem_rewritten hr

theorem pairwise_edits (o : Outline k) (offset : Nat) :
    (o.edits t file offset).Pairwise fun a b => a.span.start < b.span.start := by
  have hspans : ((o.rewritten t file offset).map (·.span)).Pairwise
      fun a b => a.start < b.start := by
    apply List.pairwise_map.mpr
    exact ((o.pairwise_regions offset).sublist (o.rewritten_sublist offset)).imp Precedes.start_lt
  rw [← map_span_edits] at hspans
  have hedits := List.pairwise_map.mp hspans
  exact hedits

/-- Making the edits of an outline replaces their spans and nothing else. -/
theorem replaced_edits (t : Target) (file : String) (o : Outline k) (offset : Nat) :
    Replaced offset o.text (o.edits t file offset) (o.revised t file offset) := by
  induction o generalizing offset with
  | done => exact .done _ _
  | line text plain rest ih => exact (ih _).keep text
  | block opening name starts body closing stops rest ihbody ihrest =>
    have hrest := (ihrest (offset + byteLength opening + byteLength body.text +
      byteLength closing)).keep closing
    rw [text_block, edits, revised]
    cases hnew : replacement? t (region file name (offset + byteLength opening) body) body.text with
    | some new =>
      exact Replaced.edit (e := ⟨(region file name _ body).span, new⟩) rfl hrest
    | none => exact ((ihbody _).append hrest).keep opening
  | unclosed allowed opening name starts rest ih => exact (ih _).keep opening
  | unopened allowed closing stops rest ih => exact (ih _).keep closing

/-! ## 3. The edits of a file -/

theorem content?_region (name front : List Char) (body : Outline .none) (back : List Char) :
    (region file name (byteLength front) body).content? (front ++ body.text ++ back) =
      some body.text :=
  slice_append front body.text back

theorem addEdit_of_covered {text : List Char} {es : List Edit} {r : Region} {e : Edit}
    (he : e ∈ es) (hr : e.span.containsSpan r.span = true) : addEdit t text es r = es := by
  rw [addEdit, if_pos (List.any_eq_true.mpr ⟨e, he, hr⟩)]

theorem foldl_addEdit_of_covered {text : List Char} {es : List Edit} {e : Edit} (he : e ∈ es)
    {rs : List Region} (hrs : ∀ r ∈ rs, e.span.containsSpan r.span = true) :
    rs.foldl (addEdit t text) es = es := by
  induction rs with
  | nil => rfl
  | cons r rs ih =>
    rw [List.forall_mem_cons] at hrs
    rw [List.foldl_cons, addEdit_of_covered he hrs.1, ih hrs.2]

theorem addEdit_of_clear {text : List Char} {es : List Edit} {r : Region}
    (hes : ∀ e ∈ es, e.span.stop < r.span.start) :
    addEdit t text es r =
      match replacement? t r ((r.content? text).getD []) with
      | some new => es ++ [⟨r.span, new⟩]
      | none => es := by
  have hclear : ¬(es.any fun e => e.span.containsSpan r.span) = true := by
    intro hany
    obtain ⟨e, he, hcontains⟩ := List.any_eq_true.mp hany
    exact Span.not_containsSpan_of_lt_start (hes e he) hcontains
  exact if_neg hclear

theorem stop_le_append {es : List Edit} {front : List Char}
    (hes : ∀ e ∈ es, e.span.stop ≤ byteLength front) (more : List Char) :
    ∀ e ∈ es, e.span.stop ≤ byteLength (front ++ more) := by
  intro e he
  rw [byteLength_append]
  exact Nat.le_add_right_of_le (hes e he)

/-- Behind a block all edits have ended: those before it, and those made in it. -/
theorem stop_le_block {es es' : List Edit} {front opening body closing : List Char}
    (hes : ∀ e ∈ es, e.span.stop ≤ byteLength front)
    (hes' : ∀ e ∈ es', e.span.stop ≤ byteLength (front ++ opening) + byteLength body) :
    ∀ e ∈ es ++ es', e.span.stop ≤ byteLength (front ++ opening ++ body ++ closing) := by
  intro e he
  rw [byteLength_append, byteLength_append]
  rcases List.mem_append.mp he with he | he
  · have hle := stop_le_append hes opening e he
    omega
  · have hle := hes' e he
    omega

/-- Regions are taken in the order of the outline, so the edits so far lie before it and contain
none of its regions. -/
theorem foldl_addEdit (t : Target) (file : String) (o : Outline k) (front back : List Char)
    (es : List Edit) (hes : ∀ e ∈ es, e.span.stop ≤ byteLength front) :
    (o.regions file (byteLength front)).foldl (addEdit t (front ++ o.text ++ back)) es =
      es ++ o.edits t file (byteLength front) := by
  induction o generalizing front back es with
  | done => simp [regions, edits]
  | line text plain rest ih =>
    have h := ih (front ++ text) back es (stop_le_append hes text)
    rw [byteLength_append] at h
    simpa [regions, edits] using h
  | block opening name starts body closing stops rest ihbody ihrest =>
    have hopening := byteLength_pos (Marker.ne_nil starts)
    have hclear : ∀ e ∈ es, e.span.stop <
        (region file name (byteLength (front ++ opening)) body).span.start := by
      intro e he
      have hle := hes e he
      rw [region_start, byteLength_append]
      omega
    have hrestText := append_text_rest front back opening name starts body closing stops rest
    rw [append_text_body] at hrestText
    have hstop : byteLength (front ++ opening ++ body.text ++ closing) =
        byteLength (front ++ opening) + byteLength body.text + byteLength closing := by
      rw [byteLength_append, byteLength_append]
    rw [regions, edits, append_text_body, ← byteLength_append, List.cons_append, List.foldl_cons,
      addEdit_of_clear hclear, content?_region, Option.getD_some, List.foldl_append]
    cases hnew : replacement? t (region file name (byteLength (front ++ opening)) body)
        body.text with
    | some new =>
      -- the body lies inside the new edit, so none of its regions adds another one
      have hbody : ∀ v ∈ body.regions file (byteLength (front ++ opening)),
          (region file name (byteLength (front ++ opening)) body).span.containsSpan v.span = true :=
        fun v hv => (region_contains name hv).2
      generalize hr : region file name (byteLength (front ++ opening)) body = r at hbody ⊢
      have hend : ∀ e ∈ [(⟨r.span, new⟩ : Edit)],
          e.span.stop ≤ byteLength (front ++ opening) + byteLength body.text := by
        intro e he
        rw [List.mem_singleton.mp he, ← hr, region_stop]
      have hlast : (⟨r.span, new⟩ : Edit) ∈ es ++ [⟨r.span, new⟩] :=
        List.mem_append_right es List.mem_cons_self
      have h := ihrest (front ++ opening ++ body.text ++ closing) back _ (stop_le_block hes hend)
      rw [hstop] at h
      show List.foldl _ (List.foldl _ (es ++ [⟨r.span, new⟩]) _) _ = _
      rw [foldl_addEdit_of_covered hlast hbody, hrestText, h, List.append_assoc]
    | none =>
      -- the block itself is left alone, and its body is taken like any other outline
      have hb := ihbody (front ++ opening) (closing ++ rest.text ++ back) es
        (stop_le_append hes opening)
      have hend : ∀ e ∈ body.edits t file (byteLength (front ++ opening)),
          e.span.stop ≤ byteLength (front ++ opening) + byteLength body.text :=
        fun e he => Nat.le_of_lt (range_of_mem_edits he).2
      have h := ihrest (front ++ opening ++ body.text ++ closing) back _ (stop_le_block hes hend)
      rw [hstop] at h
      show List.foldl _ (List.foldl _ es _) _ = _
      rw [hb, hrestText, h, List.append_assoc]
  | unclosed allowed opening name starts rest ih =>
    have h := ih (front ++ opening) back es (stop_le_append hes opening)
    rw [byteLength_append] at h
    simpa [regions, edits] using h
  | unopened allowed closing stops rest ih =>
    have h := ih (front ++ closing) back es (stop_le_append hes closing)
    rw [byteLength_append] at h
    simpa [regions, edits] using h

/-- Regions in the order of an outline are in the order in which inlining takes them. -/
theorem mergeSort_outerFirst {regions : List Region} (h : regions.Pairwise Precedes) :
    regions.mergeSort outerFirst = regions := by
  refine mergeSort_eq_of_perm ?_ ?_ (List.Perm.refl _) (h.imp fun hab => ?_)
  · intro a b c hab hbc
    simp only [outerFirst, Bool.or_eq_true, Bool.and_eq_true, decide_eq_true_eq] at *
    omega
  · intro a b
    simp only [outerFirst, Bool.or_eq_true, Bool.and_eq_true, decide_eq_true_eq]
    omega
  · have hlt := hab.start_lt
    constructor
    · simp only [outerFirst, Bool.or_eq_true, Bool.and_eq_true, decide_eq_true_eq]
      omega
    · simp only [outerFirst, Bool.or_eq_false_iff, Bool.and_eq_false_iff, decide_eq_false_iff_not]
      omega

theorem edits_regions (t : Target) (file : String) (o : Outline k) :
    Inline.edits t o.text (o.regions file 0) = o.edits t file 0 := by
  have h := o.foldl_addEdit t file [] [] [] (by simp)
  rw [Inline.edits, mergeSort_outerFirst (o.pairwise_regions 0)]
  simpa using h

/-- The edits that inlining makes in a file give the revised text of its outline. -/
theorem revise_regions (t : Target) (file : String) (o : Outline k) :
    revise o.text (Inline.edits t o.text (o.regions file 0)) = some (o.revised t file 0) := by
  rw [edits_regions]
  exact revise_of_replaced (o.replaced_edits t file 0) (o.pairwise_edits 0)

end Region.Outline

end Playground

import Mathlib.Data.List.Forall2
import Mathlib.Data.List.Nodup
import Mathlib.Data.List.Pairwise
import Mathlib.Data.List.TakeWhile
import Playground.Proofs.Lines
import Playground.Proofs.Outline
/-!
# Extraction follows the outline

The scan of a file finds exactly the regions of the outline of its lines, or else the first name
that is started twice.  From there on regions are what an outline says: they nest or lie apart, and
each holds the text between its marker lines.
-/

namespace Playground

/-- A strictly ascending list is what sorting any of its rearrangements gives. -/
theorem mergeSort_eq_of_perm {α : Type} {le : α → α → Bool}
    (htrans : ∀ a b c, le a b = true → le b c = true → le a c = true)
    (htotal : ∀ a b, (le a b || le b a) = true) {l sorted : List α} (hperm : l.Perm sorted)
    (hsorted : sorted.Pairwise fun a b => le a b = true ∧ le b a = false) :
    l.mergeSort le = sorted := by
  have hstrict : sorted.Pairwise fun a b => ¬(le a b = true ∧ le b a = true) :=
    hsorted.imp fun h h' => by simp [h.2] at h'
  have hsymm : Std.Symm fun a b => ¬(le a b = true ∧ le b a = true) :=
    ⟨fun a b h h' => h ⟨h'.2, h'.1⟩⟩
  refine List.Perm.eq_of_pairwise (fun a b ha hb hab hba => ?_)
    (List.pairwise_mergeSort htrans htotal l) (hsorted.imp And.left)
    ((List.mergeSort_perm l le).trans hperm)
  by_contra hne
  have ha : a ∈ sorted := hperm.mem_iff.mp ((List.mergeSort_perm l le).mem_iff.mp ha)
  exact hstrict.forall ha hb hne ⟨hab, hba⟩

theorem mergeSort_key_eq_of_perm {α : Type} {key : α → Nat} {l sorted : List α}
    (hperm : l.Perm sorted) (hsorted : sorted.Pairwise fun a b => key a < key b) :
    l.mergeSort (fun a b => decide (key a ≤ key b)) = sorted := by
  refine mergeSort_eq_of_perm ?_ ?_ hperm (hsorted.imp fun hlt => ?_)
  · intro a b c hab hbc
    rw [decide_eq_true_eq] at *
    exact Nat.le_trans hab hbc
  · intro a b
    rw [Bool.or_eq_true, decide_eq_true_eq, decide_eq_true_eq]
    exact Nat.le_total _ _
  · rw [decide_eq_true_eq, decide_eq_false_iff_not]
    omega

theorem BufferId.region_injective {file : String} {a b : List Char} (ha : a ≠ []) (hb : b ≠ [])
    (h : BufferId.region file (String.ofList a) = BufferId.region file (String.ofList b)) :
    a = b := by
  unfold BufferId.region at h
  rw [if_neg (by simpa using ha), if_neg (by simpa using hb)] at h
  have hname : String.ofList a = String.ofList b := by simpa using h
  simpa using congrArg String.toList hname

namespace Region

/-- The first of two regions encloses the second or ends before it starts. -/
def Precedes (a b : Region) : Prop :=
  (a.span.start < b.span.start ∧ b.span.stop < a.span.stop) ∨ a.span.stop < b.span.start

theorem Precedes.start_lt {a b : Region} (h : Precedes a b) : a.span.start < b.span.start := by
  have hstop : a.span.start ≤ a.span.stop := Nat.le_add_right _ _
  rcases h with h | h <;> omega

namespace Marker

theorem ne_nil {l : List Char} {m : Marker} (h : ofLine? l = some m) : l ≠ [] := by
  rintro rfl
  have hnil : ofLine? [] = none := by decide
  rw [hnil] at h
  cases h

/-- A start marker's name is a run of characters up to the next blank, and not an empty one. -/
theorem run_of_startName? {l name : List Char} (h : startName? l = some name) :
    name ≠ [] ∧ ∃ rest, name = (Text.trimStart rest).takeWhile (!Text.isBlank ·) := by
  unfold startName? at h
  obtain ⟨rest, -, hrest⟩ := Option.bind_eq_some_iff.mp h
  cases rest with
  | nil => cases hrest
  | cons c rest =>
    dsimp only at hrest
    split at hrest
    · split at hrest
      · cases hrest
      · rename_i hne
        rw [← Option.some.inj hrest]
        exact ⟨hne, rest, rfl⟩
    · cases hrest

theorem run_of_ofLine? {l name : List Char} (h : ofLine? l = some (.start name)) :
    name ≠ [] ∧ ∃ rest, name = (Text.trimStart rest).takeWhile (!Text.isBlank ·) := by
  unfold ofLine? at h
  dsimp only at h
  split at h
  · rename_i found hfound
    cases h
    exact run_of_startName? hfound
  · split at h <;> cases h

theorem name_ne_nil {l name : List Char} (h : ofLine? l = some (.start name)) : name ≠ [] :=
  (run_of_ofLine? h).1

theorem isBlank_name {l name : List Char} (h : ofLine? l = some (.start name)) :
    ∀ c ∈ name, Text.isBlank c = false := by
  obtain ⟨-, rest, rfl⟩ := run_of_ofLine? h
  intro c hc
  have hrun := List.mem_takeWhile_imp hc
  rwa [Bool.not_eq_true'] at hrun

end Marker

variable {k : Strays} {file : String}

/-! ## 1. Repeated names -/

/-- The first name that is in `seen` or occurs a second time. -/
def firstRepeat : List (List Char) → List (List Char) → Option (List Char)
  | _, [] => none
  | seen, name :: names =>
      if seen.contains name then some name else firstRepeat (name :: seen) names

theorem firstRepeat_cons (seen : List (List Char)) (name : List Char) (names : List (List Char)) :
    firstRepeat seen (name :: names) =
      if name ∈ seen then some name else firstRepeat (name :: seen) names := by
  simp only [firstRepeat, List.contains_iff_mem]

theorem firstRepeat_append (seen a b : List (List Char)) :
    firstRepeat seen (a ++ b) =
      match firstRepeat seen a with
      | some name => some name
      | none => firstRepeat (a.reverse ++ seen) b := by
  induction a generalizing seen with
  | nil => rfl
  | cons name a ih =>
    rw [List.cons_append, firstRepeat_cons, firstRepeat_cons]
    by_cases h : name ∈ seen
    · rw [if_pos h, if_pos h]
    · rw [if_neg h, if_neg h, ih, List.reverse_cons, List.append_assoc]
      rfl

theorem firstRepeat_eq_none_iff (seen names : List (List Char)) :
    firstRepeat seen names = none ↔ names.Nodup ∧ ∀ name ∈ names, name ∉ seen := by
  induction names generalizing seen with
  | nil => simp [firstRepeat]
  | cons name names ih =>
    rw [firstRepeat_cons]
    by_cases h : name ∈ seen
    · simp [h]
    · rw [if_neg h, ih, List.nodup_cons, List.forall_mem_cons]
      constructor
      · rintro ⟨hnodup, hseen⟩
        refine ⟨⟨fun hmem => hseen name hmem List.mem_cons_self, hnodup⟩, h, ?_⟩
        exact fun n hn hmem => hseen n hn (List.mem_cons_of_mem _ hmem)
      · rintro ⟨⟨hfresh, hnodup⟩, -, hseen⟩
        refine ⟨hnodup, fun n hn hmem => ?_⟩
        rcases List.mem_cons.mp hmem with rfl | hmem
        · exact hfresh hn
        · exact hseen n hn hmem

/-! ## 2. The scan of an outline -/

theorem Scan.line_plain {l : List Char} (h : Marker.ofLine? l = none) (s : Scan) :
    s.line file l = .ok { s with offset := s.offset + Text.byteLength l } := by
  unfold Scan.line
  rw [h]

theorem Scan.line_start {l name : List Char} (h : Marker.ofLine? l = some (.start name))
    (s : Scan) :
    s.line file l =
      if name ∈ s.seen then .error ⟨file, String.ofList name⟩
      else .ok ⟨s.offset + Text.byteLength l, name :: s.seen,
        ⟨name, s.offset + Text.byteLength l⟩ :: s.opened, s.closed⟩ := by
  unfold Scan.line
  rw [h]

theorem Scan.line_stop_nil {l : List Char} (h : Marker.ofLine? l = some .stop) (s : Scan)
    (hs : s.opened = []) :
    s.line file l = .ok { s with offset := s.offset + Text.byteLength l } := by
  unfold Scan.line
  rw [h, hs]

theorem Scan.line_stop_cons {l : List Char} (h : Marker.ofLine? l = some .stop) (s : Scan)
    {o : Opened} {outer : List Opened} (hs : s.opened = o :: outer) :
    s.line file l = .ok ⟨s.offset + Text.byteLength l, s.seen, outer,
      ⟨.region file (String.ofList o.name), .ofBounds o.start s.offset, file⟩ :: s.closed⟩ := by
  unfold Scan.line
  rw [h, hs]

namespace Outline

theorem opened_none (o : Outline .none) (offset : Nat) : o.opened offset = [] := by
  -- the kind of strays changes under the constructors, so it is a variable in the induction
  generalize hk : Strays.none = k at o
  induction o generalizing offset with
  | done => rfl
  | line text plain rest ih => exact ih _ hk
  | block opening name starts body closing stops rest _ ih => exact ih _ hk
  | unclosed allowed => exact absurd hk.symm allowed
  | unopened allowed => subst allowed; cases hk

/-- Where a scan stands after the lines of an outline without repeated names. -/
def after (file : String) (s : Scan) (o : Outline k) : Scan :=
  ⟨s.offset + Text.byteLength o.text, o.names.reverse ++ s.seen, o.opened s.offset ++ s.opened,
    (o.closed file s.offset).reverse ++ s.closed⟩

/-- The scan meets an end without a start only when no region is open, so the open regions of `s`
stay below those of the outline. -/
theorem foldlM_line (o : Outline k) (s : Scan) (hs : k = .any → s.opened = []) :
    o.lines.foldlM (Scan.line file) s =
      match firstRepeat s.seen o.names with
      | some name => .error ⟨file, String.ofList name⟩
      | none => .ok (o.after file s) := by
  induction o generalizing s with
  | done => simp [lines, names, firstRepeat, after, opened, closed, pure, Except.pure]
  | line text plain rest ih =>
    rw [lines, List.foldlM_cons, Scan.line_plain plain]
    show rest.lines.foldlM (Scan.line file) _ = _
    rw [ih { s with offset := s.offset + Text.byteLength text } hs]
    simp only [names, after, text_line, opened, closed, Text.byteLength_append, Nat.add_assoc]
  | block opening name starts body closing stops rest ihbody ihrest =>
    rw [lines, names, List.cons_append, List.cons_append, List.foldlM_cons,
      Scan.line_start starts, firstRepeat_cons]
    by_cases hname : name ∈ s.seen
    · rw [if_pos hname, if_pos hname]
      rfl
    · rw [if_neg hname, if_neg hname]
      show (body.lines ++ closing :: rest.lines).foldlM (Scan.line file) _ = _
      -- the name of the block counts as seen in its body, and all of both are seen behind it
      rw [List.foldlM_append, ihbody _ (by intro h; cases h), firstRepeat_append]
      dsimp only
      cases hbody : firstRepeat (name :: s.seen) body.names with
      | some repeated => rfl
      | none =>
        show (closing :: rest.lines).foldlM (Scan.line file) (body.after file _) = _
        -- the body closes all that it opens, so the end line closes the region of the block
        have htop : (body.after file ⟨s.offset + Text.byteLength opening, name :: s.seen,
            ⟨name, s.offset + Text.byteLength opening⟩ :: s.opened, s.closed⟩).opened =
            ⟨name, s.offset + Text.byteLength opening⟩ :: s.opened := by
          simp [after, opened_none]
        rw [List.foldlM_cons, Scan.line_stop_cons stops _ htop]
        show rest.lines.foldlM (Scan.line file) _ = _
        rw [ihrest]
        · simp [after, opened, closed, names, region, Span.ofBounds, Text.byteLength_append,
            Nat.add_assoc, Nat.add_sub_add_left]
        · exact hs
  | unclosed allowed opening name starts rest ih =>
    rw [lines, names, List.foldlM_cons, Scan.line_start starts, firstRepeat_cons]
    by_cases hname : name ∈ s.seen
    · rw [if_pos hname, if_pos hname]
      rfl
    · rw [if_neg hname, if_neg hname]
      show rest.lines.foldlM (Scan.line file) _ = _
      rw [ih _ (by intro h; cases h)]
      simp [after, opened, closed, Text.byteLength_append, names, Nat.add_assoc]
  | unopened allowed closing stops rest ih =>
    rw [lines, List.foldlM_cons, Scan.line_stop_nil stops s (hs allowed)]
    show rest.lines.foldlM (Scan.line file) _ = _
    rw [ih { s with offset := s.offset + Text.byteLength closing } hs]
    simp [after, opened, closed, names, Text.byteLength_append, Nat.add_assoc]

/-! ## 3. The regions of an outline -/

theorem closed_perm (o : Outline k) (offset : Nat) :
    (o.closed file offset).Perm (o.regions file offset) := by
  induction o generalizing offset with
  | done => exact List.Perm.refl _
  | line text plain rest ih => exact ih _
  | block opening name starts body closing stops rest ihbody ihrest =>
    apply List.perm_middle.trans
    rw [regions, List.cons_append]
    exact ((ihbody _).append (ihrest _)).cons _
  | unclosed allowed opening name starts rest ih => exact ih _
  | unopened allowed closing stops rest ih => exact ih _

/-- Regions lie strictly between the marker lines around them, so they touch neither end. -/
theorem range_of_mem_regions {o : Outline k} {offset : Nat} {r : Region}
    (hr : r ∈ o.regions file offset) :
    offset < r.span.start ∧ r.span.stop < offset + Text.byteLength o.text := by
  induction o generalizing offset with
  | done => cases hr
  | line text plain rest ih =>
    have h := ih hr
    rw [text_line, Text.byteLength_append]
    omega
  | block opening name starts body closing stops rest ihbody ihrest =>
    -- marker lines are not empty, which makes both bounds strict
    have hopening := Text.byteLength_pos (Marker.ne_nil starts)
    have hclosing := Text.byteLength_pos (Marker.ne_nil stops)
    simp only [text_block, Text.byteLength_append]
    rw [regions, List.cons_append, List.mem_cons, List.mem_append] at hr
    rcases hr with rfl | hr | hr
    · rw [region_start, region_stop]
      omega
    · have h := ihbody hr
      omega
    · have h := ihrest hr
      omega
  | unclosed allowed opening name starts rest ih =>
    have h := ih hr
    rw [text_unclosed, Text.byteLength_append]
    omega
  | unopened allowed closing stops rest ih =>
    have h := ih hr
    rw [text_unopened, Text.byteLength_append]
    omega

/-- A region comes before those that lie inside it and those that start after its end. -/
theorem pairwise_regions (o : Outline k) (offset : Nat) :
    (o.regions file offset).Pairwise Precedes := by
  induction o generalizing offset with
  | done => exact List.Pairwise.nil
  | line text plain rest ih => exact ih _
  | block opening name starts body closing stops rest ihbody ihrest =>
    have hclosing := Text.byteLength_pos (Marker.ne_nil stops)
    rw [regions, List.cons_append]
    refine List.Pairwise.cons ?_ (List.pairwise_append.mpr ⟨ihbody _, ihrest _, ?_⟩)
    · intro r hr
      rcases List.mem_append.mp hr with hr | hr
      · have h := range_of_mem_regions hr
        exact .inl ⟨h.1, h.2⟩
      · have h := range_of_mem_regions hr
        right
        rw [region_stop]
        omega
    · intro a ha b hb
      have h := range_of_mem_regions ha
      have h' := range_of_mem_regions hb
      right
      omega
  | unclosed allowed opening name starts rest ih => exact ih _
  | unopened allowed closing stops rest ih => exact ih _

/-- Every region holds a piece of the text. -/
theorem exists_piece_of_mem_regions {o : Outline k} {offset : Nat} {r : Region}
    (hr : r ∈ o.regions file offset) :
    ∃ a m b, o.text = a ++ m ++ b ∧ r.span.start = offset + Text.byteLength a ∧
      r.span.length = Text.byteLength m := by
  induction o generalizing offset with
  | done => cases hr
  | line text plain rest ih =>
    obtain ⟨a, m, b, htext, hstart, hlen⟩ := ih hr
    refine ⟨text ++ a, m, b, by simp [htext], ?_, hlen⟩
    rw [hstart, Text.byteLength_append, Nat.add_assoc]
  | block opening name starts body closing stops rest ihbody ihrest =>
    rw [regions, List.cons_append, List.mem_cons, List.mem_append] at hr
    rcases hr with rfl | hr | hr
    · exact ⟨opening, body.text, closing ++ rest.text, by simp, rfl, rfl⟩
    · obtain ⟨a, m, b, htext, hstart, hlen⟩ := ihbody hr
      refine ⟨opening ++ a, m, b ++ (closing ++ rest.text), by simp [htext], ?_, hlen⟩
      rw [hstart, Text.byteLength_append, Nat.add_assoc]
    · obtain ⟨a, m, b, htext, hstart, hlen⟩ := ihrest hr
      refine ⟨opening ++ (body.text ++ (closing ++ a)), m, b, by simp [htext], ?_, hlen⟩
      simp only [hstart, Text.byteLength_append, Nat.add_assoc]
  | unclosed allowed opening name starts rest ih =>
    obtain ⟨a, m, b, htext, hstart, hlen⟩ := ih hr
    refine ⟨opening ++ a, m, b, by simp [htext], ?_, hlen⟩
    rw [hstart, Text.byteLength_append, Nat.add_assoc]
  | unopened allowed closing stops rest ih =>
    obtain ⟨a, m, b, htext, hstart, hlen⟩ := ih hr
    refine ⟨closing ++ a, m, b, by simp [htext], ?_, hlen⟩
    rw [hstart, Text.byteLength_append, Nat.add_assoc]

/-- Sorting the regions by their starts puts outer ones before inner ones again. -/
theorem mergeSort_closed (o : Outline k) (offset : Nat) :
    (o.closed file offset).mergeSort (fun a b => decide (a.span.start ≤ b.span.start)) =
      o.regions file offset :=
  mergeSort_key_eq_of_perm (o.closed_perm offset)
    ((o.pairwise_regions offset).imp Precedes.start_lt)

/-! ## 4. The names of the regions -/

/-- The names of the regions, in the order of `regions`. -/
def regionNames {k : Strays} : Outline k → List (List Char)
  | done => []
  | line _ _ rest => rest.regionNames
  | block _ name _ body _ _ rest => name :: body.regionNames ++ rest.regionNames
  | unclosed _ _ _ _ rest => rest.regionNames
  | unopened _ _ _ rest => rest.regionNames

theorem regionNames_sublist (o : Outline k) : o.regionNames.Sublist o.names := by
  induction o with
  | done => exact List.Sublist.refl _
  | line text plain rest ih => exact ih
  | block opening name starts body closing stops rest ihbody ihrest =>
    exact (ihbody.cons_cons name).append ihrest
  | unclosed allowed opening name starts rest ih => exact ih.cons name
  | unopened allowed closing stops rest ih => exact ih

theorem map_bufferId_regions (o : Outline k) (offset : Nat) :
    (o.regions file offset).map (·.bufferId) =
      o.regionNames.map fun name => BufferId.region file (String.ofList name) := by
  induction o generalizing offset with
  | done => rfl
  | line text plain rest ih => exact ih _
  | block opening name starts body closing stops rest ihbody ihrest =>
    simp only [regions, regionNames, List.map_cons, List.map_append, ihbody, ihrest]
    rfl
  | unclosed allowed opening name starts rest ih => exact ih _
  | unopened allowed closing stops rest ih => exact ih _

theorem destination_of_mem_regions {o : Outline k} {offset : Nat} {r : Region}
    (hr : r ∈ o.regions file offset) : r.destination = file := by
  induction o generalizing offset with
  | done => cases hr
  | line text plain rest ih => exact ih hr
  | block opening name starts body closing stops rest ihbody ihrest =>
    rw [regions, List.cons_append, List.mem_cons, List.mem_append] at hr
    rcases hr with rfl | hr | hr
    · rfl
    · exact ihbody hr
    · exact ihrest hr
  | unclosed allowed opening name starts rest ih => exact ih hr
  | unopened allowed closing stops rest ih => exact ih hr

theorem ne_nil_of_mem_regionNames {o : Outline k} {name : List Char}
    (h : name ∈ o.regionNames) : name ≠ [] := by
  induction o with
  | done => cases h
  | line text plain rest ih => exact ih h
  | block opening name' starts body closing stops rest ihbody ihrest =>
    rw [regionNames, List.cons_append, List.mem_cons, List.mem_append] at h
    rcases h with rfl | h | h
    · exact Marker.name_ne_nil starts
    · exact ihbody h
    · exact ihrest h
  | unclosed allowed opening name' starts rest ih => exact ih h
  | unopened allowed closing stops rest ih => exact ih h

theorem nodup_bufferId {o : Outline k} (h : o.names.Nodup) (offset : Nat) :
    ((o.regions file offset).map (·.bufferId)).Nodup := by
  rw [map_bufferId_regions]
  refine List.Nodup.map_on ?_ (h.sublist o.regionNames_sublist)
  intro a ha b hb hab
  exact BufferId.region_injective (ne_nil_of_mem_regionNames ha) (ne_nil_of_mem_regionNames hb) hab

end Outline

/-! ## 5. The regions of a file -/

theorem ofFile_of_outline (f : SourceFile) (o : Outline .any)
    (ho : o.lines = Text.lines f.text.toList) :
    ofFile f =
      match firstRepeat [] o.names with
      | some name => .error ⟨f.name, String.ofList name⟩
      | none => .ok (o.regions f.name 0) := by
  rw [ofFile, ← ho, o.foldlM_line Scan.start fun _ => rfl]
  have hseen : Scan.start.seen = [] := rfl
  rw [hseen]
  cases firstRepeat [] o.names with
  | some name => rfl
  | none =>
    show Except.ok _ = Except.ok _
    rw [← Outline.mergeSort_closed]
    simp [Outline.after, Scan.start]

theorem ofFile_eq_ok_iff {f : SourceFile} {regions : List Region} :
    ofFile f = .ok regions ↔
      ∃ o : Outline .any, o.lines = Text.lines f.text.toList ∧ o.names.Nodup ∧
        regions = o.regions f.name 0 := by
  constructor
  · intro h
    obtain ⟨o, ho⟩ := Outline.exists_outline (Text.lines f.text.toList)
    rw [ofFile_of_outline f o ho] at h
    refine ⟨o, ho, ?_⟩
    cases hrep : firstRepeat [] o.names with
    | some name => rw [hrep] at h; cases h
    | none =>
      rw [hrep] at h
      exact ⟨((firstRepeat_eq_none_iff _ _).mp hrep).1, (Except.ok.inj h).symm⟩
  · rintro ⟨o, ho, hnodup, rfl⟩
    rw [ofFile_of_outline f o ho, (firstRepeat_eq_none_iff _ _).mpr ⟨hnodup, by simp⟩]

/-! ## 6. The regions of several files -/

theorem mapM_eq_ok_iff {α β ε : Type} {f : α → Except ε β} {l : List α} {l' : List β} :
    l.mapM f = .ok l' ↔ List.Forall₂ (fun a b => f a = .ok b) l l' := by
  induction l generalizing l' with
  | nil =>
    rw [List.forall₂_nil_left_iff]
    show Except.ok [] = Except.ok l' ↔ _
    rw [Except.ok.injEq, eq_comm]
  | cons a l ih =>
    rw [List.mapM_cons, List.forall₂_cons_left_iff]
    cases ha : f a with
    | error e =>
      constructor
      · intro h
        cases h
      · rintro ⟨b, bs, hb, -, -⟩
        cases hb
    | ok b =>
      show (l.mapM f >>= fun bs => Except.ok (b :: bs)) = _ ↔ _
      cases hl : l.mapM f with
      | error e =>
        constructor
        · intro h
          cases h
        · rintro ⟨b', bs, -, hbs, -⟩
          rw [ih.mpr hbs] at hl
          cases hl
      | ok bs =>
        show Except.ok (b :: bs) = Except.ok l' ↔ _
        rw [Except.ok.injEq]
        constructor
        · rintro rfl
          exact ⟨b, bs, rfl, ih.mp hl, rfl⟩
        · rintro ⟨b', bs', hb, hbs, rfl⟩
          cases hb
          rw [ih.mpr hbs] at hl
          cases hl
          rfl

/-- The first element that fails decides. -/
theorem mapM_eq_error_iff {α β ε : Type} {f : α → Except ε β} {l : List α} {e : ε} :
    l.mapM f = .error e ↔ ∃ front a back, l = front ++ a :: back ∧
      (∀ x ∈ front, ∃ b, f x = .ok b) ∧ f a = .error e := by
  induction l with
  | nil => exact iff_of_false (by intro h; cases h) (by rintro ⟨front, a, back, h, -⟩; simp at h)
  | cons x l ih =>
    rw [List.mapM_cons]
    cases hx : f x with
    | error e' =>
      show Except.error e' = Except.error e ↔ _
      rw [Except.error.injEq]
      constructor
      · rintro rfl
        exact ⟨[], x, l, rfl, fun y hy => absurd hy List.not_mem_nil, hx⟩
      · rintro ⟨front, a, back, hl, hfront, ha⟩
        -- `x` fails, so it does not stand in front of the element that decides
        cases front with
        | nil =>
          rw [List.nil_append, List.cons.injEq] at hl
          rw [hl.1, ha] at hx
          exact (Except.error.inj hx).symm
        | cons y front =>
          rw [List.cons_append, List.cons.injEq] at hl
          obtain ⟨b, hb⟩ := hfront y List.mem_cons_self
          rw [hl.1, hb] at hx
          cases hx
    | ok b =>
      have hrest : (do let bs ← l.mapM f; pure (b :: bs) : Except ε (List β)) = .error e ↔
          l.mapM f = .error e := by
        cases l.mapM f with
        | error e' => exact Iff.rfl
        | ok bs => exact iff_of_false (by intro h; cases h) (by intro h; cases h)
      refine hrest.trans (ih.trans ?_)
      constructor
      · rintro ⟨front, a, back, hl, hfront, ha⟩
        exact ⟨x :: front, a, back, by rw [hl, List.cons_append],
          List.forall_mem_cons.mpr ⟨⟨b, hx⟩, hfront⟩, ha⟩
      · rintro ⟨front, a, back, hl, hfront, ha⟩
        cases front with
        | nil =>
          rw [List.nil_append, List.cons.injEq] at hl
          rw [hl.1, ha] at hx
          cases hx
        | cons y front =>
          rw [List.cons_append, List.cons.injEq] at hl
          exact ⟨front, a, back, hl.2, (List.forall_mem_cons.mp hfront).2, ha⟩

theorem exists_error_of_mapM {α β ε : Type} {f : α → Except ε β} {l : List α} {e : ε}
    (h : l.mapM f = .error e) : ∃ a ∈ l, f a = .error e := by
  obtain ⟨front, a, back, rfl, -, ha⟩ := mapM_eq_error_iff.mp h
  exact ⟨a, List.mem_append_right _ List.mem_cons_self, ha⟩

theorem exists_right_of_mem {α β : Type} {R : α → β → Prop} {l : List α} {l' : List β}
    (h : List.Forall₂ R l l') {a : α} (ha : a ∈ l) : ∃ b ∈ l', R a b := by
  induction h with
  | nil => cases ha
  | cons hab _ ih =>
    rcases List.mem_cons.mp ha with rfl | ha
    · exact ⟨_, List.mem_cons_self, hab⟩
    · obtain ⟨b, hb, hR⟩ := ih ha
      exact ⟨b, List.mem_cons_of_mem _ hb, hR⟩

theorem exists_left_of_mem {α β : Type} {R : α → β → Prop} {l : List α} {l' : List β}
    (h : List.Forall₂ R l l') {b : β} (hb : b ∈ l') : ∃ a ∈ l, R a b := by
  obtain ⟨a, ha, hR⟩ := exists_right_of_mem h.flip hb
  exact ⟨a, ha, hR⟩

theorem ofFiles_eq_ok_iff {files : List SourceFile} {regions : List Region} :
    ofFiles files = .ok regions ↔
      ∃ parts, List.Forall₂ (fun f part => ofFile f = .ok part) files parts ∧
        regions = parts.flatten := by
  rw [ofFiles]
  cases hparts : files.mapM ofFile with
  | error e =>
    constructor
    · intro h
      cases h
    · rintro ⟨parts, h, -⟩
      rw [mapM_eq_ok_iff.mpr h] at hparts
      cases hparts
  | ok parts =>
    show Except.ok parts.flatten = Except.ok regions ↔ _
    rw [Except.ok.injEq]
    constructor
    · rintro rfl
      exact ⟨parts, mapM_eq_ok_iff.mp hparts, rfl⟩
    · rintro ⟨parts', h, rfl⟩
      rw [mapM_eq_ok_iff.mpr h] at hparts
      cases hparts
      rfl

/-- No two of the files have names that denote the same file. -/
def DistinctNames (files : List SourceFile) : Prop :=
  (files.map fun f => FileName.normalize f.name).Nodup

theorem distinctNames_iff {files : List SourceFile} :
    DistinctNames files ↔ ((files.map (·.name)).map FileName.normalize).Nodup := by
  rw [DistinctNames, List.map_map]
  rfl

theorem DistinctNames.of_map_name {files files' : List SourceFile} (h : DistinctNames files)
    (hnames : files'.map (·.name) = files.map (·.name)) : DistinctNames files' := by
  rw [distinctNames_iff, hnames, ← distinctNames_iff]
  exact h

theorem isNamed_iff {f : SourceFile} {name : String} :
    f.isNamed name = true ↔ FileName.normalize f.name = FileName.normalize name := beq_iff_eq

theorem destination_of_ofFile {f : SourceFile} {regions : List Region}
    (h : ofFile f = .ok regions) {r : Region} (hr : r ∈ regions) : r.destination = f.name := by
  obtain ⟨o, -, -, rfl⟩ := ofFile_eq_ok_iff.mp h
  exact Outline.destination_of_mem_regions hr

theorem exists_file_of_mem_flatten {files : List SourceFile} {parts : List (List Region)}
    (h : List.Forall₂ (fun f part => ofFile f = .ok part) files parts) {r : Region}
    (hr : r ∈ parts.flatten) : ∃ f ∈ files, ∃ part, ofFile f = .ok part ∧ r ∈ part := by
  induction h with
  | nil => cases hr
  | @cons f part files parts hpart _ ih =>
    rw [List.flatten_cons, List.mem_append] at hr
    rcases hr with hr | hr
    · exact ⟨f, List.mem_cons_self, part, hpart, hr⟩
    · obtain ⟨g, hg, part', hpart', hr'⟩ := ih hr
      exact ⟨g, List.mem_cons_of_mem _ hg, part', hpart', hr'⟩

theorem ofFiles_cons {f : SourceFile} {files : List SourceFile} {part regions : List Region}
    (hpart : ofFile f = .ok part) (h : ofFiles files = .ok regions) :
    ofFiles (f :: files) = .ok (part ++ regions) := by
  obtain ⟨parts, hparts, rfl⟩ := ofFiles_eq_ok_iff.mp h
  exact ofFiles_eq_ok_iff.mpr ⟨part :: parts, .cons hpart hparts, rfl⟩

/-- Whether no start marker of the file has its end. -/
def Regionless (f : SourceFile) : Prop :=
  ∀ regions, ofFile f = .ok regions → regions = []

theorem regionless_of_ofFile {f : SourceFile} (h : ofFile f = .ok []) : Regionless f := by
  intro regions hregions
  rw [h] at hregions
  exact (Except.ok.inj hregions).symm

/-- Files of one name have no regions. -/
def RegionsApart (files : List SourceFile) : Prop :=
  files.Pairwise fun f g => f.isNamed g.name = true → Regionless f ∧ Regionless g

theorem DistinctNames.regionsApart {files : List SourceFile} (h : DistinctNames files) :
    RegionsApart files := by
  have hpairs := List.pairwise_map.mp h
  exact hpairs.imp fun hne hnamed => absurd (isNamed_iff.mp hnamed) hne

/-- Among the regions of files that share no regions by name, those destined for a file are its
own. -/
theorem ofFile_eq_filter_of_regionsApart {files : List SourceFile} {parts : List (List Region)}
    (h : List.Forall₂ (fun f part => ofFile f = .ok part) files parts)
    (hfiles : RegionsApart files) {f : SourceFile} (hf : f ∈ files) :
    ofFile f = .ok (parts.flatten.filter fun r => f.isNamed r.destination) := by
  induction h with
  | nil => cases hf
  | @cons g part' files parts hpart' hrest ih =>
    rw [RegionsApart, List.pairwise_cons] at hfiles
    rw [List.flatten_cons, List.filter_append]
    rcases List.mem_cons.mp hf with rfl | hf
    · -- the file itself: all of its regions are destined for it, and no other one is
      have hown : ∀ r ∈ part', f.isNamed r.destination = true := by
        intro r hr
        rw [isNamed_iff, destination_of_ofFile hpart' hr]
      have hother : ∀ r ∈ parts.flatten, ¬f.isNamed r.destination = true := by
        intro r hr hnamed
        obtain ⟨g, hg, part'', hpart'', hr'⟩ := exists_file_of_mem_flatten hrest hr
        rw [destination_of_ofFile hpart'' hr'] at hnamed
        have hnil := (hfiles.1 g hg hnamed).2 part'' hpart''
        subst hnil
        cases hr'
      rw [List.filter_eq_self.mpr hown, List.filter_eq_nil_iff.mpr hother, List.append_nil, hpart']
    · -- a later file: none of the regions of the first one is destined for it
      have hother : ∀ r ∈ part', ¬f.isNamed r.destination = true := by
        intro r hr hnamed
        rw [isNamed_iff, destination_of_ofFile hpart' hr] at hnamed
        have hnil := (hfiles.1 f hf (isNamed_iff.mpr hnamed.symm)).1 part' hpart'
        subst hnil
        cases hr
      rw [List.filter_eq_nil_iff.mpr hother, List.nil_append]
      exact ih hfiles.2 hf

/-- Among the regions of files with distinct names, those destined for a file are its own. -/
theorem ofFile_eq_filter {files : List SourceFile} {parts : List (List Region)}
    (h : List.Forall₂ (fun f part => ofFile f = .ok part) files parts)
    (hnames : DistinctNames files) {f : SourceFile} (hf : f ∈ files) :
    ofFile f = .ok (parts.flatten.filter fun r => f.isNamed r.destination) :=
  ofFile_eq_filter_of_regionsApart h hnames.regionsApart hf

theorem DistinctNames.eq_of_normalize {files : List SourceFile} (h : DistinctNames files)
    {f g : SourceFile} (hf : f ∈ files) (hg : g ∈ files)
    (hfg : FileName.normalize f.name = FileName.normalize g.name) : f = g :=
  List.inj_on_of_nodup_map h hf hg hfg

theorem nodup_bufferId_of_ofFile {f : SourceFile} {regions : List Region}
    (h : ofFile f = .ok regions) : (regions.map (·.bufferId)).Nodup := by
  obtain ⟨o, -, hnodup, rfl⟩ := ofFile_eq_ok_iff.mp h
  exact Outline.nodup_bufferId hnodup 0

theorem fileName_of_ofFile {f : SourceFile} {regions : List Region} (h : ofFile f = .ok regions)
    {r : Region} (hr : r ∈ regions) : r.bufferId.fileName = FileName.normalize f.name := by
  obtain ⟨o, -, -, rfl⟩ := ofFile_eq_ok_iff.mp h
  have hid : r.bufferId ∈ (o.regions f.name 0).map (·.bufferId) := List.mem_map_of_mem hr
  rw [Outline.map_bufferId_regions] at hid
  obtain ⟨name, -, hid⟩ := List.mem_map.mp hid
  rw [← hid]
  rfl

theorem fileName_of_ofFiles {files : List SourceFile} {regions : List Region}
    (h : ofFiles files = .ok regions) {r : Region} (hr : r ∈ regions) :
    ∃ f ∈ files, r.destination = f.name ∧ r.bufferId.fileName = FileName.normalize f.name := by
  obtain ⟨parts, hparts, rfl⟩ := ofFiles_eq_ok_iff.mp h
  obtain ⟨f, hf, part, hpart, hr⟩ := exists_file_of_mem_flatten hparts hr
  exact ⟨f, hf, destination_of_ofFile hpart hr, fileName_of_ofFile hpart hr⟩

/-- Regions of files with distinct names have distinct ids. -/
theorem nodup_bufferId_of_ofFiles {files : List SourceFile} {regions : List Region}
    (hnames : DistinctNames files) (h : ofFiles files = .ok regions) :
    (regions.map (·.bufferId)).Nodup := by
  obtain ⟨parts, hparts, rfl⟩ := ofFiles_eq_ok_iff.mp h
  induction hparts with
  | nil => exact List.nodup_nil
  | @cons f part files parts hpart hrest ih =>
    have hfiles := ofFiles_eq_ok_iff.mpr ⟨parts, hrest, rfl⟩
    rw [DistinctNames, List.map_cons, List.nodup_cons] at hnames
    rw [List.flatten_cons, List.map_append]
    apply List.Nodup.append (nodup_bufferId_of_ofFile hpart) (ih hnames.2 hfiles)
    intro id hid hid'
    obtain ⟨r, hr, rfl⟩ := List.mem_map.mp hid
    obtain ⟨r', hr', hid'⟩ := List.mem_map.mp hid'
    obtain ⟨g, hg, -, hname⟩ := fileName_of_ofFiles hfiles hr'
    rw [hid', fileName_of_ofFile hpart hr] at hname
    exact hnames.1 (List.mem_map.mpr ⟨g, hg, hname.symm⟩)

end Region

end Playground

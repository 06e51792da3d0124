import Playground.Proofs.Matching
/-!
# Regions are laminar and made of whole lines

A region begins behind the line feed of its start line and ends where its end line begins, so it
holds whole lines.  Marker lines are not empty: two regions of a file nest with a marker line at
either end, or a marker line lies between them.
-/

namespace Playground.Region

open Text

/-! ## 1. Offsets at which lines begin -/

/-- A line feed stands right before the offset. -/
def FollowsLf (cs : List Char) (offset : Nat) : Prop :=
  ∃ front back, cs = front ++ '\n' :: back ∧ byteLength (front ++ ['\n']) = offset

/-- A line begins at the offset: the text does, or a line feed stands right before it. -/
def BeginsLine (cs : List Char) (offset : Nat) : Prop :=
  offset = 0 ∨ FollowsLf cs offset

/-- The region is cut out of the text in whole lines. -/
structure HoldsLines (cs : List Char) (r : Region) : Prop where
  /-- The span lies in the text and cuts no character. -/
  fits : IsBoundary cs r.span.start ∧ IsBoundary cs r.span.stop ∧ r.span.stop ≤ byteLength cs
  starts : FollowsLf cs r.span.start
  stops : BeginsLine cs r.span.stop
  /-- What the span holds is empty or ends in a line feed. -/
  content : ∃ body, r.content? cs = some body ∧ EndsLine body

/-- Behind whole lines, of which there are some, stands a line feed. -/
theorem followsLf_of_lines {parts : List (List Char)} (hne : parts ≠ [])
    (hparts : ∀ line ∈ parts, IsLine line) (back : List Char) :
    FollowsLf (parts.flatten ++ back) (byteLength parts.flatten) := by
  obtain ⟨front, hfront⟩ := (endsLine_flatten hparts).resolve_left fun hnil => by
    obtain ⟨line, later, rfl⟩ := List.exists_cons_of_ne_nil hne
    rw [List.flatten_cons, List.append_eq_nil_iff] at hnil
    exact (hparts line List.mem_cons_self).ne_nil hnil.1
  rw [hfront]
  exact ⟨front, back, List.append_assoc _ _ _, rfl⟩

/-! ## 2. The regions of a file -/

/-- A span from behind some lines to the end of some more is cut out in whole lines. -/
theorem holdsLines_of_parts {r : Region} {above inner : List (List Char)} (hne : above ≠ [])
    (hwhole : ∀ line ∈ above ++ inner, IsLine line) (behind : List Char)
    (hspan : r.span = ⟨byteLength above.flatten, byteLength inner.flatten⟩) :
    HoldsLines (above.flatten ++ inner.flatten ++ behind) r := by
  have hstop : r.span.stop = byteLength (above ++ inner).flatten := by
    rw [hspan, List.flatten_append, byteLength_append]
    rfl
  have hboundary : IsBoundary (above.flatten ++ inner.flatten ++ behind) r.span.stop :=
    ⟨(above ++ inner).flatten, behind, by rw [List.flatten_append], hstop.symm⟩
  have habove : ∀ line ∈ above, IsLine line := fun line hl =>
    hwhole line (List.mem_append_left _ hl)
  refine ⟨⟨⟨above.flatten, _, List.append_assoc _ _ _, by rw [hspan]⟩, hboundary, hboundary.le⟩,
    ?_, .inr ?_, inner.flatten, ?_, endsLine_flatten fun line hl =>
      hwhole line (List.mem_append_right _ hl)⟩
  · rw [hspan, List.append_assoc]
    exact followsLf_of_lines hne habove _
  · rw [hstop, ← List.flatten_append]
    exact followsLf_of_lines (List.append_ne_nil_of_left_ne_nil hne _) hwhole behind
  · rw [content?, hspan]
    exact slice_append above.flatten inner.flatten behind

/-- Behind the lines of a pair comes its end line, so all of them are whole. -/
theorem holdsLines_of_matches {cs : List Char} (file : String) {p : Pair}
    (h : p.Matches (lines cs)) : HoldsLines cs (p.region file (lines cs)) := by
  obtain ⟨before, opening, inner, closing, behind, hls, hi, hj, -, -, -⟩ := Pair.matches_iff.mp h
  have hparts : lines cs = (before ++ [opening] ++ inner) ++ closing :: behind := by
    rw [hls]
    simp
  have hwhole : ∀ line ∈ before ++ [opening] ++ inner, IsLine line := by
    have hlines := areLines_lines cs
    rw [hparts] at hlines
    exact hlines.isLine_left (List.cons_ne_nil _ _)
  have hcs : cs = (before ++ [opening]).flatten ++ inner.flatten ++
      (closing :: behind).flatten := by
    rw [← flatten_lines cs, hparts, List.flatten_append, List.flatten_append]
  have hregion := Pair.region_eq file closing behind hi hj
  rw [← hls] at hregion
  have hholds := holdsLines_of_parts (r := p.region file (lines cs))
    (List.append_ne_nil_of_right_ne_nil before (List.cons_ne_nil opening [])) hwhole
    (closing :: behind).flatten (by rw [hregion])
  rwa [← hcs] at hholds

/-- The regions found in a text, in the order in which they are given. -/
structure Laminar (cs : List Char) (regions : List Region) : Prop where
  lines : ∀ r ∈ regions, HoldsLines cs r
  ascending : regions.Pairwise fun a b => a.span.start < b.span.start
  /-- Of two regions the first ends before the second starts, or the second lies within the first
  and touches neither of its ends. -/
  apart : regions.Pairwise fun a b => a.span.stop < b.span.start ∨
    a.span.start < b.span.start ∧ b.span.stop < a.span.stop
  distinct : (regions.map (·.bufferId)).Nodup

/-- The regions of a file hold whole lines and nest strictly or lie apart, and no two regions have
one id, in a file or in files of distinct names. -/
theorem laminar_regions :
    (∀ (f : SourceFile) (regions : List Region), ofFile f = .ok regions →
      Laminar f.text.toList regions) ∧
    ∀ (files : List SourceFile) (regions : List Region), DistinctNames files →
      ofFiles files = .ok regions → (regions.map (·.bufferId)).Nodup := by
  refine ⟨fun f regions h => ?_, fun files regions hnames h => nodup_bufferId_of_ofFiles hnames h⟩
  have hpairs : regions.Pairwise Precedes := by
    obtain ⟨o, -, -, rfl⟩ := ofFile_eq_ok_iff.mp h
    exact o.pairwise_regions 0
  refine ⟨fun r hr => ?_, hpairs.imp Precedes.start_lt, hpairs.imp Or.symm,
    nodup_bufferId_of_ofFile h⟩
  obtain ⟨pairs, -, hmem, rfl⟩ := ofFile_eq_map_pairs h
  obtain ⟨p, hp, rfl⟩ := List.mem_map.mp hr
  exact holdsLines_of_matches f.name ((hmem p).mp hp)

/-- The regions of a file are those that the scan has closed, in the order of their starts. -/
theorem ofFile_of_scan {f : SourceFile} {found sorted : List Region}
    (hscan : ((Text.lines f.text.toList).foldlM (Scan.line f.name) Scan.start).map
      (·.closed.reverse) = .ok found)
    (hperm : found.Perm sorted) (hsorted : sorted.Pairwise fun a b => a.span.start < b.span.start) :
    ofFile f = .ok sorted := by
  rw [ofFile]
  cases hs : (Text.lines f.text.toList).foldlM (Scan.line f.name) Scan.start with
  | error e => rw [hs] at hscan; cases hscan
  | ok s =>
    rw [hs] at hscan
    obtain rfl : s.closed.reverse = found := Except.ok.inj hscan
    show Except.ok (s.closed.reverse.mergeSort _) = _
    exact congrArg Except.ok (mergeSort_key_eq_of_perm hperm hsorted)

/-- Two regions in a third one, of which the first is empty, with line ends of both kinds and none
at the end of the text. -/
def nestedText : String :=
  "é\r\n#region a\r\n//#region b\n#endregion\r\n #region c\nü\r\n#endregion x\n#endregion"

/-- The regions of a file with that text: the outer one, and the two in it. -/
def nestedRegions (file : String) : List Region :=
  ⟨⟨file, some "a"⟩, ⟨15, 52⟩, file⟩ ::
    [⟨⟨file, some "b"⟩, ⟨27, 0⟩, file⟩, ⟨⟨file, some "c"⟩, ⟨50, 4⟩, file⟩]

/-- The scan closes the outer region last. -/
theorem ofFile_nestedText (file : String)
    (hscan : ((Text.lines nestedText.toList).foldlM (Scan.line file) Scan.start).map
      (·.closed.reverse) =
        .ok ((nestedRegions file).tail ++ [⟨⟨file, some "a"⟩, ⟨15, 52⟩, file⟩])) :
    ofFile ⟨file, nestedText⟩ = .ok (nestedRegions file) :=
  ofFile_of_scan hscan List.perm_append_comm (by simp [nestedRegions])

theorem laminar_regions_nestedText :
    Laminar nestedText.toList (nestedRegions "a.cs") ∧
      ((nestedRegions "a.cs" ++ nestedRegions "b.cs").map (·.bufferId)).Nodup := by
  have hnames : DistinctNames [⟨"a.cs", nestedText⟩, ⟨"b.cs", nestedText⟩] := by
    unfold DistinctNames
    decide +kernel
  have hfile : ofFile ⟨"a.cs", nestedText⟩ = .ok (nestedRegions "a.cs") :=
    ofFile_nestedText "a.cs" (by decide +kernel)
  have hother : ofFile ⟨"b.cs", nestedText⟩ = .ok (nestedRegions "b.cs") :=
    ofFile_nestedText "b.cs" (by decide +kernel)
  have hfiles : ofFiles [⟨"a.cs", nestedText⟩, ⟨"b.cs", nestedText⟩] =
      .ok (nestedRegions "a.cs" ++ nestedRegions "b.cs") :=
    ofFiles_cons hfile (ofFiles_cons hother rfl)
  exact ⟨laminar_regions.1 _ _ hfile, laminar_regions.2 _ _ hnames hfiles⟩

end Playground.Region

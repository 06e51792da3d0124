import Playground.Region.Extract
import Playground.Proofs.Cutting
/-!
# Outlines

An outline is the tree that the marker lines of a text span: a region is a start marker, an outline
in which every marker has its partner, and an end marker.  Outside all regions, ends may come
without a start, and after them regions may stay open up to the end.  Every list of lines has an
outline, so what is done to regions can be followed by recursion on it.
-/

namespace Playground.Region

/-- Which markers of an outline may lack a partner. -/
inductive Strays where
  | none
  | unclosed
  | any
deriving DecidableEq

/-- Lines whose markers are matched.  The proofs say what kind of line each one is. -/
inductive Outline : Strays → Type where
  | done {k : Strays} : Outline k
  | line {k : Strays} (text : List Char) (plain : Marker.ofLine? text = none) (rest : Outline k) :
      Outline k
  | block {k : Strays} (opening name : List Char)
      (starts : Marker.ofLine? opening = some (.start name)) (body : Outline .none)
      (closing : List Char) (stops : Marker.ofLine? closing = some .stop) (rest : Outline k) :
      Outline k
  | unclosed {k : Strays} (allowed : k ≠ .none) (opening name : List Char)
      (starts : Marker.ofLine? opening = some (.start name)) (rest : Outline .unclosed) : Outline k
  | unopened {k : Strays} (allowed : k = .any) (closing : List Char)
      (stops : Marker.ofLine? closing = some .stop) (rest : Outline k) : Outline k

namespace Outline

variable {k : Strays}

/-! ## 1. What an outline says -/

/-- The lines from first to last. -/
def lines {k : Strays} : Outline k → List (List Char)
  | done => []
  | line text _ rest => text :: rest.lines
  | block opening _ _ body closing _ rest => opening :: body.lines ++ closing :: rest.lines
  | unclosed _ opening _ _ rest => opening :: rest.lines
  | unopened _ closing _ rest => closing :: rest.lines

/-- The text of the lines. -/
def text (o : Outline k) : List Char := o.lines.flatten

/-- The names of all start markers, in order. -/
def names {k : Strays} : Outline k → List (List Char)
  | done => []
  | line _ _ rest => rest.names
  | block _ name _ body _ _ rest => name :: body.names ++ rest.names
  | unclosed _ _ name _ rest => name :: rest.names
  | unopened _ _ _ rest => rest.names

/-- The region of a block whose body starts at `start`. -/
def region (file : String) (name : List Char) (start : Nat) (body : Outline k) : Region :=
  ⟨.region file (String.ofList name), ⟨start, Text.byteLength body.text⟩, file⟩

/-- The regions of an outline that starts at `offset`, outer ones before inner ones. -/
def regions (file : String) {k : Strays} : Nat → Outline k → List Region
  | _, done => []
  | offset, line text _ rest => rest.regions file (offset + Text.byteLength text)
  | offset, block opening name _ body closing _ rest =>
      let start := offset + Text.byteLength opening
      let stop := start + Text.byteLength body.text
      region file name start body ::
        body.regions file start ++ rest.regions file (stop + Text.byteLength closing)
  | offset, unclosed _ opening _ _ rest => rest.regions file (offset + Text.byteLength opening)
  | offset, unopened _ closing _ rest => rest.regions file (offset + Text.byteLength closing)

/-- The same regions in the order of their ends. -/
def closed (file : String) {k : Strays} : Nat → Outline k → List Region
  | _, done => []
  | offset, line text _ rest => rest.closed file (offset + Text.byteLength text)
  | offset, block opening name _ body closing _ rest =>
      let start := offset + Text.byteLength opening
      let stop := start + Text.byteLength body.text
      body.closed file start ++ region file name start body ::
        rest.closed file (stop + Text.byteLength closing)
  | offset, unclosed _ opening _ _ rest => rest.closed file (offset + Text.byteLength opening)
  | offset, unopened _ closing _ rest => rest.closed file (offset + Text.byteLength closing)

/-- The regions that stay open, innermost first. -/
def opened {k : Strays} : Nat → Outline k → List Opened
  | _, done => []
  | offset, line text _ rest => rest.opened (offset + Text.byteLength text)
  | offset, block opening _ _ body closing _ rest =>
      rest.opened (offset + Text.byteLength opening + Text.byteLength body.text +
        Text.byteLength closing)
  | offset, unclosed _ opening name _ rest =>
      let start := offset + Text.byteLength opening
      rest.opened start ++ [⟨name, start⟩]
  | offset, unopened _ closing _ rest => rest.opened (offset + Text.byteLength closing)

@[simp] theorem text_done : (done : Outline k).text = [] := rfl

@[simp] theorem text_line (text : List Char) (plain) (rest : Outline k) :
    (line text plain rest).text = text ++ rest.text := rfl

@[simp] theorem text_block (opening name : List Char) (starts) (body : Outline .none)
    (closing : List Char) (stops) (rest : Outline k) :
    (block opening name starts body closing stops rest).text =
      opening ++ (body.text ++ (closing ++ rest.text)) := by
  simp [text, lines]

@[simp] theorem text_unclosed (allowed : k ≠ .none) (opening name : List Char) (starts)
    (rest : Outline .unclosed) :
    (unclosed allowed opening name starts rest).text = opening ++ rest.text := rfl

@[simp] theorem text_unopened (allowed : k = .any) (closing : List Char) (stops)
    (rest : Outline k) : (unopened allowed closing stops rest).text = closing ++ rest.text := rfl

/-- A text around a block, seen as the text around its body. -/
theorem append_text_body (front back opening name : List Char) (starts) (body : Outline .none)
    (closing : List Char) (stops) (rest : Outline k) :
    front ++ (block opening name starts body closing stops rest).text ++ back =
      (front ++ opening) ++ body.text ++ (closing ++ rest.text ++ back) := by
  simp

/-- A text around a block, seen as the text around what follows it. -/
theorem append_text_rest (front back opening name : List Char) (starts) (body : Outline .none)
    (closing : List Char) (stops) (rest : Outline k) :
    front ++ (block opening name starts body closing stops rest).text ++ back =
      (front ++ opening ++ body.text ++ closing) ++ rest.text ++ back := by
  simp

@[simp] theorem region_start (file : String) (name : List Char) (start : Nat) (body : Outline k) :
    (region file name start body).span.start = start := rfl

@[simp] theorem region_length (file : String) (name : List Char) (start : Nat)
    (body : Outline k) :
    (region file name start body).span.length = Text.byteLength body.text := rfl

@[simp] theorem region_stop (file : String) (name : List Char) (start : Nat) (body : Outline k) :
    (region file name start body).span.stop = start + Text.byteLength body.text := rfl

/-! ## 2. Every list of lines has an outline -/

/-- An outline is matched up to its first end without a start, if it has one. -/
theorem lines_split (o : Outline k) :
    (∃ (body : Outline .none) (closing : List Char) (rest : Outline .any),
      Marker.ofLine? closing = some .stop ∧ o.lines = body.lines ++ closing :: rest.lines) ∨
    ∃ o' : Outline .unclosed, o'.lines = o.lines := by
  induction o with
  | done => exact .inr ⟨done, rfl⟩
  | line text plain rest ih =>
    rcases ih with ⟨body, closing, rest', stops, h⟩ | ⟨o', h⟩
    · exact .inl ⟨line text plain body, closing, rest', stops, by simp [lines, h]⟩
    · exact .inr ⟨line text plain o', by simp [lines, h]⟩
  | block opening name starts inner closing stops rest _ ih =>
    rcases ih with ⟨body, closing', rest', stops', h⟩ | ⟨o', h⟩
    · exact .inl ⟨block opening name starts inner closing stops body, closing', rest', stops',
        by simp [lines, h]⟩
    · exact .inr ⟨block opening name starts inner closing stops o', by simp [lines, h]⟩
  | unclosed _ opening name starts rest _ =>
    exact .inr ⟨unclosed (by decide) opening name starts rest, rfl⟩
  | unopened allowed closing stops rest _ =>
    subst allowed
    exact .inl ⟨done, closing, rest, stops, rfl⟩

/-- Lines are matched from the last to the first: a start marker takes the first end that still
lacks one. -/
theorem exists_outline (ls : List (List Char)) : ∃ o : Outline .any, o.lines = ls := by
  induction ls with
  | nil => exact ⟨done, rfl⟩
  | cons l ls ih =>
    obtain ⟨o, ho⟩ := ih
    cases hm : Marker.ofLine? l with
    | none => exact ⟨line l hm o, by rw [lines, ho]⟩
    | some m =>
      cases m with
      | stop => exact ⟨unopened rfl l hm o, by rw [lines, ho]⟩
      | start name =>
        rcases o.lines_split with ⟨body, closing, rest, stops, h⟩ | ⟨o', h⟩
        · exact ⟨block l name hm body closing stops rest, by rw [lines, ← ho, h]; rfl⟩
        · exact ⟨unclosed (by decide) l name hm o', by rw [lines, h, ho]⟩

end Outline

end Playground.Region

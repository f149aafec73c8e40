import CaretReport.Proofs.SegmentLines
import Mathlib

/-!
# The text under a segment

A drawing shows the messages of the labels, and of their children, line by
line.  Every row holds at most one line of text, behind its glyphs, and the rows
hold the texts in the order of the labels.  This file proves that so no line of
text is dropped, repeated or moved, and it counts the lines of a drawing.  None
of this depends on where the segment stands.
-/

namespace CaretReport

/-- The text consists of blanks and box glyphs. -/
def IsBoxArt (text : List Char) : Prop :=
  ∀ shown ∈ text, shown = ' ' ∨ ∃ shape : Glyph, shown = shape.char

/-- The lines show the texts in order, each in a place of its own behind blanks
and glyphs.  The lines in all other places hold blanks and glyphs only. -/
structure Displays (lines texts : List (List Char)) (places : List Nat) :
    Prop where
  increasing : places.Pairwise (· < ·)
  shown : List.Forall₂ (fun text place =>
    ∃ art, lines[place]? = some (art ++ text) ∧ IsBoxArt art) texts places
  others : ∀ place line, lines[place]? = some line → place ∉ places →
    IsBoxArt line

theorem displays_nil : Displays [] [] [] where
  increasing := List.Pairwise.nil
  shown := List.Forall₂.nil
  others _ _ drawn := by cases drawn

namespace Displays

variable {lines texts : List (List Char)} {places : List Nat}
variable (displays : Displays lines texts places)

include displays

theorem increasing_succ : (places.map (· + 1)).Pairwise (· < ·) :=
  List.pairwise_map.mpr (displays.increasing.imp Nat.succ_lt_succ)

/-- Under a further line on top, every text stands one place lower. -/
theorem shown_succ (line : List Char) :
    List.Forall₂ (fun text place =>
      ∃ art, (line :: lines)[place]? = some (art ++ text) ∧ IsBoxArt art)
        texts (places.map (· + 1)) :=
  List.forall₂_map_right_iff.mpr displays.shown

theorem others_succ (line : List Char) {place : Nat} {other : List Char}
    (drawn : (line :: lines)[place + 1]? = some other)
    (free : place + 1 ∉ places.map (· + 1)) : IsBoxArt other :=
  displays.others place other drawn fun member =>
    free (List.mem_map_of_mem member)

theorem cons_art {art : List Char} (isArt : IsBoxArt art) :
    Displays (art :: lines) texts (places.map (· + 1)) where
  increasing := displays.increasing_succ
  shown := displays.shown_succ art
  others place line drawn free := by
    cases place with
    | zero =>
        obtain rfl : art = line := Option.some.inj drawn
        exact isArt
    | succ place => exact displays.others_succ art drawn free

theorem cons_text {art : List Char} (isArt : IsBoxArt art) (text : List Char) :
    Displays ((art ++ text) :: lines) (text :: texts)
      (0 :: places.map (· + 1)) where
  increasing := by
    refine List.pairwise_cons.mpr ⟨?_, displays.increasing_succ⟩
    intro place member
    obtain ⟨before, _, rfl⟩ := List.mem_map.mp member
    exact Nat.succ_pos before
  shown := .cons ⟨art, rfl, isArt⟩ (displays.shown_succ (art ++ text))
  others place line drawn free := by
    rw [List.mem_cons, not_or] at free
    cases place with
    | zero => exact absurd rfl free.1
    | succ place => exact displays.others_succ (art ++ text) drawn free.2

end Displays

/-- Rows of glyphs display the texts that they hold. -/
theorem exists_displays {rows : List Row}
    (arts : ∀ row ∈ rows, IsBoxArt row.art.plain) :
    ∃ places, Displays (rows.map Row.plain)
      ((rows.filterMap Row.text).map Line.plain) places := by
  induction rows with
  | nil => exact ⟨[], displays_nil⟩
  | cons row rest ih =>
      obtain ⟨isArt, rest_arts⟩ := List.forall_mem_cons.mp arts
      obtain ⟨places, displays⟩ := ih rest_arts
      obtain ⟨art, text⟩ := row
      cases text with
      | none =>
          have bare : IsBoxArt (art.plain ++ []) := by
            rw [List.append_nil]
            exact isArt
          exact ⟨_, displays.cons_art bare⟩
      | some text => exact ⟨_, displays.cons_text isArt text.plain⟩

/-- The height of a callout counts its lines of text, and one row above each
child. -/
theorem PlacedLabel.height_eq (label : PlacedLabel) :
    label.height = label.texts.length + label.children.length := by
  unfold height texts
  rw [List.length_append]
  induction label.children with
  | nil => rfl
  | cons child rest ih =>
      rw [List.foldr_cons, ih, List.flatMap_cons, List.length_append,
        List.length_cons]
      omega

/-- The callouts of several labels stand below one another, with one row between
each and the next. -/
theorem length_callouts (layout : Layout) (first : Int)
    (labels : List PlacedLabel) :
    (callouts layout first labels).length =
      (labels.length - 1) + (labels.map PlacedLabel.height).sum := by
  induction labels with
  | nil => rfl
  | cons label rest ih =>
      rw [callouts_cons, List.length_append, List.length_append,
        Turn.length_rows, ih, List.map_cons, List.sum_cons, List.length_cons]
      change label.height + _ + _ = _
      split
      · rename_i last
        simp [last]
      · rename_i more
        have positive := List.length_pos_iff.mpr more
        rw [List.length_singleton]
        omega

theorem length_resetLast (lines : List Line) :
    (resetLast lines).length = lines.length := by
  induction lines with
  | nil => rfl
  | cons line rest ih =>
      cases rest with
      | nil => rfl
      | cons next rest => exact congrArg (· + 1) ih

namespace Segment

theorem length_draw (segment : Segment) (layout : Layout) :
    (segment.draw layout).length =
      2 + (segment.labels.length - 1) +
        (segment.labels.map PlacedLabel.height).sum := by
  have same : segment.sortedLabels.Perm segment.labels :=
    List.mergeSort_perm _ _
  rw [draw, length_resetLast, List.length_map, rows, List.length_cons,
    List.length_cons, length_callouts, same.length_eq,
    (same.map PlacedLabel.height).sum_eq]
  omega

/-- A drawing shows every line of text of its labels once and in order: the
labels by position, each with its message before those of its children.  Besides
an underbar and a separator it has one line for each text, one above each child,
and one between any label and the next. -/
theorem draw_displays_texts (segment : Segment) (layout : Layout) :
    (∃ places, Displays ((segment.draw layout).map Line.plain)
      ((segment.sortedLabels.flatMap PlacedLabel.texts).map Line.plain)
        places) ∧
    (segment.draw layout).length =
      2 + (segment.labels.length - 1) +
        (segment.labels.map fun label =>
          label.texts.length + label.children.length).sum := by
  constructor
  · rw [map_plain_draw, ← filterMap_text_rows layout segment]
    apply exists_displays
    intro row member shown inside
    exact (wordless_of_mem_rows layout member).char_of_mem_plain inside
  · rw [length_draw, funext PlacedLabel.height_eq]

end Segment

end CaretReport

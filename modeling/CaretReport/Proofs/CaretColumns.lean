import CaretReport.Drawing
import CaretReport.Proofs.LineText
import Mathlib.Data.List.Pairwise

/-!
# Columns of carets

The underbar and the separators are drawn from the distinct caret positions of
labels sorted by position.  This file describes both column by column: the
underbar has a `┬` in every caret column and rule everywhere else, and a
separator has a `│` in every caret column and blanks everywhere else.
-/

namespace CaretReport

/-- The character that a text shows in a column; past its end it is blank. -/
def shownAt (text : List Char) (column : Int) : Char :=
  text.getD column.toNat ' '

section ShownAt

variable {text more : List Char} {column : Int}

theorem shownAt_append_left (inside : column.toNat < text.length) :
    shownAt (text ++ more) column = shownAt text column := by
  simp only [shownAt, List.getD_eq_getElem?_getD,
    List.getElem?_append_left inside]

theorem shownAt_append_right (outside : text.length ≤ column) :
    shownAt (text ++ more) column = shownAt more (column - text.length) := by
  have past : text.length ≤ column.toNat := by omega
  have same : column.toNat - text.length = (column - text.length).toNat := by
    omega
  simp only [shownAt, List.getD_eq_getElem?_getD,
    List.getElem?_append_right past, same]

theorem shownAt_replicate {count : Nat} {character : Char}
    (inside : column.toNat < count) :
    shownAt (List.replicate count character) column = character := by
  simp [shownAt, inside]

@[simp]
theorem shownAt_blanks (count : Nat) :
    shownAt (List.replicate count ' ') column = ' ' := by
  simp only [shownAt, List.getD_eq_getElem?_getD, List.getElem?_replicate]
  split <;> rfl

theorem shownAt_past (outside : text.length ≤ column) :
    shownAt text column = ' ' := by
  have past : text.length ≤ column.toNat := by omega
  simp [shownAt, List.getElem?_eq_none past]

/-- Blanks at the end of a text change nothing that it shows. -/
theorem shownAt_append_blanks (nonneg : 0 ≤ column) (count : Nat) :
    shownAt (text ++ List.replicate count ' ') column = shownAt text column := by
  by_cases inside : column < text.length
  · exact shownAt_append_left (by omega)
  · have outside : (text.length : Int) ≤ column := by omega
    rw [shownAt_append_right outside, shownAt_blanks, shownAt_past outside]

end ShownAt

/-- The first label of every position. -/
def firstLabels (labels : List PlacedLabel) : List PlacedLabel :=
  labels.eraseDupsBy fun label other => label.position == other.position

theorem firstLabels_cons (label : PlacedLabel) (rest : List PlacedLabel) :
    firstLabels (label :: rest) =
      label :: firstLabels (rest.filter fun other =>
        decide (other.position ≠ label.position)) := by
  simp only [firstLabels, List.eraseDupsBy_cons]
  congr 2
  simp

theorem exists_firstLabel_iff (labels : List PlacedLabel) (position : Int) :
    (∃ label ∈ firstLabels labels, label.position = position) ↔
      ∃ label ∈ labels, label.position = position := by
  match labels with
  | [] => rfl
  | label :: rest =>
      rw [firstLabels_cons, List.exists_mem_cons_iff, List.exists_mem_cons_iff,
        exists_firstLabel_iff]
      constructor
      · rintro (here | ⟨other, member, there⟩)
        · exact Or.inl here
        · exact Or.inr ⟨other, List.mem_of_mem_filter member, there⟩
      · rintro (here | ⟨other, member, there⟩)
        · exact Or.inl here
        · by_cases same : other.position = label.position
          · exact Or.inl (same.symm.trans there)
          · exact Or.inr ⟨other, by simp [member, same], there⟩
termination_by labels.length
decreasing_by exact Nat.lt_succ_of_le (List.length_filter_le _ _)

theorem pairwise_firstLabels {labels : List PlacedLabel}
    (sorted : labels.Pairwise fun label other =>
      label.position ≤ other.position) :
    (firstLabels labels).Pairwise fun label other =>
      label.position < other.position := by
  match labels with
  | [] => exact List.Pairwise.nil
  | label :: rest =>
      obtain ⟨first, rest_sorted⟩ := List.pairwise_cons.mp sorted
      rw [firstLabels_cons]
      refine List.pairwise_cons.mpr ⟨?_,
        pairwise_firstLabels (rest_sorted.filter _)⟩
      intro other member
      obtain ⟨source, source_mem, same⟩ := (exists_firstLabel_iff _ _).mp
        ⟨other, member, rfl⟩
      obtain ⟨in_rest, different⟩ := List.mem_filter.mp source_mem
      have ordered := first source in_rest
      rw [decide_eq_true_eq] at different
      omega
termination_by labels.length
decreasing_by exact Nat.lt_succ_of_le (List.length_filter_le _ _)

theorem exists_connector_iff (labels : List PlacedLabel) (position : Int) :
    (∃ caret ∈ connectors labels, caret.1 = position) ↔
      ∃ label ∈ labels, label.position = position := by
  rw [← exists_firstLabel_iff]
  simp [connectors, firstLabels]

theorem pairwise_connectors {labels : List PlacedLabel}
    (sorted : labels.Pairwise fun label other =>
      label.position ≤ other.position) :
    (connectors labels).Pairwise fun caret other => caret.1 < other.1 :=
  List.pairwise_map.mpr (pairwise_firstLabels sorted)

/-- The columns of the carets of labels. -/
def caretColumns (first : Int) (labels : List PlacedLabel) : List Int :=
  labels.map fun label => first + label.position

theorem mem_caretColumns {first column : Int} {labels : List PlacedLabel} :
    column ∈ caretColumns first labels ↔
      ∃ label ∈ labels, first + label.position = column :=
  List.mem_map

theorem mem_connectorColumns_iff {first column : Int}
    {labels : List PlacedLabel} :
    (column ∈ (connectors labels).map fun caret => first + caret.1) ↔
      column ∈ caretColumns first labels := by
  have moved := exists_connector_iff labels (column - first)
  have same_place (place : Int) :
      place = column - first ↔ first + place = column := by omega
  simp only [same_place] at moved
  rw [List.mem_map, mem_caretColumns]
  exact moved

/-- From `start` on the text shows a `┬` in each of the marked columns and rule
in all others; before `start` it is blank. -/
structure Barred (start : Int) (marks : List Int) (text : List Char) : Prop where
  blank : ∀ column : Int, 0 ≤ column → column < start →
    shownAt text column = ' '
  barred : ∀ column : Int, start ≤ column → column < text.length →
    shownAt text column =
      if column ∈ marks then Glyph.down.char else Glyph.rule.char
  started : start ≤ text.length
  inside : ∀ mark ∈ marks, mark < text.length

theorem barred_congr {start : Int} {marks others : List Int} {text : List Char}
    (barred : Barred start marks text)
    (same : ∀ column, column ∈ marks ↔ column ∈ others) :
    Barred start others text where
  blank := barred.blank
  barred := by simpa only [same] using barred.barred
  started := barred.started
  inside := by simpa only [same] using barred.inside

theorem barred_blanks {start : Int} (nonneg : 0 ≤ start) :
    Barred start [] (List.replicate start.toNat ' ') where
  blank := by simp
  barred column after before := by
    rw [List.length_replicate] at before
    omega
  started := by
    rw [List.length_replicate]
    omega
  inside := by simp

theorem barred_rule {start : Int} {marks : List Int} {text : List Char}
    (barred : Barred start marks text) (nonneg : 0 ≤ start) (count : Nat) :
    Barred start marks (text ++ List.replicate count Glyph.rule.char) := by
  have started := barred.started
  constructor
  · intro column column_nonneg before
    rw [shownAt_append_left (by omega)]
    exact barred.blank column column_nonneg before
  · intro column after before
    rw [List.length_append, List.length_replicate] at before
    by_cases old : column < text.length
    · rw [shownAt_append_left (by omega)]
      exact barred.barred column after old
    · have unmarked : column ∉ marks := fun member =>
        old (barred.inside column member)
      rw [shownAt_append_right (by omega), shownAt_replicate (by omega),
        if_neg unmarked]
  · rw [List.length_append]
    omega
  · intro mark member
    have within := barred.inside mark member
    rw [List.length_append]
    omega

theorem barred_down {start : Int} {marks : List Int} {text : List Char}
    (barred : Barred start marks text) (nonneg : 0 ≤ start) :
    Barred start (marks ++ [(text.length : Int)])
      (text ++ [Glyph.down.char]) := by
  have started := barred.started
  constructor
  · intro column column_nonneg before
    rw [shownAt_append_left (by omega)]
    exact barred.blank column column_nonneg before
  · intro column after before
    rw [List.length_append, List.length_singleton] at before
    by_cases old : column < text.length
    · have same : column ∈ marks ++ [(text.length : Int)] ↔ column ∈ marks := by
        rw [List.mem_append, List.mem_singleton]
        exact or_iff_left (Int.ne_of_lt old)
      rw [shownAt_append_left (by omega), barred.barred column after old]
      simp only [same]
    · have here : column = text.length := by omega
      rw [here, shownAt_append_right (by omega), Int.sub_self,
        if_pos (by simp)]
      rfl
  · rw [List.length_append]
    omega
  · intro mark member
    rw [List.length_append, List.length_singleton]
    rw [List.mem_append, List.mem_singleton] at member
    rcases member with old | rfl
    · have within := barred.inside mark old
      omega
    · omega

theorem underbarFrom_shows {first : Int} (nonneg : 0 ≤ first)
    {carets : List (Int × Option Rgb)}
    (increasing : carets.Pairwise fun caret other => caret.1 < other.1)
    {width previous : Int} (room : previous ≤ width)
    (between : ∀ caret ∈ carets, previous < caret.1 ∧ caret.1 ≤ width)
    {marks : List Int} {line : Line} {text : List Char}
    (shows : line.Shows text) (barred : Barred first marks text)
    (reached : (text.length : Int) = first + previous + 1)
    (color : Option Rgb) :
    ∃ longer, (underbarFrom width line previous color carets).Shows longer ∧
      Barred first (marks ++ carets.map fun caret => first + caret.1) longer ∧
      (longer.length : Int) = first + width + 1 := by
  induction carets generalizing previous marks line text color with
  | nil =>
      refine ⟨_, shows.rule _ _, ?_, ?_⟩
      · rw [List.map_nil, List.append_nil]
        exact barred_rule barred nonneg _
      · rw [List.length_append, List.length_replicate]
        omega
  | cons caret rest ih =>
      obtain ⟨position, next⟩ := caret
      obtain ⟨before, rest_increasing⟩ := List.pairwise_cons.mp increasing
      rw [List.forall_mem_cons] at between
      obtain ⟨⟨after, inside⟩, rest_between⟩ := between
      have ruled_length : ((text ++ List.replicate
          (position - previous - 1).toNat Glyph.rule.char).length : Int) =
            first + position := by
        rw [List.length_append, List.length_replicate]
        omega
      have ruled := barred_rule barred nonneg (position - previous - 1).toNat
      have marked := barred_down ruled nonneg
      rw [ruled_length] at marked
      obtain ⟨longer, longer_shows, longer_barred, longer_length⟩ :=
        ih rest_increasing inside
          (fun other member =>
            ⟨before other member, (rest_between other member).2⟩)
          ((shows.rule (position - previous - 1) (glyphStyle next)).glyph .down
            (glyphStyle next))
          marked
          (by rw [List.length_append, List.length_singleton]; omega) next
      refine ⟨longer, longer_shows, ?_, longer_length⟩
      rw [List.append_assoc, List.singleton_append] at longer_barred
      exact longer_barred

/-- The underbar of labels sorted by position reaches from the start of the
segment to its end, with a `┬` in every caret column. -/
theorem underbar_shows {first last : Int} {labels : List PlacedLabel}
    (nonneg : 0 ≤ first) (ordered : first ≤ last)
    (sorted : labels.Pairwise fun label other =>
      label.position ≤ other.position)
    (inside : ∀ label ∈ labels,
      0 ≤ label.position ∧ label.position ≤ last - first) :
    ∃ text, (underbar first last labels).Shows text ∧
      Barred first (caretColumns first labels) text ∧
      (text.length : Int) = last + 1 := by
  have between : ∀ caret ∈ connectors labels,
      -1 < caret.1 ∧ caret.1 ≤ last - first := by
    intro caret member
    obtain ⟨label, found, same⟩ :=
      (exists_connector_iff labels caret.1).mp ⟨caret, member, rfl⟩
    have bounds := inside label found
    omega
  obtain ⟨text, shows, barred, length⟩ := underbarFrom_shows nonneg
    (pairwise_connectors sorted) (by omega) between
    (Line.shows_empty.space first) (barred_blanks nonneg)
    (by rw [List.nil_append, List.length_replicate]; omega) none
  refine ⟨text, shows, barred_congr barred fun _ => mem_connectorColumns_iff, ?_⟩
  omega

/-- The text has a `│` in each of the columns and is blank in all others.  It
reaches past the last of them and no further. -/
structure Connects (columns : List Int) (text : List Char) : Prop where
  shown : ∀ column : Int, 0 ≤ column → shownAt text column =
    if column ∈ columns then Glyph.vertical.char else ' '
  reaches : ∀ column ∈ columns, column < text.length
  stops : ∀ limit : Int, 0 ≤ limit → (∀ column ∈ columns, column < limit) →
    text.length ≤ limit

theorem connects_nil : Connects [] [] where
  shown := by simp [shownAt]
  reaches := by simp
  stops := by simp

theorem connects_congr {columns others : List Int} {text : List Char}
    (connects : Connects columns text)
    (same : ∀ column, column ∈ columns ↔ column ∈ others) :
    Connects others text where
  shown := by simpa only [same] using connects.shown
  reaches := by simpa only [same] using connects.reaches
  stops := by simpa only [same] using connects.stops

/-- A further `│` to the right of all others, with blanks up to it. -/
theorem connects_concat {columns : List Int} {text : List Char}
    (connects : Connects columns text) {column : Int} (nonneg : 0 ≤ column)
    (behind : ∀ other ∈ columns, other < column) :
    Connects (columns ++ [column])
      (text ++ List.replicate (column - text.length).toNat ' ' ++
        [Glyph.vertical.char]) := by
  have room := connects.stops column nonneg behind
  have filled_length : ((text ++ List.replicate (column - text.length).toNat
      ' ').length : Int) = column := by
    rw [List.length_append, List.length_replicate]
    omega
  constructor
  · intro place place_nonneg
    rcases Int.lt_trichotomy place column with left | rfl | right
    · have same : place ∈ columns ++ [column] ↔ place ∈ columns := by
        rw [List.mem_append, List.mem_singleton]
        exact or_iff_left (Int.ne_of_lt left)
      rw [shownAt_append_left (by omega), shownAt_append_blanks place_nonneg,
        connects.shown place place_nonneg]
      simp only [same]
    · rw [shownAt_append_right (by omega), filled_length, Int.sub_self,
        if_pos (by simp)]
      rfl
    · have outside : place ∉ columns ++ [column] := by
        rw [List.mem_append, List.mem_singleton]
        rintro (old | same)
        · exact Int.lt_asymm right (behind place old)
        · exact Int.ne_of_gt right same
      rw [shownAt_past (by rw [List.length_append, List.length_singleton]; omega),
        if_neg outside]
  · intro place member
    rw [List.length_append, List.length_singleton]
    rw [List.mem_append, List.mem_singleton] at member
    rcases member with old | rfl
    · have before := behind place old
      omega
    · omega
  · intro limit _ fits
    have last_fits := fits column (by simp)
    rw [List.length_append, List.length_singleton]
    omega

theorem separatorFrom_shows {first : Int} {carets : List (Int × Option Rgb)}
    (increasing : carets.Pairwise fun caret other => caret.1 < other.1)
    (nonneg : ∀ caret ∈ carets, 0 ≤ first + caret.1) {columns : List Int}
    (behind : ∀ column ∈ columns, ∀ caret ∈ carets, column < first + caret.1)
    {line : Line} {text : List Char} (shows : line.Shows text)
    (connects : Connects columns text) :
    ∃ longer, (carets.foldl (fun line (position, color) =>
        (line.padTo (first + position)).glyph .vertical (glyphStyle color))
          line).Shows longer ∧
      Connects (columns ++ carets.map fun caret => first + caret.1) longer := by
  induction carets generalizing columns line text with
  | nil => exact ⟨text, shows, by simpa using connects⟩
  | cons caret rest ih =>
      obtain ⟨before, rest_increasing⟩ := List.pairwise_cons.mp increasing
      rw [List.forall_mem_cons] at nonneg
      have rest_behind : ∀ column ∈ columns ++ [first + caret.1],
          ∀ other ∈ rest, column < first + other.1 := by
        intro column member other found
        rw [List.mem_append, List.mem_singleton] at member
        rcases member with old | rfl
        · exact behind column old other (List.mem_cons_of_mem _ found)
        · have later := before other found
          omega
      obtain ⟨longer, longer_shows, longer_connects⟩ :=
        ih rest_increasing nonneg.2 rest_behind
          ((shows.padTo (first + caret.1)).glyph .vertical (glyphStyle caret.2))
          (connects_concat connects nonneg.1 fun column member =>
            behind column member caret List.mem_cons_self)
      refine ⟨longer, longer_shows, ?_⟩
      rw [List.append_assoc, List.singleton_append] at longer_connects
      exact longer_connects

/-- A separator has a `│` in every caret column. -/
theorem separator_shows {first : Int} {labels : List PlacedLabel}
    (sorted : labels.Pairwise fun label other =>
      label.position ≤ other.position)
    (nonneg : ∀ label ∈ labels, 0 ≤ first + label.position) :
    ∃ text, (separator first labels).Shows text ∧
      Connects (caretColumns first labels) text := by
  have caret_nonneg : ∀ caret ∈ connectors labels, 0 ≤ first + caret.1 := by
    intro caret member
    obtain ⟨label, found, same⟩ :=
      (exists_connector_iff labels caret.1).mp ⟨caret, member, rfl⟩
    have label_nonneg := nonneg label found
    omega
  obtain ⟨text, shows, connects⟩ := separatorFrom_shows
    (pairwise_connectors sorted) caret_nonneg (by simp) Line.shows_empty
    connects_nil
  exact ⟨text, shows, connects_congr connects fun _ => mem_connectorColumns_iff⟩

namespace PlacedLabel

theorem position_trans (label other third : PlacedLabel)
    (before : decide (label.position ≤ other.position) = true)
    (after : decide (other.position ≤ third.position) = true) :
    decide (label.position ≤ third.position) = true := by
  rw [decide_eq_true_eq] at before after ⊢
  exact Int.le_trans before after

theorem position_total (label other : PlacedLabel) :
    (decide (label.position ≤ other.position) ||
      decide (other.position ≤ label.position)) = true := by
  rw [Bool.or_eq_true, decide_eq_true_eq, decide_eq_true_eq]
  exact Int.le_total _ _

end PlacedLabel

namespace Segment

variable {segment : Segment}

theorem mem_sortedLabels {label : PlacedLabel} :
    label ∈ segment.sortedLabels ↔ label ∈ segment.labels :=
  List.mem_mergeSort

theorem pairwise_sortedLabels :
    segment.sortedLabels.Pairwise fun label other =>
      label.position ≤ other.position := by
  have sorted : segment.sortedLabels.Pairwise fun label other =>
      decide (label.position ≤ other.position) = true :=
    List.pairwise_mergeSort PlacedLabel.position_trans PlacedLabel.position_total _
  exact sorted.imp of_decide_eq_true

end Segment

end CaretReport

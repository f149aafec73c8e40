import CaretReport.Proofs.CaretColumns
import CaretReport.Proofs.StyledChars

/-!
# The owners of caret columns

Labels that share a caret position share a connector, which has the colour of the
first of them.  This file follows that owner into the underbar, where it also
decides over the columns left of its caret, and into the rows on which the
connectors of pending labels wait.
-/

namespace CaretReport

/-- The first label of every position, in the order of the positions. -/
structure Owners (labels owners : List PlacedLabel) : Prop where
  increasing : owners.Pairwise fun owner later => owner.position < later.position
  complete : ∀ label ∈ labels, ∃ owner ∈ owners, owner.position = label.position
  first : ∀ owner ∈ owners,
    labels.find? (fun label => decide (label.position = owner.position)) = some owner

theorem find?_of_mem_firstLabels {labels : List PlacedLabel} {owner : PlacedLabel}
    (member : owner ∈ firstLabels labels) :
    labels.find? (fun label => decide (label.position = owner.position)) =
      some owner := by
  match labels with
  | [] => cases member
  | label :: rest =>
      rw [firstLabels_cons] at member
      rcases List.mem_cons.mp member with rfl | later
      · simp
      · have found := find?_of_mem_firstLabels later
        have differs := of_decide_eq_true
          (List.mem_filter.mp (List.mem_of_find?_eq_some found)).2
        rw [List.find?_filter] at found
        rw [List.find?_cons_of_neg (by simpa using Ne.symm differs), ← found]
        congr 1
        funext other
        by_cases same : other.position = owner.position
        · simp [same, differs]
        · simp [same]
termination_by labels.length
decreasing_by exact Nat.lt_succ_of_le (List.length_filter_le _ _)

theorem owners_firstLabels {labels : List PlacedLabel}
    (sorted : labels.Pairwise fun label other => label.position ≤ other.position) :
    Owners labels (firstLabels labels) where
  increasing := pairwise_firstLabels sorted
  complete label member :=
    (exists_firstLabel_iff labels label.position).mpr ⟨label, member, rfl⟩
  first _ := find?_of_mem_firstLabels

section Connectors

variable {first limit : Int} {owners : List PlacedLabel} {shown : List StyledChar}

/-- The column of the connector of an owner, of whose connectors `index` stand before
it.  It is the column of the caret, but no two connectors share a column even if
their carets stand left of the margin. -/
def connectorColumn (first : Int) (index : Nat) (owner : PlacedLabel) : Nat :=
  max index (first + owner.position).toNat

/-- The characters are a `│` for every owner, in its column and its colour, and
blank otherwise.  They reach past all connectors and up to the limit, and no
further. -/
structure Hangs (first limit : Int) (owners : List PlacedLabel)
    (shown : List StyledChar) : Prop where
  colored : ∀ index owner, owners[index]? = some owner →
    shown[connectorColumn first index owner]? =
      some (Glyph.vertical.colored owner.caretColor)
  blank : ∀ column char, shown[column]? = some char →
    (∀ index owner, owners[index]? = some owner →
      column ≠ connectorColumn first index owner) → char = .blank
  reaches : limit ≤ shown.length
  stops : ∀ bound : Nat, limit ≤ bound →
    (∀ index owner, owners[index]? = some owner →
      connectorColumn first index owner < bound) → shown.length ≤ bound

theorem hangs_nil (first : Int) : Hangs first 0 [] [] where
  colored := by simp
  blank := by simp
  reaches := Int.le_refl 0
  stops := by simp

theorem Hangs.length_le (hangs : Hangs first limit owners shown) :
    owners.length ≤ shown.length := by
  rcases owners.eq_nil_or_concat' with rfl | ⟨before, last, rfl⟩
  · exact Nat.zero_le _
  · have found : (before ++ [last])[before.length]? = some last := by simp
    obtain ⟨inside, _⟩ :=
      List.getElem?_eq_some_iff.mp (hangs.colored before.length last found)
    rw [List.length_append, List.length_singleton]
    unfold connectorColumn at inside
    omega

/-- Blanks fill the line up to a column. -/
theorem Hangs.padTo (hangs : Hangs first 0 owners shown) (column : Int) :
    Hangs first column owners (shown ++ blanks (column - shown.length)) where
  colored index owner found := by
    have here := hangs.colored index owner found
    obtain ⟨inside, _⟩ := List.getElem?_eq_some_iff.mp here
    rw [List.getElem?_append_left inside, here]
  blank place char found free := by
    by_cases old : place < shown.length
    · rw [List.getElem?_append_left old] at found
      exact hangs.blank place char found free
    · rw [List.getElem?_append_right (by omega)] at found
      exact eq_blank_of_getElem?_blanks found
  reaches := by
    rw [List.length_append, length_blanks]
    omega
  stops bound past behind := by
    have old := hangs.stops bound (by omega) behind
    rw [List.length_append, length_blanks]
    omega

/-- A further connector stands to the right of all others. -/
theorem Hangs.concat (hangs : Hangs first 0 owners shown) {next : PlacedLabel}
    (behind : ∀ owner ∈ owners, owner.position < next.position) :
    Hangs first 0 (owners ++ [next])
      (shown ++ blanks (first + next.position - shown.length) ++
        [Glyph.vertical.colored next.caretColor]) := by
  have counted := hangs.length_le
  have room : shown.length ≤ connectorColumn first owners.length next := by
    refine hangs.stops _ (by omega) fun index owner found => ?_
    obtain ⟨inside, rfl⟩ := List.getElem?_eq_some_iff.mp found
    have left := behind owners[index] (List.getElem_mem inside)
    unfold connectorColumn
    omega
  have filled_length : (shown ++
      blanks (first + next.position - shown.length)).length =
        connectorColumn first owners.length next := by
    rw [List.length_append, length_blanks]
    unfold connectorColumn at room ⊢
    omega
  have filled := hangs.padTo (first + next.position)
  constructor
  · intro index owner found
    rcases Nat.lt_or_ge index owners.length with old | new
    · rw [List.getElem?_append_left old] at found
      have here := filled.colored index owner found
      obtain ⟨inside, _⟩ := List.getElem?_eq_some_iff.mp here
      rw [List.getElem?_append_left inside, here]
    · obtain ⟨rfl, rfl⟩ : index = owners.length ∧ owner = next := by
        rw [List.getElem?_append_right new] at found
        obtain ⟨small, rfl⟩ := List.getElem?_eq_some_iff.mp found
        rw [List.length_singleton] at small
        exact ⟨by omega, by simp⟩
      rw [← filled_length, List.getElem?_concat_length]
  · intro column char found free
    rcases Nat.lt_trichotomy column (connectorColumn first owners.length next) with
      left | here | right
    · rw [List.getElem?_append_left (by omega)] at found
      refine filled.blank column char found fun index owner old => ?_
      obtain ⟨inside, _⟩ := List.getElem?_eq_some_iff.mp old
      exact free index owner (by rw [List.getElem?_append_left inside, old])
    · exact absurd here (free owners.length next (by simp))
    · rw [List.getElem?_eq_none (by
        rw [List.length_append, filled_length, List.length_singleton]
        omega)] at found
      cases found
  · omega
  · intro bound _ past
    have last := past owners.length next (by simp)
    rw [List.length_append, filled_length, List.length_singleton]
    omega

/-- Connectors that are drawn from left to right hang in their columns. -/
theorem draws_connectors {before : List PlacedLabel} {line : Line}
    (increasing : owners.Pairwise fun owner later => owner.position < later.position)
    (behind : ∀ earlier ∈ before, ∀ owner ∈ owners,
      earlier.position < owner.position)
    (draws : line.Draws shown) (hangs : Hangs first 0 before shown) :
    ∃ longer, ((owners.map fun owner => (owner.position, owner.caretColor)).foldl
        (fun line (position, color) =>
          (line.padTo (first + position)).glyph .vertical (glyphStyle color))
            line).Draws longer ∧
      Hangs first 0 (before ++ owners) longer := by
  induction owners generalizing before line shown with
  | nil => exact ⟨shown, draws, by rwa [List.append_nil]⟩
  | cons owner rest ih =>
      obtain ⟨after, rest_increasing⟩ := List.pairwise_cons.mp increasing
      have rest_behind : ∀ earlier ∈ before ++ [owner], ∀ later ∈ rest,
          earlier.position < later.position := by
        intro earlier member later found
        rcases List.mem_append.mp member with old | new
        · exact behind earlier old later (List.mem_cons_of_mem owner found)
        · rw [List.mem_singleton.mp new]
          exact after later found
      obtain ⟨longer, longer_draws, longer_hangs⟩ := ih rest_increasing rest_behind
        ((draws.padTo (first + owner.position)).glyph .vertical owner.caretColor)
        (hangs.concat fun earlier member =>
          behind earlier member owner List.mem_cons_self)
      refine ⟨longer, longer_draws, ?_⟩
      rwa [List.append_assoc, List.singleton_append] at longer_hangs

end Connectors

/-- The characters are the connectors of the labels: those of their owners. -/
def Awaits (first limit : Int) (labels : List PlacedLabel)
    (shown : List StyledChar) : Prop :=
  ∃ owners, Owners labels owners ∧ Hangs first limit owners shown

theorem separator_draws {labels : List PlacedLabel}
    (sorted : labels.Pairwise fun label other => label.position ≤ other.position)
    (first : Int) :
    ∃ shown, (separator first labels).Draws shown ∧ Awaits first 0 labels shown := by
  have owners := owners_firstLabels sorted
  obtain ⟨shown, draws, hangs⟩ := draws_connectors owners.increasing (by simp)
    Line.draws_empty (hangs_nil first)
  exact ⟨shown, draws, _, owners, hangs⟩

theorem Awaits.padTo {first : Int} {labels : List PlacedLabel}
    {shown : List StyledChar} (awaits : Awaits first 0 labels shown) (column : Int) :
    Awaits first column labels (shown ++ blanks (column - shown.length)) := by
  obtain ⟨owners, owns, hangs⟩ := awaits
  exact ⟨owners, owns, hangs.padTo column⟩

section Underbar

/-- The label whose colour a column of the underbar has, counted from the start of
the segment: the first one at the nearest caret at or right of the column, and right
of all carets the first one at the last. -/
structure Governs (labels : List PlacedLabel) (column : Int) (owner : PlacedLabel) :
    Prop where
  first : labels.find? (fun label => decide (label.position = owner.position)) =
    some owner
  nearest : (column ≤ owner.position ∧
      ∀ label ∈ labels, column ≤ label.position → owner.position ≤ label.position) ∨
    (owner.position < column ∧ ∀ label ∈ labels, label.position ≤ owner.position)

/-- Of owners from left to right, the one that a column of the underbar belongs
to. -/
def barOwner? (owners : List PlacedLabel) (column : Int) : Option PlacedLabel :=
  (owners.find? fun owner => decide (column ≤ owner.position)).or owners.getLast?

theorem governs_of_barOwner? {labels owners : List PlacedLabel} {column : Int}
    {owner : PlacedLabel} (owns : Owners labels owners)
    (found : barOwner? owners column = some owner) : Governs labels column owner := by
  rcases Option.or_eq_some_iff.mp found with right | ⟨none, last⟩
  · obtain ⟨here, before, after, rfl, left⟩ := List.find?_eq_some_iff_append.mp right
    refine ⟨owns.first owner (by simp), Or.inl ⟨of_decide_eq_true here, ?_⟩⟩
    intro label member reached
    obtain ⟨other, other_mem, same⟩ := owns.complete label member
    rw [← same] at reached ⊢
    rcases List.mem_append.mp other_mem with early | late
    · have missed := left other early
      simp only [Bool.not_eq_eq_eq_not, Bool.not_true, decide_eq_false_iff_not]
        at missed
      exact absurd reached missed
    · rcases List.mem_cons.mp late with rfl | later
      · exact Int.le_refl _
      · have ordered := (List.pairwise_append.mp owns.increasing).2.1
        exact Int.le_of_lt ((List.pairwise_cons.mp ordered).1 other later)
  · obtain ⟨before, rfl⟩ := List.getLast?_eq_some_iff.mp last
    have missed := List.find?_eq_none.mp none owner (by simp)
    refine ⟨owns.first owner (by simp), Or.inr ⟨by simpa using missed, ?_⟩⟩
    intro label member
    obtain ⟨other, other_mem, same⟩ := owns.complete label member
    rw [← same]
    rcases List.mem_append.mp other_mem with early | late
    · have ordered := (List.pairwise_append.mp owns.increasing).2.2
      exact Int.le_of_lt (ordered other early owner (by simp))
    · exact Int.le_of_eq (congrArg _ (List.mem_singleton.mp late))

/-- What the underbar shows in a column, in the colour of the column's owner or, if
there is none, in the colour given. -/
def barChar (owners : List PlacedLabel) (color : Option Rgb) (column : Int) :
    StyledChar :=
  match barOwner? owners column with
  | some owner =>
      (if owner.position = column then Glyph.down else .rule).colored owner.caretColor
  | none => Glyph.rule.colored color

theorem barChar_left {owner : PlacedLabel} {column : Int}
    (left : column < owner.position) (rest : List PlacedLabel) (color : Option Rgb) :
    barChar (owner :: rest) color column = Glyph.rule.colored owner.caretColor := by
  have found : barOwner? (owner :: rest) column = some owner := by
    simp [barOwner?, Int.le_of_lt left]
  simp only [barChar, found]
  rw [if_neg (Int.ne_of_gt left)]

theorem barChar_here (owner : PlacedLabel) (rest : List PlacedLabel)
    (color : Option Rgb) : barChar (owner :: rest) color owner.position =
      Glyph.down.colored owner.caretColor := by
  have found : barOwner? (owner :: rest) owner.position = some owner := by
    simp [barOwner?]
  rw [barChar, found]
  exact congrArg (Glyph.colored · owner.caretColor) (if_pos rfl)

/-- Right of a caret, the later owners decide, and its own colour if there are
none. -/
theorem barChar_right {owner : PlacedLabel} {column : Int}
    (right : owner.position < column) (rest : List PlacedLabel) (color : Option Rgb) :
    barChar (owner :: rest) color column = barChar rest owner.caretColor column := by
  have found : barOwner? (owner :: rest) column =
      (barOwner? rest column).or (some owner) := by
    simp only [barOwner?, List.getLast?_cons, Option.or_assoc]
    rw [List.find?_cons_of_neg (by simpa using right)]
    cases rest.getLast? <;> rfl
  simp only [barChar, found]
  cases barOwner? rest column with
  | none => simp [Int.ne_of_lt right]
  | some later => rfl

theorem draws_underbarFrom {owners : List PlacedLabel}
    (increasing : owners.Pairwise fun owner later => owner.position < later.position)
    {width previous : Int} (room : previous ≤ width)
    (between : ∀ owner ∈ owners, previous < owner.position ∧ owner.position ≤ width)
    {line : Line} {shown : List StyledChar} (draws : line.Draws shown)
    (color : Option Rgb) :
    ∃ bar, (underbarFrom width line previous color
        (owners.map fun owner => (owner.position, owner.caretColor))).Draws
          (shown ++ bar) ∧
      (bar.length : Int) = width - previous ∧
      ∀ place : Nat, place < bar.length →
        bar[place]? = some (barChar owners color (previous + 1 + place)) := by
  induction owners generalizing previous line shown color with
  | nil =>
      refine ⟨ruled (width - previous) color, draws.rule _ color, ?_, ?_⟩
      · rw [length_ruled]
        omega
      · intro place inside
        rw [length_ruled] at inside
        exact getElem?_ruled inside color
  | cons owner rest ih =>
      obtain ⟨after, rest_increasing⟩ := List.pairwise_cons.mp increasing
      obtain ⟨⟨left, inside⟩, rest_between⟩ := List.forall_mem_cons.mp between
      have marked := (draws.rule (owner.position - previous - 1)
        owner.caretColor).glyph .down owner.caretColor
      obtain ⟨bar, bar_draws, length, bar_shown⟩ := ih rest_increasing inside
        (fun later member => ⟨after later member, (rest_between later member).2⟩)
        marked owner.caretColor
      have stretch : ((ruled (owner.position - previous - 1)
          owner.caretColor).length : Int) = owner.position - previous - 1 := by
        rw [length_ruled]
        omega
      refine ⟨ruled (owner.position - previous - 1) owner.caretColor ++
        Glyph.down.colored owner.caretColor :: bar, ?_, ?_, ?_⟩
      · rw [List.append_assoc, List.append_assoc, List.singleton_append] at bar_draws
        exact bar_draws
      · rw [List.length_append, List.length_cons]
        omega
      · intro place inside_bar
        rw [List.length_append, List.length_cons] at inside_bar
        rcases Int.lt_trichotomy (previous + 1 + place) owner.position with
          early | here | late
        · rw [List.getElem?_append_left (by omega), barChar_left early]
          exact getElem?_ruled (by omega) owner.caretColor
        · rw [List.getElem?_append_right (by omega), here, barChar_here]
          have first : place - (ruled (owner.position - previous - 1)
              owner.caretColor).length = 0 := by omega
          rw [first, List.getElem?_cons_zero]
        · rw [List.getElem?_append_right (by omega), barChar_right late]
          obtain ⟨further, further_eq⟩ : ∃ further, place - (ruled
              (owner.position - previous - 1) owner.caretColor).length =
                further + 1 := ⟨_, (Nat.succ_pred_eq_of_pos (by omega)).symm⟩
          rw [further_eq, List.getElem?_cons_succ, bar_shown further (by omega)]
          congr 2
          omega

/-- Behind the margin the characters are an underbar: a `┬` under every caret and
rule elsewhere, in the colour of the label that governs the column.  An underbar
without any caret has no colour. -/
structure Bars (first last : Int) (labels : List PlacedLabel)
    (shown : List StyledChar) : Prop where
  length_eq : (shown.length : Int) = first.toNat + (last - first + 1)
  margin : ∀ column : Nat, column < first.toNat → shown[column]? = some .blank
  colored : labels ≠ [] → ∀ column : Nat, column ≤ last - first →
    ∃ owner, Governs labels column owner ∧
      shown[first.toNat + column]? =
        some ((if owner.position = column then Glyph.down else .rule).colored
          owner.caretColor)
  bare : labels = [] → ∀ column : Nat, column ≤ last - first →
    shown[first.toNat + column]? = some (Glyph.rule.colored none)

theorem underbar_draws {first last : Int} {labels : List PlacedLabel}
    (ordered : first ≤ last)
    (sorted : labels.Pairwise fun label other => label.position ≤ other.position)
    (inside : ∀ label ∈ labels,
      0 ≤ label.position ∧ label.position ≤ last - first) :
    ∃ shown, (underbar first last labels).Draws shown ∧
      Bars first last labels shown := by
  have owns := owners_firstLabels sorted
  obtain ⟨bar, draws, length, bar_shown⟩ := draws_underbarFrom owns.increasing
    (show -1 ≤ last - first by omega)
    (fun owner member => by
      have found := List.mem_of_find?_eq_some (owns.first owner member)
      have bounds := inside owner found
      omega)
    (Line.draws_empty.space first) none
  have margin_length := length_blanks first
  have behind_margin (column : Nat) (short : (column : Int) ≤ last - first) :
      (blanks first ++ bar)[first.toNat + column]? =
        some (barChar (firstLabels labels) none column) := by
    rw [List.getElem?_append_right (by omega), margin_length,
      Nat.add_sub_cancel_left, bar_shown column (by omega)]
    congr 2
    omega
  refine ⟨blanks first ++ bar, draws, ?_, ?_, ?_, ?_⟩
  · rw [List.length_append, margin_length]
    omega
  · intro column before
    rw [List.getElem?_append_left (by omega), blanks, List.getElem?_replicate,
      if_pos before]
  · intro nonempty column short
    rw [behind_margin column short, barChar]
    cases found : barOwner? (firstLabels labels) column with
    | some owner => exact ⟨owner, governs_of_barOwner? owns found, rfl⟩
    | none =>
        obtain ⟨label, member⟩ := List.exists_mem_of_ne_nil labels nonempty
        obtain ⟨owner, owner_mem, _⟩ := owns.complete label member
        have empty := List.getLast?_eq_none_iff.mp (Option.or_eq_none_iff.mp found).2
        rw [empty] at owner_mem
        cases owner_mem
  · rintro rfl column short
    rw [behind_margin column short]
    rfl

end Underbar

end CaretReport

import CaretReport.Paint
import Mathlib.Data.List.Chain

/-!
# Runs of one colour

A painted text is cut into runs, of which each lies between one pair of escape
sequences or stays bare.  The runs are maximal, so that no two neighbours have the
same colour, and the colour of a position is that of the last highlight that
reaches it.
-/

namespace CaretReport

namespace Progression

/-- The progression passes the position on its way from `start` to `stop`. -/
def Visits (progression : Progression) (position : Int) : Prop :=
  ∃ count : Nat, position = progression.start + count * progression.step ∧
    if 0 < progression.step then
      position < progression.stop
    else
      progression.stop < position

theorem contains_iff_visits {progression : Progression} {position : Int} :
    progression.contains position = true ↔ progression.Visits position := by
  have nonzero := progression.step_ne_zero
  unfold contains Visits
  split
  · rename_i up
    rw [decide_eq_true_eq]
    constructor
    · rintro ⟨after, before, steps, distance⟩
      have nonneg : 0 ≤ steps := by
        by_contra negative
        have behind := Int.mul_neg_of_pos_of_neg up (Int.not_le.mp negative)
        omega
      refine ⟨steps.toNat, ?_, before⟩
      rw [Int.toNat_of_nonneg nonneg, Int.mul_comm]
      omega
    · rintro ⟨count, rfl, before⟩
      refine ⟨?_, before, ⟨count, by rw [Int.mul_comm]; omega⟩⟩
      have reached := Int.mul_nonneg (Int.natCast_nonneg count) (Int.le_of_lt up)
      omega
  · rename_i down
    rw [decide_eq_true_eq]
    constructor
    · rintro ⟨before, after, steps, distance⟩
      have nonneg : 0 ≤ steps := by
        by_contra negative
        have behind := Int.mul_pos_of_neg_of_neg
          (show progression.step < 0 by omega) (Int.not_le.mp negative)
        omega
      refine ⟨steps.toNat, ?_, before⟩
      rw [Int.toNat_of_nonneg nonneg, Int.mul_comm]
      omega
    · rintro ⟨count, rfl, before⟩
      refine ⟨before, ?_, ⟨count, by rw [Int.mul_comm]; omega⟩⟩
      have reached := Int.mul_nonneg (Int.natCast_nonneg count)
        (show 0 ≤ -progression.step by omega)
      rw [Int.mul_neg] at reached
      omega

theorem visits_between {start stop position : Int} :
    (between start stop).Visits position ↔ start ≤ position ∧ position < stop := by
  rw [← contains_iff_visits, contains_between]

end Progression

/-- The characters of runs, each with the colour of its run. -/
def runChars (runs : List (Option Rgb × List Char)) : List (Option Rgb × Char) :=
  runs.flatMap fun (color, run) => run.map fun character => (color, character)

theorem map_snd_runChars (runs : List (Option Rgb × List Char)) :
    (runChars runs).map Prod.snd = runs.flatMap Prod.snd := by
  simp [runChars, List.map_flatMap, Function.comp_def]

/-- The runs hold the coloured characters in order, none is empty, and neighbours
differ in their colours. -/
structure CutsAtColors (cells : List (Option Rgb × Char))
    (runs : List (Option Rgb × List Char)) : Prop where
  chars : runChars runs = cells
  nonempty : ∀ run ∈ runs, run.2 ≠ []
  apart : runs.IsChain fun run next => run.1 ≠ next.1

namespace CutsAtColors

variable {cells : List (Option Rgb × Char)}
  {runs : List (Option Rgb × List Char)} {run : List Char}

/-- A character of the colour of the first run makes that run longer. -/
theorem extend {color : Option Rgb} (cuts : CutsAtColors cells ((color, run) :: runs))
    (character : Char) : CutsAtColors ((color, character) :: cells)
      ((color, character :: run) :: runs) where
  chars := by
    rw [← cuts.chars]
    rfl
  nonempty := by
    have later := (List.forall_mem_cons.mp cuts.nonempty).2
    exact List.forall_mem_cons.mpr ⟨List.cons_ne_nil character run, later⟩
  apart := by
    have apart := cuts.apart
    rw [List.isChain_cons] at apart ⊢
    exact apart

/-- A character of another colour starts a run of its own. -/
theorem start (cuts : CutsAtColors cells runs) {color : Option Rgb}
    (differs : ∀ next ∈ runs.head?, color ≠ next.1) (character : Char) :
    CutsAtColors ((color, character) :: cells) ((color, [character]) :: runs) where
  chars := by
    rw [← cuts.chars]
    rfl
  nonempty :=
    List.forall_mem_cons.mpr ⟨List.cons_ne_nil character [], cuts.nonempty⟩
  apart := List.isChain_cons.mpr ⟨differs, cuts.apart⟩

end CutsAtColors

theorem cutsAtColors_colorRuns (cells : List (Option Rgb × Char)) :
    CutsAtColors cells (colorRuns cells) := by
  induction cells with
  | nil => exact ⟨rfl, by simp [colorRuns], .nil⟩
  | cons cell rest ih =>
      obtain ⟨color, character⟩ := cell
      rw [colorRuns]
      split
      · rename_i nothing
        rw [nothing] at ih
        exact ih.start (by simp) character
      · rename_i next run runs found
        rw [found] at ih
        split
        · rename_i same
          rw [same]
          exact ih.extend character
        · rename_i differs
          exact ih.start (by simpa using differs) character

/-- Runs hold the text that they were cut from. -/
theorem flatMap_snd_colorRuns (cells : List (Option Rgb × Char)) :
    (colorRuns cells).flatMap Prod.snd = cells.map Prod.snd := by
  rw [← map_snd_runChars, (cutsAtColors_colorRuns cells).chars]

theorem map_snd_paintChars (highlights : List Highlight) (text : List Char) :
    (paintChars highlights text).map Prod.snd = text := by
  rw [paintChars, List.map_map]
  exact List.zipIdx_map_fst 0 text

theorem getElem?_paintChars_eq_some {highlights : List Highlight}
    {text : List Char} {position : Nat} {color : Option Rgb} {character : Char}
    (found : (paintChars highlights text)[position]? = some (color, character)) :
    color = colorAt highlights position := by
  rw [paintChars, List.getElem?_map, List.getElem?_zipIdx] at found
  obtain ⟨_, _, same⟩ := Option.map_eq_some_iff.mp found
  simp_all

/-- The highlight that paints the positions in the colour. -/
def Highlight.paint (painted : Progression × Rgb) : Highlight :=
  ⟨painted.1, some painted.2⟩

section Choosing

variable {painted : List (Progression × Rgb)} {position : Int}

theorem colorAt_map_paint (painted : List (Progression × Rgb)) (position : Int) :
    colorAt (painted.map Highlight.paint) position =
      (painted.reverse.find? fun highlight =>
        highlight.1.contains position).map Prod.snd := by
  rw [colorAt, ← List.map_reverse, List.find?_map, Option.bind_map,
    Option.map_eq_bind]
  rfl

/-- A position has the colour of the last highlight that reaches it. -/
theorem colorAt_eq_some_iff {color : Rgb} :
    colorAt (painted.map Highlight.paint) position = some color ↔
      ∃ before positions after, painted = before ++ (positions, color) :: after ∧
        positions.Visits position ∧ ∀ later ∈ after, ¬ later.1.Visits position := by
  simp only [← Progression.contains_iff_visits]
  rw [colorAt_map_paint, Option.map_eq_some_iff]
  constructor
  · rintro ⟨⟨positions, _⟩, found, rfl⟩
    obtain ⟨reached, after, before, split, missed⟩ :=
      List.find?_eq_some_iff_append.mp found
    refine ⟨before.reverse, positions, after.reverse, ?_, reached, ?_⟩
    · rw [← List.reverse_reverse painted, split]
      simp
    · intro later member
      simpa using missed later (List.mem_reverse.mp member)
  · rintro ⟨before, positions, after, rfl, reached, missed⟩
    refine ⟨(positions, color), List.find?_eq_some_iff_append.mpr
      ⟨reached, after.reverse, before.reverse, by simp, ?_⟩, rfl⟩
    intro later member
    simpa using missed later (List.mem_reverse.mp member)

/-- A position stays bare exactly if no highlight reaches it. -/
theorem colorAt_eq_none_iff :
    colorAt (painted.map Highlight.paint) position = none ↔
      ∀ highlight ∈ painted, ¬ highlight.1.Visits position := by
  rw [colorAt_map_paint, Option.map_eq_none_iff, List.find?_eq_none]
  simp only [List.mem_reverse, Progression.contains_iff_visits]

end Choosing

end CaretReport

import CaretReport.Excerpt

/-!
# Spans held inside bounds

Both ends of a span are saturated on their own, and yet no operation on spans can
bring them out of order, however far outside the positions they lie.  Clamping
holds a span inside the positions up to a limit: what remains is the part of the
span that lies there, or, if none does, the end of these positions that is nearest
to it.
-/

namespace CaretReport

namespace Span

/-- The positions from zero up to a limit. -/
def upTo (upper : Int) (nonneg : 0 ≤ upper) : Span :=
  ⟨0, upper, nonneg⟩

/-- What becomes of a span that is held inside bounds: it is cut down to the
positions that it shares with them, or it collapses onto the end of the bounds
that is nearer to each of its positions than any other position of the bounds. -/
inductive HoldsInside (bounds span held : Span) : Prop where
  | shared (meets : ∃ position, span.contains position ∧ bounds.contains position)
      (cut : ∀ position,
        held.contains position ↔ span.contains position ∧ bounds.contains position)
  | apart (misses : ∀ position, span.contains position → ¬ bounds.contains position)
      (nearest : Int) (is_end : nearest = bounds.first ∨ nearest = bounds.last)
      (collapsed : held = single nearest)
      (nearer : ∀ position other, span.contains position → bounds.contains other →
        other ≠ nearest →
          (position - nearest).natAbs < (position - other).natAbs)

variable {upper : Int} {span outer : Span}

theorem contains_upTo_iff (nonneg : 0 ≤ upper) (position : Int) :
    (upTo upper nonneg).contains position = true ↔
      0 ≤ position ∧ position ≤ upper :=
  contains_iff _ _

theorem covers_upTo_iff (nonneg : 0 ≤ upper) (span : Span) :
    (upTo upper nonneg).covers span = true ↔ 0 ≤ span.first ∧ span.last ≤ upper :=
  covers_iff _ _

theorem first_clamp (span : Span) (upper : Int) :
    (span.clamp upper).first = min (max span.first 0) upper :=
  rfl

/-- The last position is clamped like the first one, although it is also kept from
falling behind it. -/
theorem last_clamp (nonneg : 0 ≤ upper) (span : Span) :
    (span.clamp upper).last = min (max span.last 0) upper := by
  have ordered := span.ordered
  change min (max span.last (min (max span.first 0) upper)) upper = _
  omega

theorem covers_clamp (nonneg : 0 ≤ upper) (span : Span) :
    (upTo upper nonneg).covers (span.clamp upper) = true := by
  rw [covers_upTo_iff, first_clamp, last_clamp nonneg]
  omega

/-- Clamping leaves a span inside the bounds as it is. -/
theorem clamp_of_covers (nonneg : 0 ≤ upper)
    (inside : (upTo upper nonneg).covers span = true) : span.clamp upper = span := by
  have ordered := span.ordered
  rw [covers_upTo_iff] at inside
  ext
  · rw [first_clamp]
    omega
  · rw [last_clamp nonneg]
    omega

theorem covers_clamp_clamp (nonneg : 0 ≤ upper)
    (inside : outer.covers span = true) :
    (outer.clamp upper).covers (span.clamp upper) = true := by
  rw [covers_iff] at inside ⊢
  rw [first_clamp, first_clamp, last_clamp nonneg, last_clamp nonneg]
  omega

theorem clamp_of_last_neg (nonneg : 0 ≤ upper) (before : span.last < 0) :
    span.clamp upper = single 0 := by
  have ordered := span.ordered
  apply Span.ext
  · change min (max span.first 0) upper = 0
    omega
  · rw [last_clamp nonneg]
    change min (max span.last 0) upper = 0
    omega

theorem clamp_of_lt_first (nonneg : 0 ≤ upper) (behind : upper < span.first) :
    span.clamp upper = single upper := by
  have ordered := span.ordered
  apply Span.ext
  · change min (max span.first 0) upper = upper
    omega
  · rw [last_clamp nonneg]
    change min (max span.last 0) upper = upper
    omega

theorem holdsInside_clamp (nonneg : 0 ≤ upper) (span : Span) :
    HoldsInside (upTo upper nonneg) span (span.clamp upper) := by
  have ordered := span.ordered
  by_cases before : span.last < 0
  · refine .apart (fun position => ?_) 0 (Or.inl rfl)
      (clamp_of_last_neg nonneg before) fun position other => ?_
    · rw [contains_iff, contains_upTo_iff]
      omega
    · rw [contains_iff, contains_upTo_iff]
      omega
  by_cases behind : upper < span.first
  · refine .apart (fun position => ?_) upper (Or.inr rfl)
      (clamp_of_lt_first nonneg behind) fun position other => ?_
    · rw [contains_iff, contains_upTo_iff]
      omega
    · rw [contains_iff, contains_upTo_iff]
      omega
  · refine .shared ⟨max span.first 0, ?_⟩ fun position => ?_
    · rw [contains_iff, contains_upTo_iff]
      omega
    · rw [contains_iff, contains_iff, contains_upTo_iff, first_clamp,
        last_clamp nonneg]
      omega

/-- No ends that moving, rebasing or clamping computes for a span are rejected as
inverted, whatever the span, the distance, the window and the marks in front of it.
A clamped span is the given one held inside the positions up to the limit; clamping
it again changes nothing, and a span inside another one stays inside it. -/
theorem clamp_holds_inside (span : Span) (nonneg : 0 ≤ upper) (delta : Int)
    (excerpt : Excerpt) :
    ofEnds? (satAdd span.first delta) (satAdd span.last delta) =
        .ok (span.shift delta) ∧
      ofEnds? (satAdd (satSub span.first excerpt.windowStart) excerpt.lead.length)
          (satAdd (satSub span.last excerpt.windowStart) excerpt.lead.length) =
        .ok (excerpt.rebase span) ∧
      (let start := min (max span.first 0) upper
       ofEnds? start (min (max span.last start) upper) = .ok (span.clamp upper)) ∧
      (upTo upper nonneg).covers (span.clamp upper) = true ∧
      HoldsInside (upTo upper nonneg) span (span.clamp upper) ∧
      (span.clamp upper).clamp upper = span.clamp upper ∧
      ∀ outer : Span, outer.covers span = true →
        (outer.clamp upper).covers (span.clamp upper) = true := by
  have inside : (upTo upper nonneg).covers (span.clamp upper) = true :=
    covers_clamp nonneg span
  exact ⟨ofEnds?_ends (span.shift delta), ofEnds?_ends (excerpt.rebase span),
    ofEnds?_ends (span.clamp upper), inside, holdsInside_clamp nonneg span,
    clamp_of_covers nonneg inside, fun _ => covers_clamp_clamp nonneg⟩

/-- A span behind the largest position, inside one that reaches to both sides of
all positions. -/
theorem clamp_holds_inside_beyondPositions :
    let span : Span := ⟨maxPosition + 5, maxPosition + 9, by decide⟩
    let outer : Span := ⟨-7, maxPosition + 9, by decide⟩
    let excerpt : Excerpt := ⟨['x'], -20, 4, leadingEllipsis, []⟩
    let delta : Int := -maxPosition - 7
    0 ≤ (10 : Int) ∧ outer.covers span = true ∧
      ofEnds? 0 2 = .ok (span.shift delta) ∧
      ofEnds? maxPosition maxPosition = .ok (excerpt.rebase span) ∧
      span.clamp 10 = single 10 ∧ (span.clamp 10).clamp 10 = single 10 ∧
      HoldsInside (upTo 10 (by decide)) span (single 10) ∧
      (outer.clamp 10).covers (single 10) = true := by
  intro span outer excerpt delta
  have nonneg : 0 ≤ (10 : Int) := by decide
  have inside : outer.covers span = true := by decide
  have clamped : span.clamp 10 = single 10 := by decide
  obtain ⟨moved, rebased, _, _, holds, again, stays⟩ :=
    clamp_holds_inside span nonneg delta excerpt
  have within := stays outer inside
  rw [clamped] at holds again within
  refine ⟨nonneg, inside, moved, rebased, clamped, ?_, holds, within⟩
  rw [clamped]
  exact again

end Span

end CaretReport

import CaretReport.Escape
import Mathlib.Data.List.TakeWhile

/-!
# Escape sequences inside a text

An escape sequence starts with the only escape character it holds and ends in
its only `m`.  So the sequences of a text never overlap, and stripping, which
looks for them from left to right, removes each of them together with nothing
else: what stands before a sequence is stripped as if the text ended there.
-/

namespace CaretReport

/-- `ESC [`, a body and a final `m`. -/
def bracketed (body : List Char) : List Char :=
  escapeChar :: '[' :: (body ++ ['m'])

@[simp] theorem bracketed_inj {body other : List Char} :
    bracketed body = bracketed other ↔ body = other := by
  simp [bracketed]

/-- The text is one escape sequence, whose body holds digits and semicolons. -/
def IsSequence (text : List Char) : Prop :=
  ∃ body, text = bracketed body ∧
    ∀ character ∈ body, isParameterChar character = true

variable {text before sequence rest : List Char}

theorem isParameterChar_of_mem_join {parameters : List Nat} {character : Char}
    (member : character ∈ joinWithChar ';' (parameters.map natDecimal)) :
    isParameterChar character = true := by
  rcases eq_or_exists_of_mem_joinWithChar member with
    rfl | ⟨part, found, inside⟩
  · rfl
  · obtain ⟨number, _, rfl⟩ := List.mem_map.mp found
    simp [isParameterChar, isDigit_of_mem_natDecimal inside]

theorem isSequence_escapeSequence (parameters : List Nat) :
    IsSequence (escapeSequence parameters) :=
  ⟨joinWithChar ';' (parameters.map natDecimal), rfl,
    fun _ member => isParameterChar_of_mem_join member⟩

namespace IsSequence

theorem ne_nil (isSequence : IsSequence sequence) : sequence ≠ [] := by
  obtain ⟨body, rfl, _⟩ := isSequence
  exact List.cons_ne_nil _ _

/-- Past its first character a sequence holds no escape character. -/
theorem escapeChar_not_mem_tail (isSequence : IsSequence sequence) :
    escapeChar ∉ sequence.tail := by
  obtain ⟨body, rfl, inside⟩ := isSequence
  simp only [bracketed, List.tail_cons, List.mem_cons, List.mem_append, List.not_mem_nil,
    or_false, not_or]
  exact ⟨by decide, fun member => absurd (inside _ member) (by decide),
    by decide⟩

/-- Reading goes on right behind a sequence. -/
theorem afterEscape?_append (isSequence : IsSequence sequence)
    (rest : List Char) : afterEscape? (sequence ++ rest) = some rest := by
  obtain ⟨body, rfl, inside⟩ := isSequence
  -- The body is passed over, and the `m` behind it is not.
  have passed : (body ++ ['m'] ++ rest).dropWhile isParameterChar =
      'm' :: rest := by
    rw [List.append_assoc, List.dropWhile_append_of_pos inside]
    rfl
  simp only [bracketed, List.cons_append, afterEscape?, if_true, passed]

end IsSequence

/-- Reading that goes on behind something has passed a sequence. -/
theorem exists_sequence_of_afterEscape? (found : afterEscape? text = some rest) :
    ∃ sequence, IsSequence sequence ∧ text = sequence ++ rest := by
  unfold afterEscape? at found
  split at found
  · rename_i first body
    split at found
    · rename_i opens
      split at found
      · rename_i tail dropped
        obtain rfl := Option.some.inj found
        refine ⟨first :: '[' :: (body.takeWhile isParameterChar ++ ['m']),
          ⟨_, by rw [opens, bracketed], fun _ member => List.mem_takeWhile_imp member⟩, ?_⟩
        have parted := List.takeWhile_append_dropWhile
          (p := isParameterChar) (l := body)
        rw [dropped] at parted
        simpa using parted.symm
      · cases found
    · cases found
  · cases found

theorem stripEscapes_of_some (found : afterEscape? text = some rest) :
    stripEscapes text = stripEscapes rest := by
  rw [stripEscapes.eq_def]
  split
  · rename_i other other_found
    rw [found, Option.some.injEq] at other_found
    rw [other_found]
  · rename_i none_found
    rw [found] at none_found
    cases none_found

theorem stripEscapes_cons {character : Char}
    (found : afterEscape? (character :: rest) = none) :
    stripEscapes (character :: rest) = character :: stripEscapes rest := by
  rw [stripEscapes.eq_def]
  split
  · rename_i other_found
    rw [found] at other_found
    cases other_found
  · rfl

theorem stripEscapes_nil : stripEscapes [] = [] := by
  rw [stripEscapes.eq_def]
  rfl

theorem IsSequence.stripEscapes_append (isSequence : IsSequence sequence)
    (rest : List Char) : stripEscapes (sequence ++ rest) = stripEscapes rest :=
  stripEscapes_of_some (isSequence.afterEscape?_append rest)

theorem afterEscape?_of_ne {character : Char} (bare : character ≠ escapeChar)
    (rest : List Char) : afterEscape? (character :: rest) = none := by
  unfold afterEscape?
  split
  · rename_i same
    obtain ⟨rfl, _⟩ := List.cons.inj same
    exact if_neg bare
  · rfl

theorem stripEscapes_cons_of_ne {character : Char}
    (bare : character ≠ escapeChar) (rest : List Char) :
    stripEscapes (character :: rest) = character :: stripEscapes rest :=
  stripEscapes_cons (afterEscape?_of_ne bare rest)

/-- The ways in which stripping meets a text: at its end, in front of a
sequence, or in front of a character that starts none. -/
theorem stripping_induction {motive : List Char → Prop} (nil : motive [])
    (skip : ∀ sequence rest, IsSequence sequence → motive rest →
      motive (sequence ++ rest))
    (keep : ∀ character rest, afterEscape? (character :: rest) = none →
      motive rest → motive (character :: rest))
    (text : List Char) : motive text := by
  induction text using stripEscapes.induct with
  | case1 text rest found ih =>
      obtain ⟨sequence, isSequence, rfl⟩ := exists_sequence_of_afterEscape? found
      exact skip sequence rest isSequence ih
  | case2 found => exact nil
  | case3 character rest found ih => exact keep character rest found ih

/-- An escape character cannot complete a sequence that starts before it. -/
theorem afterEscape?_append_escapeChar {character : Char}
    (found : afterEscape? (character :: before) = none) (rest : List Char) :
    afterEscape? (character :: (before ++ escapeChar :: rest)) = none := by
  by_contra some_found
  obtain ⟨after, found_after⟩ := Option.ne_none_iff_exists'.mp some_found
  obtain ⟨sequence, isSequence, same⟩ :=
    exists_sequence_of_afterEscape? found_after
  rw [← List.cons_append] at same
  rcases List.append_eq_append_iff.mp same with
    ⟨middle, rfl, late⟩ | ⟨middle, early, _⟩
  · -- The sequence reaches past what stands before the escape character.
    cases middle with
    | nil =>
        rw [List.append_nil] at isSequence
        have ends := isSequence.afterEscape?_append []
        rw [List.append_nil, found] at ends
        cases ends
    | cons other middle =>
        obtain ⟨rfl, _⟩ := List.cons.inj late
        exact isSequence.escapeChar_not_mem_tail (by simp)
  · rw [early, isSequence.afterEscape?_append] at found
    cases found

/-- What stands before an escape character is stripped on its own. -/
theorem stripEscapes_append_escapeChar (before rest : List Char) :
    stripEscapes (before ++ escapeChar :: rest) =
      stripEscapes before ++ stripEscapes (escapeChar :: rest) := by
  induction before using stripping_induction with
  | nil => rw [stripEscapes_nil, List.nil_append, List.nil_append]
  | skip sequence before isSequence ih =>
      rw [List.append_assoc, isSequence.stripEscapes_append, ih,
        isSequence.stripEscapes_append]
  | keep character before found ih =>
      rw [List.cons_append,
        stripEscapes_cons (afterEscape?_append_escapeChar found rest), ih,
        stripEscapes_cons found, List.cons_append]

/-- Stripping removes a sequence wherever it stands, and both sides of it are
stripped on their own. -/
theorem IsSequence.stripEscapes_between (isSequence : IsSequence sequence)
    (before after : List Char) :
    stripEscapes (before ++ sequence ++ after) =
      stripEscapes before ++ stripEscapes after := by
  have removed := isSequence.stripEscapes_append after
  obtain ⟨body, rfl, _⟩ := isSequence
  rw [List.append_assoc, bracketed, List.cons_append,
    stripEscapes_append_escapeChar, ← List.cons_append, ← bracketed, removed]

end CaretReport

import CaretReport.Proofs.EscapeSequences

/-!
# Sequences that stand inside a sequence

A sequence with another one between its characters is not read as a sequence:
it comes together only when the inner one is gone, and stripping does not look
at it again.  So stripping leaves a sequence exactly where the text held one
that others interrupt, and a second pass finds nothing more to strip exactly
where the text held none of these.
-/

namespace CaretReport

/-- Some part of the text is an escape sequence. -/
def HoldsSequence (text : List Char) : Prop :=
  ∃ sequence, IsSequence sequence ∧ sequence <:+: text

/-- The text holds the characters of another one in order, with nothing but
whole escape sequences between them. -/
inductive Spreads : List Char → List Char → Prop where
  | nil : Spreads [] []
  | keep (character : Char) {inner text : List Char} (spreads : Spreads inner text) :
      Spreads (character :: inner) (character :: text)
  | insert {sequence : List Char} (isSequence : IsSequence sequence)
      {inner text : List Char} (spreads : Spreads inner text) :
      Spreads inner (sequence ++ text)

/-- Some part of the text is an escape sequence that breaks off after its first
characters for a whole other one, and then goes on, perhaps with further
interruptions, to its end. -/
def HoldsInterrupted (text : List Char) : Prop :=
  ∃ opening interruption remaining spread,
    IsSequence (opening ++ remaining) ∧ opening ≠ [] ∧ remaining ≠ [] ∧
      IsSequence interruption ∧ Spreads remaining spread ∧
        opening ++ interruption ++ spread <:+: text

variable {text inner rest : List Char}

theorem HoldsSequence.mono (holds : HoldsSequence text)
    (inside : text <:+: rest) : HoldsSequence rest := by
  obtain ⟨sequence, isSequence, within⟩ := holds
  exact ⟨sequence, isSequence, within.trans inside⟩

theorem HoldsInterrupted.mono (holds : HoldsInterrupted text)
    (inside : text <:+: rest) : HoldsInterrupted rest := by
  obtain ⟨opening, interruption, remaining, spread, whole, opens, goes_on,
    interrupts, spreads, within⟩ := holds
  exact ⟨opening, interruption, remaining, spread, whole, opens, goes_on,
    interrupts, spreads, within.trans inside⟩

namespace Spreads

theorem self (text : List Char) : Spreads text text := by
  induction text with
  | nil => exact .nil
  | cons character text ih => exact .keep character ih

/-- Characters that start no sequence come together when the sequences between
them are stripped. -/
theorem stripEscapes_append (spreads : Spreads inner text)
    (free : escapeChar ∉ inner) (rest : List Char) :
    stripEscapes (text ++ rest) = inner ++ stripEscapes rest := by
  induction spreads with
  | nil => rfl
  | keep character _ ih =>
      rw [List.mem_cons, not_or] at free
      rw [List.cons_append, stripEscapes_cons_of_ne (Ne.symm free.1), ih free.2,
        List.cons_append]
  | insert isSequence _ ih =>
      rw [List.append_assoc, isSequence.stripEscapes_append, ih free]

end Spreads

/-- A sequence that breaks off stays as it is. -/
theorem stripEscapes_of_broken {opening remaining : List Char}
    (whole : IsSequence (opening ++ remaining)) (opens : opening ≠ [])
    (goes_on : remaining ≠ []) : stripEscapes opening = opening := by
  have broken : afterEscape? opening = none := by
    by_contra some_found
    obtain ⟨after, found⟩ := Option.ne_none_iff_exists'.mp some_found
    obtain ⟨sequence, isSequence, rfl⟩ := exists_sequence_of_afterEscape? found
    have ends := whole.afterEscape?_append []
    rw [List.append_nil, List.append_assoc,
      isSequence.afterEscape?_append] at ends
    exact goes_on (List.append_eq_nil_iff.mp (Option.some.inj ends)).2
  cases opening with
  | nil => exact absurd rfl opens
  | cons first opening =>
      have free : escapeChar ∉ opening := fun member =>
        whole.escapeChar_not_mem_tail (List.mem_append_left _ member)
      have kept := (Spreads.self opening).stripEscapes_append free []
      rw [stripEscapes_nil, List.append_nil] at kept
      rw [stripEscapes_cons broken, kept]

theorem HoldsInterrupted.holdsSequence (holds : HoldsInterrupted text) :
    HoldsSequence (stripEscapes text) := by
  obtain ⟨opening, interruption, remaining, spread, whole, opens, goes_on,
    interrupts, spreads, before, after, rfl⟩ := holds
  obtain ⟨first, opening, rfl⟩ := List.exists_cons_of_ne_nil opens
  have free : escapeChar ∉ remaining := fun member =>
    whole.escapeChar_not_mem_tail (List.mem_append_right _ member)
  have starts : first = escapeChar := by
    obtain ⟨body, same, _⟩ := whole
    exact (List.cons.inj same).1
  have stripped : stripEscapes
      (before ++ (first :: opening ++ interruption ++ spread) ++ after) =
        stripEscapes before ++ ((first :: opening) ++ remaining) ++
          stripEscapes after := by
    calc stripEscapes
          (before ++ (first :: opening ++ interruption ++ spread) ++ after)
        = stripEscapes ((before ++ first :: opening) ++ interruption ++
            (spread ++ after)) := by simp only [List.append_assoc]
      _ = stripEscapes (before ++ first :: opening) ++
            stripEscapes (spread ++ after) :=
          interrupts.stripEscapes_between _ _
      _ = stripEscapes before ++ stripEscapes (first :: opening) ++
            (remaining ++ stripEscapes after) := by
          rw [spreads.stripEscapes_append free, starts,
            stripEscapes_append_escapeChar]
      _ = _ := by
          rw [stripEscapes_of_broken whole opens goes_on]
          simp only [List.append_assoc]
  exact ⟨_, whole, _, _, stripped.symm⟩

/-- What stripping leaves of a text was spread over its beginning. -/
theorem exists_spread (stripped : stripEscapes text = inner ++ rest) :
    ∃ spread, Spreads inner spread ∧ spread <+: text := by
  induction text using stripping_induction generalizing inner with
  | nil =>
      rw [stripEscapes_nil, eq_comm, List.append_eq_nil_iff] at stripped
      rw [stripped.1]
      exact ⟨[], .nil, List.prefix_rfl⟩
  | skip sequence text isSequence ih =>
      rw [isSequence.stripEscapes_append] at stripped
      obtain ⟨spread, spreads, starts⟩ := ih stripped
      exact ⟨sequence ++ spread, .insert isSequence spreads,
        List.prefix_append_right_inj sequence |>.mpr starts⟩
  | keep character text found ih =>
      rw [stripEscapes_cons found] at stripped
      cases inner with
      | nil => exact ⟨[], .nil, List.nil_prefix⟩
      | cons first inner =>
          obtain ⟨rfl, later⟩ := List.cons.inj stripped
          obtain ⟨spread, spreads, starts⟩ := ih later
          exact ⟨character :: spread, .keep character spreads,
            List.cons_prefix_cons.mpr ⟨rfl, starts⟩⟩

/-- What stripping leaves at the beginning stood there, or broke off for a
sequence. -/
theorem starts_or_breaks_off (stripped : stripEscapes text = inner ++ rest) :
    inner <+: text ∨
      ∃ opening interruption remaining spread, inner = opening ++ remaining ∧
        remaining ≠ [] ∧ IsSequence interruption ∧ Spreads remaining spread ∧
          opening ++ interruption ++ spread <+: text := by
  induction text using stripping_induction generalizing inner with
  | nil =>
      rw [stripEscapes_nil, eq_comm, List.append_eq_nil_iff] at stripped
      rw [stripped.1]
      exact .inl List.nil_prefix
  | skip sequence text isSequence ih =>
      rw [isSequence.stripEscapes_append] at stripped
      by_cases nothing : inner = []
      · rw [nothing]
        exact .inl List.nil_prefix
      · obtain ⟨spread, spreads, starts⟩ := exists_spread stripped
        exact .inr ⟨[], sequence, inner, spread, rfl, nothing, isSequence,
          spreads, List.prefix_append_right_inj sequence |>.mpr starts⟩
  | keep character text found ih =>
      rw [stripEscapes_cons found] at stripped
      cases inner with
      | nil => exact .inl List.nil_prefix
      | cons first inner =>
          obtain ⟨rfl, later⟩ := List.cons.inj stripped
          rcases ih later with starts |
            ⟨opening, interruption, remaining, spread, rfl, goes_on, interrupts,
              spreads, starts⟩
          · exact .inl (List.cons_prefix_cons.mpr ⟨rfl, starts⟩)
          · exact .inr ⟨character :: opening, interruption, remaining, spread,
              rfl, goes_on, interrupts, spreads,
              List.cons_prefix_cons.mpr ⟨rfl, starts⟩⟩

theorem holdsInterrupted_of_stripEscapes
    (holds : HoldsSequence (stripEscapes text)) : HoldsInterrupted text := by
  induction text using stripping_induction with
  | nil =>
      obtain ⟨sequence, isSequence, within⟩ := holds
      rw [stripEscapes_nil] at within
      exact absurd (List.infix_nil.mp within) isSequence.ne_nil
  | skip sequence text isSequence ih =>
      rw [isSequence.stripEscapes_append] at holds
      exact (ih holds).mono (List.suffix_append sequence text).isInfix
  | keep character text found ih =>
      obtain ⟨sequence, isSequence, within⟩ := holds
      rw [stripEscapes_cons found] at within
      rcases List.infix_cons_iff.mp within with starts | later
      · -- The sequence starts here, and did not stand here before.
        obtain ⟨first, tail, rfl⟩ :=
          List.exists_cons_of_ne_nil isSequence.ne_nil
        obtain ⟨rfl, after, stripped⟩ := List.cons_prefix_cons.mp starts
        rcases starts_or_breaks_off stripped.symm with ⟨behind, stood⟩ |
          ⟨opening, interruption, remaining, spread, rfl, goes_on, interrupts,
            spreads, breaks⟩
        · have read := isSequence.afterEscape?_append behind
          rw [List.cons_append, stood, found] at read
          cases read
        · exact ⟨first :: opening, interruption, remaining, spread, isSequence,
            List.cons_ne_nil _ _, goes_on, interrupts, spreads,
            (List.cons_prefix_cons.mpr ⟨rfl, breaks⟩).isInfix⟩
      · exact (ih ⟨sequence, isSequence, later⟩).mono
          (List.suffix_cons character text).isInfix

theorem length_stripEscapes_le (text : List Char) :
    (stripEscapes text).length ≤ text.length := by
  induction text using stripping_induction with
  | nil => rw [stripEscapes_nil]
  | skip sequence text isSequence ih =>
      rw [isSequence.stripEscapes_append, List.length_append]
      omega
  | keep character text found ih =>
      rw [stripEscapes_cons found, List.length_cons, List.length_cons]
      omega

/-- Stripping changes a text exactly when it holds a sequence. -/
theorem stripEscapes_eq_self_iff :
    stripEscapes text = text ↔ ¬ HoldsSequence text := by
  constructor
  · rintro same ⟨sequence, isSequence, before, after, rfl⟩
    have nonempty := List.length_pos_iff.mpr isSequence.ne_nil
    have front := length_stripEscapes_le before
    have back := length_stripEscapes_le after
    have lengths := congrArg List.length same
    rw [isSequence.stripEscapes_between] at lengths
    simp only [List.length_append] at lengths
    omega
  · intro free
    induction text using stripping_induction with
    | nil => exact stripEscapes_nil
    | skip sequence text isSequence ih =>
        exact absurd
          ⟨sequence, isSequence, (List.prefix_append sequence text).isInfix⟩ free
    | keep character text found ih =>
        rw [stripEscapes_cons found, ih fun holds => free
          (holds.mono (List.suffix_cons character text).isInfix)]

/-- Stripping removes every escape sequence of a text, and both sides of it are
stripped on their own.  A sequence is left exactly when the text holds one that
others interrupt, and stripping twice is stripping once exactly when it holds
none. -/
theorem stripEscapes_leaves (text : List Char) :
    (∀ before sequence after, IsSequence sequence →
      before ++ sequence ++ after = text →
        stripEscapes text = stripEscapes before ++ stripEscapes after) ∧
      (HoldsSequence (stripEscapes text) ↔ HoldsInterrupted text) ∧
        (stripEscapes (stripEscapes text) = stripEscapes text ↔
          ¬ HoldsInterrupted text) := by
  have left_iff : HoldsSequence (stripEscapes text) ↔ HoldsInterrupted text :=
    ⟨holdsInterrupted_of_stripEscapes, HoldsInterrupted.holdsSequence⟩
  refine ⟨?_, left_iff, ?_⟩
  · rintro before sequence after isSequence rfl
    exact isSequence.stripEscapes_between before after
  · rw [stripEscapes_eq_self_iff, left_iff]

/-- A reset in a red sequence is removed, and the red sequence is left. -/
theorem stripEscapes_leaves_red :
    let text := "\x1b[3\x1b[0m1m".toList
    IsSequence "\x1b[0m".toList ∧
      "\x1b[3".toList ++ "\x1b[0m".toList ++ "1m".toList = text ∧
        stripEscapes text =
          stripEscapes "\x1b[3".toList ++ stripEscapes "1m".toList ∧
            HoldsInterrupted text := by
  have reset : IsSequence "\x1b[0m".toList := isSequence_escapeSequence [0]
  have red : IsSequence "\x1b[31m".toList := isSequence_escapeSequence [31]
  have parts : "\x1b[3".toList ++ "\x1b[0m".toList ++ "1m".toList =
      "\x1b[3\x1b[0m1m".toList := by
    decide
  obtain ⟨removes, leaves, _⟩ := stripEscapes_leaves "\x1b[3\x1b[0m1m".toList
  have left : stripEscapes "\x1b[3\x1b[0m1m".toList = "\x1b[31m".toList := by
    cbv
  refine ⟨reset, parts, removes _ _ _ reset parts, leaves.mp ?_⟩
  rw [left]
  exact ⟨_, red, List.infix_rfl⟩

/-- What is left of a red sequence with a reset in it is a red sequence. -/
theorem stripEscapes_leaves_interrupted :
    let text := "\x1b[3\x1b[0m1m".toList
    stripEscapes text = "\x1b[31m".toList ∧
      HoldsSequence (stripEscapes text) ∧
        stripEscapes (stripEscapes text) ≠ stripEscapes text := by
  have red : IsSequence "\x1b[31m".toList := isSequence_escapeSequence [31]
  have left : stripEscapes "\x1b[3\x1b[0m1m".toList = "\x1b[31m".toList := by
    cbv
  refine ⟨left, ?_⟩
  rw [left]
  have holds : HoldsSequence "\x1b[31m".toList := ⟨_, red, List.infix_rfl⟩
  exact ⟨holds, fun same => stripEscapes_eq_self_iff.mp same holds⟩

end CaretReport

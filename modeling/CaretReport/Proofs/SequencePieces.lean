import CaretReport.Proofs.AcceptedSequences

/-!
# Telling written styles apart

The sequence of a style holds one `m`, at its end.  So a row of sequences falls
into these when it is cut after every `m`, each of them is read back as its
style, and two different lists of styles are never written alike.
-/

namespace CaretReport

/-- The text in pieces, cut after every occurrence of the mark.  What follows
the last one, if anything, is a piece too. -/
def cutAfter (mark : Char) : List Char → List (List Char)
  | [] => []
  | character :: rest =>
      if character = mark then
        [character] :: cutAfter mark rest
      else
        match cutAfter mark rest with
        | [] => [[character]]
        | piece :: pieces => (character :: piece) :: pieces

variable {mark : Char}

theorem cutAfter_append_cons {body : List Char} (bare : mark ∉ body)
    (rest : List Char) :
    cutAfter mark (body ++ mark :: rest) =
      (body ++ [mark]) :: cutAfter mark rest := by
  induction body with
  | nil => rw [List.nil_append, cutAfter, if_pos rfl, List.nil_append]
  | cons character body ih =>
      rw [List.mem_cons, not_or] at bare
      rw [List.cons_append, cutAfter, if_neg (Ne.symm bare.1), ih bare.2,
        List.cons_append]

/-- Items that each end in their only mark are the pieces of what they are
written as. -/
theorem cutAfter_flatMap {Item : Type} {write : Item → List Char}
    (ends : ∀ item, ∃ body, write item = body ++ [mark] ∧ mark ∉ body)
    (items : List Item) :
    cutAfter mark (items.flatMap write) = items.map write := by
  induction items with
  | nil => rfl
  | cons item rest ih =>
      obtain ⟨body, written, bare⟩ := ends item
      rw [List.flatMap_cons, List.map_cons, written, List.append_assoc,
        List.singleton_append, cutAfter_append_cons bare, ih]

namespace Style

theorem exists_escape_eq (style : Style) :
    ∃ body, style.escape = body ++ ['m'] ∧ 'm' ∉ body := by
  refine ⟨escapeChar :: '[' ::
    joinWithChar ';' (style.parameters.map natDecimal), rfl, ?_⟩
  simp only [List.mem_cons, not_or]
  exact ⟨by decide, by decide, fun member =>
    absurd (isParameterChar_of_mem_join member) (by decide)⟩

/-- A written style is read back. -/
theorem ofEscape?_escape (style : Style) :
    Style.ofEscape? style.escape = .ok style :=
  ofEscape?_eq_ok_iff.mpr ⟨_, rfl, spells_parameters style⟩

theorem map_ofEscape?_escape (styles : List Style) :
    (styles.map escape).map ofEscape? = styles.map .ok := by
  rw [List.map_map]
  exact List.map_congr_left fun style _ => ofEscape?_escape style

/-- A row of styles is cut after every `m` into the sequences of its styles, each
of which is read back as its style, and no other row is written alike. -/
theorem cutAfter_escapes (styles : List Style) :
    cutAfter 'm' (styles.flatMap escape) = styles.map escape ∧
      (cutAfter 'm' (styles.flatMap escape)).map ofEscape? = styles.map .ok ∧
        ∀ others : List Style,
          others.flatMap escape = styles.flatMap escape ↔ others = styles := by
  have pieces := cutAfter_flatMap exists_escape_eq
  refine ⟨pieces styles, ?_, fun others => ⟨fun alike => ?_, congrArg _⟩⟩
  · rw [pieces, map_ofEscape?_escape]
  · have read_alike : others.map (Except.ok (ε := EscapeError)) =
        styles.map Except.ok := by
      rw [← map_ofEscape?_escape, ← map_ofEscape?_escape, ← pieces, ← pieces,
        alike]
    exact (List.map_inj_right fun _ _ => Except.ok.inj).mp read_alike

end Style

end CaretReport

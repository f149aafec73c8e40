/-!
# Separated text

A text is cut at every occurrence of a separator.  Nothing but the separators
is lost: joining the parts again gives the text back.
-/

namespace CaretReport

def splitAtChar (separator : Char) : List Char → List (List Char)
  | [] => [[]]
  | character :: rest =>
      if character = separator then
        [] :: splitAtChar separator rest
      else
        match splitAtChar separator rest with
        | [] => [[character]]
        | part :: parts => (character :: part) :: parts

def joinWithChar (separator : Char) : List (List Char) → List Char
  | [] => []
  | [part] => part
  | part :: parts => part ++ separator :: joinWithChar separator parts

theorem splitAtChar_ne_nil (separator : Char) (text : List Char) :
    splitAtChar separator text ≠ [] := by
  cases text with
  | nil => simp [splitAtChar]
  | cons character rest =>
      simp only [splitAtChar]
      split
      · simp
      · split <;> simp

theorem joinWithChar_splitAtChar (separator : Char) (text : List Char) :
    joinWithChar separator (splitAtChar separator text) = text := by
  induction text with
  | nil => rfl
  | cons character rest ih =>
      have nonempty := splitAtChar_ne_nil separator rest
      simp only [splitAtChar]
      split
      · rename_i same
        cases found : splitAtChar separator rest with
        | nil => exact absurd found nonempty
        | cons part parts =>
            rw [found] at ih
            simp [joinWithChar, ih, same]
      · cases found : splitAtChar separator rest with
        | nil => exact absurd found nonempty
        | cons part parts =>
            rw [found] at ih
            cases parts with
            | nil => simpa [joinWithChar] using ih
            | cons next more => simpa [joinWithChar] using ih

theorem splitAtChar_of_not_mem {separator : Char} {part : List Char}
    (free : separator ∉ part) : splitAtChar separator part = [part] := by
  induction part with
  | nil => rfl
  | cons character part ih =>
      rw [List.mem_cons, not_or] at free
      rw [splitAtChar, if_neg (Ne.symm free.1), ih free.2]

theorem splitAtChar_append_cons {separator : Char} {part : List Char}
    (free : separator ∉ part) (rest : List Char) :
    splitAtChar separator (part ++ separator :: rest) =
      part :: splitAtChar separator rest := by
  induction part with
  | nil => rw [List.nil_append, splitAtChar, if_pos rfl]
  | cons character part ih =>
      rw [List.mem_cons, not_or] at free
      rw [List.cons_append, splitAtChar, if_neg (Ne.symm free.1), ih free.2]

/-- A joined text holds separators and what its parts hold. -/
theorem eq_or_exists_of_mem_joinWithChar {separator character : Char}
    {parts : List (List Char)}
    (member : character ∈ joinWithChar separator parts) :
    character = separator ∨ ∃ part ∈ parts, character ∈ part := by
  induction parts with
  | nil => cases member
  | cons part rest ih =>
      cases rest with
      | nil => exact .inr ⟨part, List.mem_cons_self, member⟩
      | cons next more =>
          rw [joinWithChar, List.mem_append, List.mem_cons] at member
          · rcases member with here | between | later
            · exact .inr ⟨part, List.mem_cons_self, here⟩
            · exact .inl between
            · exact (ih later).imp_right fun ⟨other, found, inside⟩ =>
                ⟨other, List.mem_cons_of_mem part found, inside⟩
          · exact List.cons_ne_nil next more

/-- The parts of a joined text are found again if none of them holds the
separator. -/
theorem splitAtChar_joinWithChar {separator : Char} {parts : List (List Char)}
    (nonempty : parts ≠ []) (free : ∀ part ∈ parts, separator ∉ part) :
    splitAtChar separator (joinWithChar separator parts) = parts := by
  induction parts with
  | nil => exact absurd rfl nonempty
  | cons part rest ih =>
      obtain ⟨here, later⟩ := List.forall_mem_cons.mp free
      cases rest with
      | nil => exact splitAtChar_of_not_mem here
      | cons next more =>
          have cut := ih (List.cons_ne_nil next more) later
          rw [joinWithChar, splitAtChar_append_cons here, cut]
          exact List.cons_ne_nil next more

end CaretReport

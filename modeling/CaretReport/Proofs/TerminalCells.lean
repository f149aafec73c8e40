import CaretReport.Proofs.VisibleText
import CaretReport.TerminalText

/-!
# Cells of a terminal

A terminal shows a text as cells, each a character with the pen it is written
in.  `Writes` says what one part of an output does whatever follows it, so that
parts compose by appending: a text without escape characters is written as it
is, and an escape sequence shows nothing and changes the pen by the codes that
it was made of.
-/

namespace CaretReport

/-- A character on a terminal, with the pen it is written in. -/
structure Cell where
  character : Char
  pen : Pen
deriving DecidableEq, Repr

def Piece.cells (piece : Piece) : List Cell :=
  piece.text.map fun character => ⟨character, piece.pen⟩

/-- What a terminal with the pen shows of an output, and the pen after it. -/
def Pen.display (pen : Pen) (output : List Char) :
    Except NumberError (List Cell × Pen) :=
  (piecesOf pen (outputTokens output)).map fun (pieces, last) =>
    (pieces.flatMap Piece.cells, last)

/-- Whatever follows, a terminal with the pen shows the text as the cells and
goes on with the other pen. -/
def Writes (pen : Pen) (text : List Char) (cells : List Cell) (after : Pen) :
    Prop :=
  ∀ rest, pen.display (text ++ rest) =
    (after.display rest).map fun (shown, last) => (cells ++ shown, last)

variable {pen middle after : Pen} {text other : List Char}
  {cells others : List Cell}

theorem outputTokens_nil : outputTokens [] = [] := by
  rw [outputTokens.eq_def]
  rfl

theorem outputTokens_cons {character : Char} {rest : List Char}
    (bare : character ≠ escapeChar) :
    outputTokens (character :: rest) =
      prependChar character (outputTokens rest) := by
  have free : control? (character :: rest) = none := by
    cases rest with
    | nil => rfl
    | cons kind rest => exact if_neg bare
  rw [outputTokens.eq_def]
  split
  · rename_i found
    rw [free] at found
    cases found
  · rename_i found
    rw [free] at found
    cases found
  · rfl

theorem outputTokens_of_style {parameters rest : List Char}
    (found : control? text = some (.style parameters, rest)) :
    outputTokens text = .style parameters :: outputTokens rest := by
  rw [outputTokens.eq_def]
  split
  · rename_i charset
    rw [found] at charset
    cases charset
  · rename_i same
    rw [found] at same
    cases same
    rfl
  · rename_i missing
    rw [found] at missing
    cases missing

theorem Writes.display_eq (writes : Writes pen text cells after) :
    pen.display text = .ok (cells, after) := by
  have alone := writes []
  have nothing : after.display [] = .ok ([], after) := by
    rw [Pen.display, outputTokens_nil]
    rfl
  rw [List.append_nil, nothing] at alone
  simpa [Except.map] using alone

theorem writes_nil (pen : Pen) : Writes pen [] [] pen := by
  intro rest
  cases read : pen.display rest with
  | error cause => simp [read, Except.map]
  | ok shown => simp [read, Except.map]

theorem Writes.append (writes : Writes pen text cells middle)
    (next : Writes middle other others after) :
    Writes pen (text ++ other) (cells ++ others) after := by
  intro rest
  rw [List.append_assoc, writes, next]
  cases after.display rest with
  | error cause => rfl
  | ok shown => simp [Except.map]

/-- Items that each leave the pen as it was do so together. -/
theorem writes_flatMap {Item : Type} {items : List Item}
    {render : Item → List Char} {shown : Item → List Cell}
    (each : ∀ item ∈ items, Writes pen (render item) (shown item) pen) :
    Writes pen (items.flatMap render) (items.flatMap shown) pen := by
  induction items with
  | nil => exact writes_nil pen
  | cons item rest ih =>
      obtain ⟨here, later⟩ := List.forall_mem_cons.mp each
      exact here.append (ih later)

/-- A character in front of a text only lengthens its first run. -/
theorem writes_char {character : Char} (bare : character ≠ escapeChar) :
    Writes pen [character] [⟨character, pen⟩] pen := by
  intro rest
  rw [List.singleton_append, Pen.display, outputTokens_cons bare, Pen.display]
  generalize outputTokens rest = tokens
  unfold prependChar
  split
  · rename_i text others
    simp only [piecesOf]
    cases piecesOf pen others <;> rfl
  · rw [piecesOf]
    cases piecesOf pen tokens <;> rfl

/-- A text that starts no escape sequence is written in the pen as it is. -/
theorem writes_text (free : escapeChar ∉ text) :
    Writes pen text (text.map fun character => ⟨character, pen⟩) pen := by
  induction text with
  | nil => exact writes_nil pen
  | cons character rest ih =>
      rw [List.mem_cons, not_or] at free
      exact (writes_char (Ne.symm free.1)).append (ih free.2)

theorem codeOfDigits_natDecimal {code : Nat} (small : code ≤ 255) :
    codeOfDigits (natDecimal code) = .ok code := by
  have short := length_natDecimal_le small
  have read : Nat.ofDigitChars 10 (natDecimal code) 0 = code :=
    Nat.ofDigitChars_ten_toDigits
  rw [codeOfDigits, if_neg (by simp only [integerDigitLimit]; omega), read,
    Nat.min_eq_right small]

/-- The codes of an escape sequence are read back from it. -/
theorem styleCodes_join {codes : List Nat} (nonempty : codes ≠ [])
    (small : ∀ code ∈ codes, code ≤ 255) :
    styleCodes (joinWithChar ';' (codes.map natDecimal)) = .ok codes := by
  have separate : ∀ part ∈ codes.map natDecimal, ';' ∉ part := by
    intro part member inside
    obtain ⟨code, _, rfl⟩ := List.mem_map.mp member
    have digit := isDigit_of_mem_natDecimal inside
    cases digit
  have digits : ∀ part ∈ codes.map natDecimal, part.all Char.isDigit := by
    intro part member
    obtain ⟨code, _, rfl⟩ := List.mem_map.mp member
    exact List.all_eq_true.mpr fun _ inside => isDigit_of_mem_natDecimal inside
  rw [styleCodes, splitAtChar_joinWithChar (by simpa using nonempty) separate,
    List.filter_eq_self.mpr digits, mapM_eq_ok_iff, List.forall₂_map_left_iff,
    List.forall₂_same]
  exact fun code member => codeOfDigits_natDecimal (small code member)

/-- Everything between the bracket and the final `m` belongs to the
parameters. -/
theorem control?_escapeSequence (parameters : List Nat) (rest : List Char) :
    control? (escapeSequence parameters ++ rest) =
      some (.style (joinWithChar ';' (parameters.map natDecimal)), rest) := by
  have inside : ∀ character ∈ joinWithChar ';' (parameters.map natDecimal),
      inRange '0' '?' character = true := by
    intro character member
    have allowed := isParameterChar_of_mem_join member
    simp only [isParameterChar, Char.isDigit, Bool.or_eq_true,
      Bool.and_eq_true, decide_eq_true_eq, beq_iff_eq] at allowed
    rcases allowed with ⟨lower, upper⟩ | rfl
    · have bound : '9' ≤ '?' := by decide
      exact decide_eq_true ⟨lower, Char.le_trans upper bound⟩
    · rfl
  have taken : (joinWithChar ';' (parameters.map natDecimal) ++
      'm' :: rest).takeWhile (inRange '0' '?') =
        joinWithChar ';' (parameters.map natDecimal) := by
    rw [List.takeWhile_append_of_pos inside]
    exact List.append_nil _
  have left : (joinWithChar ';' (parameters.map natDecimal) ++
      'm' :: rest).dropWhile (inRange '0' '?') = 'm' :: rest := by
    rw [List.dropWhile_append_of_pos inside]
    rfl
  simp only [escapeSequence, List.cons_append, List.append_assoc,
    List.nil_append, control?, if_true, afterKind?, afterBracket?, taken, left]
  rw [List.takeWhile_cons_of_neg (by decide), List.append_nil]
  rfl

/-- An escape sequence shows nothing and changes the pen by its codes. -/
theorem writes_escapeSequence (pen : Pen) {codes : List Nat}
    (nonempty : codes ≠ []) (small : ∀ code ∈ codes, code ≤ 255) :
    Writes pen (escapeSequence codes) []
      (pen.applyAll (PenChange.ofCodes codes)) := by
  intro rest
  have found := control?_escapeSequence codes rest
  have changed : pen.display (escapeSequence codes ++ rest) =
      (pen.applyAll (PenChange.ofCodes codes)).display rest := by
    rw [Pen.display, outputTokens_of_style found, piecesOf,
      styleCodes_join nonempty small]
    rfl
  rw [changed]
  exact writes_nil _ rest

theorem writes_reset (pen : Pen) :
    Writes pen resetSequence [] Pen.default := by
  have codes : PenChange.ofCodes [0] = [.reset] := by
    simp [PenChange.ofCodes, PenChange.ofCode]
  have shown : Writes pen resetSequence []
      (pen.applyAll (PenChange.ofCodes [0])) :=
    writes_escapeSequence pen (by decide) (by decide)
  rwa [codes] at shown

end CaretReport

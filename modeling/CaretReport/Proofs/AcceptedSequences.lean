import CaretReport.Proofs.StyleSequences

/-!
# The texts that are read as styles

Every text that is read as a style lists the parameters of that style.  But it
may write them in digits of any script, and behind the channels of a 24-bit
colour it may break the line.  Stripping knows neither, so it removes such a
text as a whole exactly when the text is an escape sequence, and that is when
all of its characters are ASCII and none breaks the line.
-/

namespace CaretReport

/-- The body of the text lists numerals for the parameters, separated by
semicolons.  One line break may follow them. -/
def ListsParameters (text : List Char) (parameters : List Nat) : Prop :=
  ∃ numerals ending, text = bracketed (joinWithChar ';' numerals ++ ending) ∧
    (ending = [] ∨ ending = ['\n']) ∧
      List.Forall₂ Denotes numerals parameters

variable {text body : List Char} {style : Style}

theorem isSequence_bracketed_iff : IsSequence (bracketed body) ↔
    ∀ character ∈ body, isParameterChar character = true := by
  constructor
  · rintro ⟨other, same, inside⟩
    rwa [bracketed_inj.mp same]
  · exact fun inside => ⟨body, rfl, inside⟩

theorem ascii_of_isParameterChar {character : Char}
    (parameter : isParameterChar character = true) :
    character.toNat < 128 ∧ character ≠ '\n' := by
  simp only [isParameterChar, Bool.or_eq_true, beq_iff_eq] at parameter
  rcases parameter with digit | rfl
  · constructor
    · simp only [Char.isDigit, Bool.and_eq_true, decide_eq_true_eq] at digit
      have upper : character.toNat ≤ 57 := digit.2
      omega
    · rintro rfl
      cases digit
  · decide

/-- A body without an `m` is removed together with its brackets only if they
make a sequence, since nothing before the final `m` can end one. -/
theorem stripEscapes_bracketed_eq_nil_iff (open_body : 'm' ∉ body) :
    stripEscapes (bracketed body) = [] ↔ IsSequence (bracketed body) := by
  constructor
  · intro stripped
    cases found : afterEscape? (bracketed body) with
    | none =>
        rw [bracketed, stripEscapes_cons found] at stripped
        cases stripped
    | some rest =>
        obtain ⟨_, ⟨parameters, rfl, inside⟩, whole⟩ :=
          exists_sequence_of_afterEscape? found
        have same : body ++ 'm' :: [] = parameters ++ 'm' :: rest := by
          simpa [bracketed] using whole
        obtain ⟨rfl, _⟩ :=
          (List.append_cons_inj_of_notMem open_body List.not_mem_nil).mp same
        exact isSequence_bracketed_iff.mpr inside
  · intro isSequence
    have removed := isSequence.stripEscapes_append []
    rwa [List.append_nil, stripEscapes_nil] at removed

namespace Style

theorem Spells.listsParameters (spells : Spells body style) :
    ListsParameters (bracketed body) style.parameters := by
  cases spells with
  | code single denotes short =>
      refine ⟨[body], [], ?_, .inl rfl, ?_⟩
      · rw [joinWithChar, List.append_nil]
      · rw [single]
        exact .cons denotes .nil
  | channels reds greens blues short ends =>
      have foreground : Denotes ['3', '8'] 38 := denotes_natDecimal 38
      have direct : Denotes ['2'] 2 := denotes_natDecimal 2
      exact ⟨_, _, rfl, ends, .cons foreground <| .cons direct <| .cons reds <|
        .cons greens <| .cons blues .nil⟩

/-- A body that spells a style holds digits, semicolons and line breaks. -/
theorem Spells.cases_of_mem (spells : Spells body style) {character : Char}
    (member : character ∈ body) :
    isDecimalDigit character = true ∨ character = ';' ∨ character = '\n' := by
  obtain ⟨numerals, ending, same, ends, denote⟩ := spells.listsParameters
  obtain rfl := bracketed_inj.mp same
  rcases List.mem_append.mp member with listed | last
  · rcases eq_or_exists_of_mem_joinWithChar listed with
      between | ⟨numeral, found, inside⟩
    · exact .inr (.inl between)
    · obtain ⟨number, _, denotes⟩ := exists_target_of_forall₂ denote found
      exact .inl (denotes.isDecimalDigit_of_mem inside)
  · rcases ends with rfl | rfl
    · cases last
    · exact .inr (.inr (List.mem_singleton.mp last))

theorem Spells.isSequence_iff (spells : Spells body style) :
    IsSequence (bracketed body) ↔
      ∀ character ∈ bracketed body,
        character.toNat < 128 ∧ character ≠ '\n' := by
  rw [isSequence_bracketed_iff]
  constructor
  · intro inside character member
    simp only [bracketed, List.mem_cons, List.mem_append, List.not_mem_nil,
      or_false] at member
    rcases member with rfl | rfl | parameter | rfl
    · decide
    · decide
    · exact ascii_of_isParameterChar (inside character parameter)
    · decide
  · intro ascii character member
    have inside : character ∈ bracketed body := by simp [bracketed, member]
    obtain ⟨small, unbroken⟩ := ascii character inside
    rcases spells.cases_of_mem member with digit | rfl | broken
    · rcases isDigit_or_le_of_isDigitLike (isDigitLike_of_isDecimalDigit digit)
        with digit | far
      · simp [isParameterChar, digit]
      · omega
    · rfl
    · exact absurd broken unbroken

/-- Every style is spelled by its own parameters. -/
theorem spells_parameters (style : Style) :
    Spells (joinWithChar ';' (style.parameters.map natDecimal)) style := by
  have short : ∀ code ∈ style.parameters, (natDecimal code).length ≤ 3 :=
    fun code member => length_natDecimal_le (style.parameters_le code member)
  have alone {code : Nat} (single : style.parameters = [code]) :
      Spells (natDecimal code) style := by
    have fits := short code (by simp [single])
    exact .code single (denotes_natDecimal code) (fits.trans (by decide))
  cases style with
  | foreground ink =>
      cases ink with
      | palette color => exact alone rfl
      | rgb color =>
          have channels : ∀ channel ∈ [natDecimal color.red,
              natDecimal color.green, natDecimal color.blue],
              channel.length ≤ 3 := by
            simp only [parameters, Ink.parameters, List.forall_mem_cons] at short
            simpa using short.2.2
          have spelled := Spells.channels (denotes_natDecimal color.red)
            (denotes_natDecimal color.green) (denotes_natDecimal color.blue)
            channels (.inl rfl)
          rwa [List.append_nil] at spelled
  | emphasis kind => exact alone rfl

/-- Whatever is read as a style lists the parameters that the style is written
with.  Stripping removes it as a whole exactly when it is an escape sequence,
and it is one exactly when its characters are ASCII and no line breaks. -/
theorem ofEscape?_lists (read : Style.ofEscape? text = .ok style) :
    ListsParameters text style.parameters ∧
      ListsParameters style.escape style.parameters ∧
        (stripEscapes text = [] ↔ IsSequence text) ∧
          (IsSequence text ↔ ∀ character ∈ text,
            character.toNat < 128 ∧ character ≠ '\n') := by
  obtain ⟨body, rfl, spells⟩ := ofEscape?_eq_ok_iff.mp read
  have open_body : 'm' ∉ body := fun member => by
    rcases spells.cases_of_mem member with digit | same | same
    · exact absurd digit (by decide)
    · cases same
    · cases same
  exact ⟨spells.listsParameters, (spells_parameters style).listsParameters,
    stripEscapes_bracketed_eq_nil_iff open_body, spells.isSequence_iff⟩

/-- A red sequence in Arabic digits is read, and is no escape sequence. -/
theorem ofEscape?_lists_arabicDigits :
    let text := "\x1b[\u0663\u0661m".toList
    let red := Style.foreground (.palette ⟨.red, false⟩)
    Style.ofEscape? text = .ok red ∧ ListsParameters text red.parameters ∧
      ¬ IsSequence text ∧ stripEscapes text ≠ [] := by
  have three : digitValue? '\u0663' = some 3 := by decide
  have one : digitValue? '\u0661' = some 1 := by decide
  have denotes : Denotes ['\u0663', '\u0661'] 31 :=
    ⟨by simp, [3, 1], by simp [three, one], rfl⟩
  have read : Style.ofEscape? "\x1b[\u0663\u0661m".toList =
      .ok (.foreground (.palette ⟨.red, false⟩)) :=
    ofEscape?_eq_ok_iff.mpr ⟨_, rfl, .code rfl denotes (by decide)⟩
  obtain ⟨lists, _, stripped_iff, sequence_iff⟩ := ofEscape?_lists read
  have foreign : ¬ IsSequence "\x1b[\u0663\u0661m".toList := by
    intro isSequence
    have ascii := sequence_iff.mp isSequence '\u0663' (by simp)
    exact absurd ascii.1 (by decide)
  exact ⟨read, lists, foreign, fun stripped => foreign (stripped_iff.mp stripped)⟩

/-- A 24-bit colour with a line break behind its channels is read, and is no
escape sequence. -/
theorem ofEscape?_reads_lineBreak :
    let text := "\x1b[38;2;1;2;3\nm".toList
    Style.ofEscape? text = .ok (.foreground (.rgb ⟨1, 2, 3⟩)) ∧
      ¬ IsSequence text ∧ stripEscapes text ≠ [] := by
  have foreign : ¬ IsSequence (bracketed "38;2;1;2;3\n".toList) := by
    intro isSequence
    have parameter := isSequence_bracketed_iff.mp isSequence '\n' (by simp)
    exact absurd parameter (by decide)
  have kept : stripEscapes (bracketed "38;2;1;2;3\n".toList) ≠ [] :=
    fun stripped => foreign
      ((stripEscapes_bracketed_eq_nil_iff (by simp)).mp stripped)
  have spells : Spells "38;2;1;2;3\n".toList (.foreground (.rgb ⟨1, 2, 3⟩)) :=
    @Spells.channels ['1'] ['2'] ['3'] ['\n'] ⟨1, 2, 3⟩ (denotes_natDecimal 1)
      (denotes_natDecimal 2) (denotes_natDecimal 3) (by simp) (.inr rfl)
  exact ⟨ofEscape?_eq_ok_iff.mpr ⟨_, rfl, spells⟩, foreign, kept⟩

end Style

end CaretReport

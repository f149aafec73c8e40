import CaretReport.IntegerText
import Mathlib.Data.List.TakeWhile

/-!
# Numerals of every script

A numeral is a run of decimal digits, each of any script, and stands for one
number.  Digits and digit signs are neither blanks nor signs nor underscores, so
a run of them is read as it stands: as its number if all of them are decimal
digits and there are not too many, and not at all otherwise.
-/

namespace CaretReport

/-- The text is a run of decimal digits that stand for the number, the first
digit counting most. -/
def Denotes (text : List Char) (number : Nat) : Prop :=
  text ≠ [] ∧ ∃ digits : List Nat,
    text.map digitValue? = digits.map some ∧ ofDigits digits = number

section Characters

variable {character : Char}

theorem isDecimalDigit_iff : isDecimalDigit character = true ↔
    ∃ start ∈ decimalZeros,
      start ≤ character.toNat ∧ character.toNat < start + 10 := by
  simp [isDecimalDigit, digitValue?]

theorem isDigitLike_iff : isDigitLike character = true ↔
    isDecimalDigit character = true ∨ ∃ range ∈ digitSigns,
      range.1 ≤ character.toNat ∧ character.toNat ≤ range.2 := by
  simp [isDigitLike]

/-- A decimal digit is an ASCII digit or stands far behind these. -/
theorem isDigit_or_le_of_isDigitLike (digitLike : isDigitLike character = true) :
    character.isDigit = true ∨ 0xb2 ≤ character.toNat := by
  rcases isDigitLike_iff.mp digitLike with digit | ⟨range, member, lower, _⟩
  · obtain ⟨start, member, lower, upper⟩ := isDecimalDigit_iff.mp digit
    have starts : ∀ start ∈ decimalZeros, start = 0x30 ∨ 0xb2 ≤ start := by
      decide
    rcases starts start member with rfl | far
    · left
      simp only [Char.isDigit, Bool.and_eq_true, decide_eq_true_eq]
      exact ⟨lower, Nat.le_of_lt_succ upper⟩
    · exact .inr (by omega)
  · have starts : ∀ range ∈ digitSigns, 0xb2 ≤ range.1 := by decide
    have far := starts range member
    exact .inr (by omega)

/-- A run of code points between two runs of blanks. -/
def BetweenBlanks (first last : Nat) : Prop :=
  32 < first ∧ last < 0x85 ∨ 0xa0 < first ∧ last < 0x1680 ∨
    0x1680 < first ∧ last < 0x2000 ∨ 0x205f < first ∧ last < 0x3000 ∨
      0x3000 < first

instance (first last : Nat) : Decidable (BetweenBlanks first last) :=
  inferInstanceAs (Decidable (_ ∨ _))

theorem BetweenBlanks.isBlank_eq {first last : Nat}
    (between : BetweenBlanks first last) (lower : first ≤ character.toNat)
    (upper : character.toNat ≤ last) : isBlank character = false := by
  unfold BetweenBlanks at between
  simp only [isBlank, decide_eq_false_iff_not]
  omega

theorem isBlank_of_isDigitLike (digitLike : isDigitLike character = true) :
    isBlank character = false := by
  rcases isDigitLike_iff.mp digitLike with digit | ⟨range, member, lower, upper⟩
  · obtain ⟨start, member, lower, upper⟩ := isDecimalDigit_iff.mp digit
    have between : ∀ start ∈ decimalZeros, BetweenBlanks start (start + 9) := by
      decide
    exact (between start member).isBlank_eq lower (by omega)
  · have between : ∀ range ∈ digitSigns, BetweenBlanks range.1 range.2 := by
      decide
    exact (between range member).isBlank_eq lower upper

theorem ne_of_isDigitLike (digitLike : isDigitLike character = true)
    (other : Char) (ascii : other.toNat < 0xb2)
    (noDigit : other.isDigit = false) : character ≠ other := by
  rintro rfl
  rcases isDigit_or_le_of_isDigitLike digitLike with digit | far
  · rw [noDigit] at digit
    cases digit
  · omega

theorem isDigitLike_of_isDecimalDigit (digit : isDecimalDigit character = true) :
    isDigitLike character = true :=
  isDigitLike_iff.mpr (.inl digit)

theorem digitValue?_of_isDigit (digit : character.isDigit = true) :
    digitValue? character = some (character.toNat - '0'.toNat) := by
  simp only [Char.isDigit, Bool.and_eq_true, decide_eq_true_eq] at digit
  have lower : 0x30 ≤ character.toNat := digit.1
  have upper : character.toNat < 0x30 + 10 := Nat.lt_succ_of_le digit.2
  simp [digitValue?, decimalZeros, lower, upper]

end Characters

section Numerals

variable {text : List Char} {number : Nat}

theorem Denotes.isDecimalDigit_of_mem (denotes : Denotes text number)
    {character : Char} (member : character ∈ text) :
    isDecimalDigit character = true := by
  obtain ⟨_, digits, reads, _⟩ := denotes
  have found := List.mem_map_of_mem (f := digitValue?) member
  rw [reads] at found
  obtain ⟨digit, _, same⟩ := List.mem_map.mp found
  rw [isDecimalDigit, ← same, Option.isSome_some]

theorem Denotes.isDigitLike_of_mem (denotes : Denotes text number)
    {character : Char} (member : character ∈ text) :
    isDigitLike character = true :=
  isDigitLike_of_isDecimalDigit (denotes.isDecimalDigit_of_mem member)

theorem exists_denotes (nonempty : text ≠ [])
    (digits : ∀ character ∈ text, isDecimalDigit character = true) :
    ∃ number, Denotes text number := by
  have reads : ∃ values : List Nat, text.map digitValue? = values.map some := by
    clear nonempty
    induction text with
    | nil => exact ⟨[], rfl⟩
    | cons character rest ih =>
        obtain ⟨here, later⟩ := List.forall_mem_cons.mp digits
        obtain ⟨value, found⟩ := Option.isSome_iff_exists.mp here
        obtain ⟨values, reads⟩ := ih later
        exact ⟨value :: values, by rw [List.map_cons, found, reads]; rfl⟩
  obtain ⟨values, reads⟩ := reads
  exact ⟨_, nonempty, values, reads, rfl⟩

/-- A written number is a numeral for it. -/
theorem denotes_natDecimal (number : Nat) :
    Denotes (natDecimal number) number := by
  refine ⟨natDecimal_ne_nil number,
    (natDecimal number).map fun character => character.toNat - '0'.toNat, ?_, ?_⟩
  · rw [List.map_map]
    exact List.map_congr_left fun character member =>
      digitValue?_of_isDigit (isDigit_of_mem_natDecimal member)
  · have read : Nat.ofDigitChars 10 (natDecimal number) 0 = number :=
      Nat.ofDigitChars_ten_toDigits
    rwa [ofDigits, List.foldl_map]

end Numerals

section Reading

variable {text : List Char}

theorem trimNumber_of_digitLike
    (digitLike : ∀ character ∈ text, isDigitLike character = true) :
    trimNumber text = text := by
  have solid {part : List Char} (subset : part ⊆ text) :
      part.dropWhile isNumberBlank = part := by
    cases part with
    | nil => rfl
    | cons character rest =>
        have blank := isBlank_of_isDigitLike
          (digitLike character (subset List.mem_cons_self))
        exact List.dropWhile_cons_of_neg (by simp [isNumberBlank, blank])
  rw [trimNumber, solid (List.Subset.refl text),
    solid fun _ member => List.mem_reverse.mp member, List.reverse_reverse]

theorem splitSign_of_digitLike
    (digitLike : ∀ character ∈ text, isDigitLike character = true) :
    splitSign text = (false, text) := by
  unfold splitSign
  split
  · exact absurd rfl (ne_of_isDigitLike (digitLike '-' List.mem_cons_self) '-'
      (by decide) (by decide))
  · exact absurd rfl (ne_of_isDigitLike (digitLike '+' List.mem_cons_self) '+'
      (by decide) (by decide))
  · rfl

theorem digitRun?_of_reads {digits : List Nat} (nonempty : text ≠ [])
    (reads : text.map digitValue? = digits.map some) :
    digitRun? text = some digits := by
  induction text generalizing digits with
  | nil => exact absurd rfl nonempty
  | cons character rest ih =>
      cases digits with
      | nil => cases reads
      | cons digit digits =>
          obtain ⟨here, later⟩ := List.cons.inj reads
          cases rest with
          | nil =>
              obtain rfl := List.map_eq_nil_iff.mp later.symm
              simp [digitRun?, here]
          | cons next rest =>
              have found := ih (List.cons_ne_nil next rest) later
              -- No digit is an underscore, so the run goes on with the next.
              have bare : next ≠ '_' := by
                rintro rfl
                have digitless : digitValue? '_' = none := by decide
                cases digits with
                | nil => cases later
                | cons other digits =>
                    have same := (List.cons.inj later).1
                    rw [digitless] at same
                    cases same
              rw [digitRun?]
              · simp [here, found]
              · exact List.cons_ne_nil next rest
              · exact fun _ same => bare (List.cons.inj same).1

theorem integerOfText_of_denotes {value : Nat} (denotes : Denotes text value) :
    integerOfText text =
      if integerDigitLimit < text.length then
        .error (.tooManyDigits text.length)
      else
        .ok value := by
  have digitLike : ∀ character ∈ text, isDigitLike character = true :=
    fun _ => denotes.isDigitLike_of_mem
  have numeral : ∀ character ∈ text, isNumeralChar character = true := by
    intro character member
    simp [isNumeralChar, denotes.isDecimalDigit_of_mem member]
  have whole : text.takeWhile isNumeralChar = text :=
    List.takeWhile_eq_self_iff.mpr numeral
  obtain ⟨nonempty, digits, reads, rfl⟩ := denotes
  have count : digits.length = text.length := by
    simpa using (congrArg List.length reads).symm
  simp only [integerOfText, trimNumber_of_digitLike digitLike,
    splitSign_of_digitLike digitLike, whole, digitRun?_of_reads nonempty reads,
    List.all_eq_true.mpr numeral, count, if_true]
  rfl

/-- A run of digits and digit signs is read only if it holds no digit sign. -/
theorem isDecimalDigit_of_integerOfText {number : Int}
    (digitLike : ∀ character ∈ text, isDigitLike character = true)
    (read : integerOfText text = .ok number) :
    ∀ character ∈ text, isDecimalDigit character = true := by
  simp only [integerOfText, trimNumber_of_digitLike digitLike,
    splitSign_of_digitLike digitLike] at read
  split at read
  · cases read
  · split at read
    · cases read
    · split at read
      · rename_i numeral
        intro character member
        have bare := ne_of_isDigitLike (digitLike character member) '_'
          (by decide) (by decide)
        have allowed := List.all_eq_true.mp numeral character member
        simpa [isNumeralChar, bare] using allowed
      · cases read

/-- A run of digits and digit signs is read exactly if all of them are decimal
digits and there are not too many, and then as the number it stands for. -/
theorem integerOfText_eq_ok_iff (nonempty : text ≠ [])
    (digitLike : ∀ character ∈ text, isDigitLike character = true)
    {number : Int} : integerOfText text = .ok number ↔
      text.length ≤ integerDigitLimit ∧
        ∃ value : Nat, Denotes text value ∧ number = value := by
  constructor
  · intro read
    obtain ⟨value, denotes⟩ := exists_denotes nonempty
      (isDecimalDigit_of_integerOfText digitLike read)
    rw [integerOfText_of_denotes denotes] at read
    split at read
    · cases read
    · rename_i short
      exact ⟨Nat.le_of_not_lt short, value, denotes,
        (Except.ok.inj read).symm⟩
  · rintro ⟨short, value, denotes, rfl⟩
    rw [integerOfText_of_denotes denotes, if_neg (Nat.not_lt.mpr short)]

end Reading

end CaretReport

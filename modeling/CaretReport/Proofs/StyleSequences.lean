import CaretReport.Proofs.EscapeSequences
import CaretReport.Proofs.NumeralText
import CaretReport.Proofs.Traversal

/-!
# Reading a style from its sequence

A style is read from `ESC [`, a body and a final `m`.  The body is one numeral
for the code of a palette colour or an emphasis, or the three channels of a
24-bit colour behind `38;2;`.  Numerals may be written in the digits of any
script, and a line break may follow the channels, so the texts that are read are
more than the escape sequences: those among them are the ones of ASCII
characters without a line break.
-/

namespace CaretReport

/-- The parts of the body of a 24-bit colour with the given channels. -/
def channelParts (red green blue : List Char) : List (List Char) :=
  [['3', '8'], ['2'], red, green, blue]

/-- What stands between `ESC [` and the final `m` is read as the style. -/
inductive Style.Spells : List Char → Style → Prop where
  | code {numeral : List Char} {style : Style} {code : Nat}
      (single : style.parameters = [code]) (denotes : Denotes numeral code)
      (short : numeral.length ≤ integerDigitLimit) : Spells numeral style
  | channels {red green blue ending : List Char} {color : Rgb}
      (reds : Denotes red color.red) (greens : Denotes green color.green)
      (blues : Denotes blue color.blue)
      (short : ∀ channel ∈ [red, green, blue], channel.length ≤ 3)
      (ends : ending = [] ∨ ending = ['\n']) :
      Spells (joinWithChar ';' (channelParts red green blue) ++ ending)
        (.foreground (.rgb color))

variable {text body : List Char} {style : Style}

theorem escapeBody?_eq_some_iff : escapeBody? text = some body ↔
    text = bracketed body := by
  constructor
  · intro found
    unfold escapeBody? at found
    split at found
    · split at found
      · rename_i both
        obtain ⟨opens, ends⟩ := both
        obtain rfl := Option.some.inj found
        rw [opens, bracketed, List.dropLast_append_getLast? _ ends]
      · cases found
    · cases found
  · rintro rfl
    simp [escapeBody?, bracketed]

section Channels

variable {red green blue : List Char}

theorem isChannelText_iff : isChannelText text = true ↔
    text.length ≤ 3 ∧ ∃ value, Denotes text value := by
  simp only [isChannelText, Bool.and_eq_true, decide_eq_true_eq,
    List.all_eq_true]
  constructor
  · rintro ⟨⟨nonempty, short⟩, digits⟩
    exact ⟨short, exists_denotes (List.length_pos_iff.mp nonempty) digits⟩
  · rintro ⟨short, value, denotes⟩
    exact ⟨⟨List.length_pos_iff.mpr denotes.1, short⟩,
      fun _ member => denotes.isDecimalDigit_of_mem member⟩

theorem exists_ending (body : List Char) : ∃ ending : List Char,
    (ending = [] ∨ ending = ['\n']) ∧ body = dropFinalBreak body ++ ending := by
  unfold dropFinalBreak
  split
  · rename_i ends
    exact ⟨['\n'], .inr rfl, (List.dropLast_append_getLast? _ ends).symm⟩
  · exact ⟨[], .inl rfl, (List.append_nil body).symm⟩

theorem dropFinalBreak_append {ending : List Char} (unbroken : '\n' ∉ body)
    (ends : ending = [] ∨ ending = ['\n']) :
    dropFinalBreak (body ++ ending) = body := by
  rcases ends with rfl | rfl
  · have last : body.getLast? ≠ some '\n' := fun found =>
      unbroken (List.mem_of_getLast? found)
    rw [List.append_nil, dropFinalBreak, if_neg last]
  · rw [dropFinalBreak, if_pos List.getLast?_concat, List.dropLast_concat]

/-- Every part of the body of a 24-bit colour is a numeral. -/
theorem exists_denotes_of_mem_channelParts
    (channels : ∀ channel ∈ [red, green, blue], ∃ value, Denotes channel value)
    {part : List Char} (found : part ∈ channelParts red green blue) :
    ∃ value, Denotes part value := by
  rcases List.mem_cons.mp found with rfl | found
  · exact ⟨38, denotes_natDecimal 38⟩
  · rcases List.mem_cons.mp found with rfl | found
    · exact ⟨2, denotes_natDecimal 2⟩
    · exact channels part found

theorem channelTexts?_eq_some_iff :
    channelTexts? body = some (red, green, blue) ↔
      (∀ channel ∈ [red, green, blue], isChannelText channel = true) ∧
        ∃ ending, (ending = [] ∨ ending = ['\n']) ∧
          body = joinWithChar ';' (channelParts red green blue) ++ ending := by
  constructor
  · intro found
    obtain ⟨ending, ends, whole⟩ := exists_ending body
    have joined := joinWithChar_splitAtChar ';' (dropFinalBreak body)
    unfold channelTexts? at found
    split at found
    · rename_i parts
      split at found
      · rename_i all
        obtain ⟨⟩ := Option.some.inj found
        rw [parts] at joined
        refine ⟨by simpa [and_assoc] using all, ending, ends, ?_⟩
        rw [channelParts, joined]
        exact whole
      · cases found
    · cases found
  · rintro ⟨all, ending, ends, rfl⟩
    have digits {part : List Char} (found : part ∈ channelParts red green blue)
        {character : Char} (inside : character ∈ part) :
        isDigitLike character = true := by
      obtain ⟨value, denotes⟩ := exists_denotes_of_mem_channelParts
        (fun channel member => (isChannelText_iff.mp (all channel member)).2) found
      exact denotes.isDigitLike_of_mem inside
    have unbroken : '\n' ∉ joinWithChar ';' (channelParts red green blue) := by
      intro member
      rcases eq_or_exists_of_mem_joinWithChar member with
        same | ⟨part, found, inside⟩
      · cases same
      · exact ne_of_isDigitLike (digits found inside) '\n' (by decide)
          (by decide) rfl
    have separate : ∀ part ∈ channelParts red green blue, ';' ∉ part :=
      fun part found inside => ne_of_isDigitLike (digits found inside) ';'
        (by decide) (by decide) rfl
    have split_eq : splitAtChar ';' (joinWithChar ';' (channelParts red green blue)) =
        channelParts red green blue :=
      splitAtChar_joinWithChar (List.cons_ne_nil _ _) separate
    have both : (isChannelText red && isChannelText green &&
        isChannelText blue) = true := by
      simpa [and_assoc] using all
    rw [channelTexts?, dropFinalBreak_append unbroken ends, split_eq]
    exact if_pos both

/-- A run of digits names no channels, since these are separated. -/
theorem channelTexts?_of_digitLike
    (digitLike : ∀ character ∈ body, isDigitLike character = true) :
    channelTexts? body = none := by
  by_contra some_found
  obtain ⟨⟨red, green, blue⟩, found⟩ := Option.ne_none_iff_exists'.mp some_found
  obtain ⟨_, ending, _, rfl⟩ := channelTexts?_eq_some_iff.mp found
  exact ne_of_isDigitLike (digitLike ';' (by simp [channelParts, joinWithChar]))
    ';' (by decide) (by decide) rfl

end Channels

theorem Rgb.channel?_eq_ok_iff {value : Int} {channel : Fin 256} :
    Rgb.channel? value = .ok channel ↔ value = channel.val := by
  constructor
  · intro found
    unfold channel? at found
    split at found
    · rw [← Except.ok.inj found]
      simp only
      omega
    · cases found
  · rintro rfl
    exact channel?_val channel

theorem Rgb.ofChannels?_eq_ok_iff {red green blue : Int} {color : Rgb} :
    Rgb.ofChannels? red green blue = .ok color ↔
      red = color.red.val ∧ green = color.green.val ∧ blue = color.blue.val := by
  constructor
  · intro found
    obtain ⟨first, found_first, later⟩ := bind_eq_ok_iff.mp found
    obtain ⟨second, found_second, last⟩ := bind_eq_ok_iff.mp later
    obtain ⟨third, found_third, made⟩ := bind_eq_ok_iff.mp last
    obtain rfl := Except.ok.inj made
    exact ⟨channel?_eq_ok_iff.mp found_first, channel?_eq_ok_iff.mp found_second,
      channel?_eq_ok_iff.mp found_third⟩
  · rintro ⟨rfl, rfl, rfl⟩
    exact ofChannels?_channels color

/-- Three channels are read as the 24-bit colour whose channels they denote. -/
theorem Style.ofChannelTexts_eq_ok_iff {red green blue : List Char}
    (all : ∀ channel ∈ [red, green, blue], isChannelText channel = true) :
    Style.ofChannelTexts red green blue = .ok style ↔
      ∃ color : Rgb, style = .foreground (.rgb color) ∧
        Denotes red color.red ∧ Denotes green color.green ∧
          Denotes blue color.blue := by
  have reads {channel : List Char} (member : channel ∈ [red, green, blue])
      {number : Int} : integerOfText channel = .ok number ↔
        ∃ value : Nat, Denotes channel value ∧ number = value := by
    obtain ⟨short, value, denotes⟩ := isChannelText_iff.mp (all channel member)
    rw [integerOfText_eq_ok_iff denotes.1 fun _ => denotes.isDigitLike_of_mem]
    have fits : channel.length ≤ integerDigitLimit := short.trans (by decide)
    exact and_iff_right fits
  simp only [ofChannelTexts, bind_eq_ok_iff, mapError_eq_ok_iff,
    Rgb.ofChannels?_eq_ok_iff, pure, Except.pure, Except.ok.injEq]
  constructor
  · rintro ⟨_, red_read, _, green_read, _, blue_read, color, ⟨rfl, rfl, rfl⟩, rfl⟩
    obtain ⟨first, reds, same_red⟩ := (reads (by simp)).mp red_read
    obtain ⟨second, greens, same_green⟩ := (reads (by simp)).mp green_read
    obtain ⟨third, blues, same_blue⟩ := (reads (by simp)).mp blue_read
    rw [← Int.natCast_inj.mp same_red] at reds
    rw [← Int.natCast_inj.mp same_green] at greens
    rw [← Int.natCast_inj.mp same_blue] at blues
    exact ⟨color, rfl, reds, greens, blues⟩
  · rintro ⟨color, rfl, reds, greens, blues⟩
    exact ⟨_, (reads (by simp)).mpr ⟨_, reds, rfl⟩,
      _, (reads (by simp)).mpr ⟨_, greens, rfl⟩,
      _, (reads (by simp)).mpr ⟨_, blues, rfl⟩, color, ⟨rfl, rfl, rfl⟩, rfl⟩

namespace Style

/-- One numeral is read as the style that has its number as the only
parameter. -/
theorem Spells.of_code {numeral : List Char} {code : Int}
    (nonempty : numeral ≠ [])
    (digitLike : ∀ character ∈ numeral, isDigitLike character = true)
    (read : integerOfText numeral = .ok code)
    (found : ofCode? code.toNat = some style) : Spells numeral style := by
  obtain ⟨short, value, denotes, rfl⟩ :=
    (integerOfText_eq_ok_iff nonempty digitLike).mp read
  exact .code (ofCode?_eq_some_iff.mp found) denotes short

/-- A style is read from exactly the texts whose body spells it. -/
theorem ofEscape?_eq_ok_iff : ofEscape? text = .ok style ↔
    ∃ body, text = bracketed body ∧ Spells body style := by
  constructor
  · intro read
    unfold ofEscape? at read
    split at read
    · cases read
    · rename_i body found
      refine ⟨body, escapeBody?_eq_some_iff.mp found, ?_⟩
      split at read
      · rename_i red green blue channels
        obtain ⟨all, ending, ends, rfl⟩ := channelTexts?_eq_some_iff.mp channels
        obtain ⟨color, rfl, reds, greens, blues⟩ :=
          (ofChannelTexts_eq_ok_iff all).mp read
        exact .channels reds greens blues
          (fun channel member => (isChannelText_iff.mp (all channel member)).1)
          ends
      · split at read
        · rename_i digits
          obtain ⟨nonempty, digitLike⟩ := digits
          obtain ⟨code, number, here⟩ := bind_eq_ok_iff.mp read
          split at here
          · rename_i same style_found
            obtain rfl := Except.ok.inj here
            exact .of_code nonempty (List.all_eq_true.mp digitLike)
              (mapError_eq_ok_iff.mp number) style_found
          · cases here
        · cases read
  · rintro ⟨body, rfl, spells⟩
    simp only [ofEscape?, escapeBody?_eq_some_iff.mpr rfl]
    cases spells with
    | code single denotes short =>
        have digitLike := fun character =>
          @Denotes.isDigitLike_of_mem body _ denotes character
        have number := (integerOfText_eq_ok_iff denotes.1 digitLike).mpr
          ⟨short, _, denotes, rfl⟩
        simp only [channelTexts?_of_digitLike digitLike]
        rw [if_pos ⟨denotes.1, List.all_eq_true.mpr digitLike⟩, number]
        simp [Except.mapError, bind, Except.bind, pure, Except.pure,
          ofCode?_eq_some_iff.mpr single]
    | @channels red green blue ending color reds greens blues short ends =>
        have all : ∀ channel ∈ [red, green, blue],
            isChannelText channel = true := by
          intro channel member
          refine isChannelText_iff.mpr ⟨short channel member, ?_⟩
          simp only [List.mem_cons, List.not_mem_nil, or_false] at member
          rcases member with rfl | rfl | rfl
          · exact ⟨_, reds⟩
          · exact ⟨_, greens⟩
          · exact ⟨_, blues⟩
        simp only [channelTexts?_eq_some_iff.mpr ⟨all, ending, ends, rfl⟩]
        exact (ofChannelTexts_eq_ok_iff all).mpr ⟨color, rfl, reds, greens, blues⟩

end Style

end CaretReport

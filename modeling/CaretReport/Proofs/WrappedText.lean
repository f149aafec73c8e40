import CaretReport.Message
import CaretReport.Proofs.LineText
import CaretReport.Proofs.Traversal

/-!
# Wrapped text

Wrapping moves the characters of a message into lines and adds only hyphens.
So no line has a line break, and every message can be wrapped at a positive
width.  The lines that come out, styled or not, consist of text alone.
-/

namespace CaretReport

theorem not_mem_of_mem_splitAtChar {separator : Char} {text part : List Char}
    (member : part ∈ splitAtChar separator text) : separator ∉ part := by
  induction text generalizing part with
  | nil =>
      rw [splitAtChar, List.mem_singleton] at member
      simp [member]
  | cons character rest ih =>
      rw [splitAtChar] at member
      split at member
      · rcases List.mem_cons.mp member with rfl | later
        · exact List.not_mem_nil
        · exact ih later
      · rename_i different
        split at member
        · rename_i nothing
          exact absurd nothing (splitAtChar_ne_nil separator rest)
        · rename_i first parts parts_eq
          rw [parts_eq] at ih
          rcases List.mem_cons.mp member with rfl | later
          · rw [List.mem_cons]
            rintro (same | inside)
            · exact different same.symm
            · exact ih List.mem_cons_self inside
          · exact ih (List.mem_cons_of_mem first later)

theorem mem_of_mem_splitAtChar {separator : Char} {text part : List Char}
    (member : part ∈ splitAtChar separator text) {character : Char}
    (inside : character ∈ part) : character ∈ text := by
  induction text generalizing part with
  | nil =>
      rw [splitAtChar, List.mem_singleton] at member
      rw [member] at inside
      cases inside
  | cons first rest ih =>
      rw [splitAtChar] at member
      split at member
      · rcases List.mem_cons.mp member with rfl | later
        · cases inside
        · exact List.mem_cons_of_mem first (ih later inside)
      · split at member
        · rename_i nothing
          exact absurd nothing (splitAtChar_ne_nil separator rest)
        · rename_i head parts parts_eq
          rw [parts_eq] at ih
          rcases List.mem_cons.mp member with rfl | later
          · rcases List.mem_cons.mp inside with rfl | kept
            · exact List.mem_cons_self
            · exact List.mem_cons_of_mem first (ih List.mem_cons_self kept)
          · exact List.mem_cons_of_mem first
              (ih (List.mem_cons_of_mem head later) inside)

theorem trimStart_sublist (text : List Char) : (trimStart text).Sublist text :=
  List.dropWhile_sublist isBlank

theorem trimEnd_sublist (text : List Char) : (trimEnd text).Sublist text := by
  induction text with
  | nil => exact List.Sublist.refl []
  | cons character rest ih =>
      rw [trimEnd]
      split
      · split
        · exact List.nil_sublist _
        · exact (List.nil_sublist rest).cons_cons character
      · exact ih.cons_cons character

/-- The lines of a paragraph are made of its characters and hyphens. -/
theorem mem_of_mem_wrapParagraph {width : Nat} {line part : List Char}
    (member : part ∈ wrapParagraph width line) {character : Char}
    (inside : character ∈ part) : character ∈ line ∨ character = hyphen := by
  fun_induction wrapParagraph width line with
  | case1 line long found ih =>
      rcases ih member with here | added
      · exact Or.inl ((trimStart_sublist line).subset here)
      · exact Or.inr added
  | case2 line long before found ih =>
      rcases List.mem_cons.mp member with rfl | later
      · have kept := (trimEnd_sublist _).subset inside
        exact Or.inl (List.mem_of_mem_take kept)
      · rcases ih later with here | added
        · have kept := (trimStart_sublist _).subset here
          exact Or.inl (List.mem_of_mem_drop kept)
        · exact Or.inr added
  | case3 line long found ih =>
      rcases List.mem_cons.mp member with rfl | later
      · rcases List.mem_append.mp inside with here | added
        · exact Or.inl (List.mem_of_mem_take here)
        · exact Or.inr (List.mem_singleton.mp added)
      · rcases ih later with here | added
        · exact Or.inl (List.mem_of_mem_drop here)
        · exact Or.inr added
  | case4 line short =>
      rw [List.mem_singleton] at member
      rw [member] at inside
      exact Or.inl ((trimEnd_sublist line).subset inside)

theorem lineBreak_not_mem_of_mem_wrapLines {width : Nat} {text line : List Char}
    (member : line ∈ wrapLines width text) : '\n' ∉ line := by
  simp only [wrapLines] at member
  split at member
  · rw [List.mem_singleton] at member
    simp [member]
  · obtain ⟨part, part_mem, wrapped⟩ :=
      List.mem_flatMap.mp (List.mem_of_mem_filter member)
    intro inside
    rcases mem_of_mem_wrapParagraph wrapped inside with here | added
    · exact not_mem_of_mem_splitAtChar part_mem here
    · cases added

/-- The lines of a message are made of its characters and hyphens. -/
theorem mem_of_mem_wrapLines {width : Nat} {text line : List Char}
    (member : line ∈ wrapLines width text) {character : Char}
    (inside : character ∈ line) : character ∈ text ∨ character = hyphen := by
  simp only [wrapLines] at member
  split at member
  · rw [List.mem_singleton] at member
    rw [member] at inside
    cases inside
  · obtain ⟨part, part_mem, wrapped⟩ :=
      List.mem_flatMap.mp (List.mem_of_mem_filter member)
    rcases mem_of_mem_wrapParagraph wrapped inside with here | added
    · have kept := mem_of_mem_splitAtChar part_mem here
      exact Or.inl (List.mem_of_mem_filter kept)
    · exact Or.inr added

/-- Message text, in any number of styles. -/
inductive Token.IsText : Token → Prop where
  | text (content : List Char) : IsText (.text content)
  | styled {inner : Token} (isText : IsText inner) (styles : List Style) :
      IsText (.styled styles inner)

namespace Line

/-- The line holds nothing but text. -/
def Worded (line : Line) : Prop :=
  ∀ token ∈ line.tokens, token.IsText

theorem worded_push {line : Line} (worded : line.Worded) {token : Token}
    (isText : token.IsText) : (line.push token).Worded := by
  refine forall_mem_push worded fun _ => ⟨isText, ?_⟩
  intro last joined last_text join
  cases isText with
  | text content =>
      cases last_text with
      | text before =>
          cases join
          exact .text _
      | styled _ _ => cases join
  | styled _ _ =>
      cases last_text <;> cases join

theorem worded_ofTokens {tokens : List Token}
    (texts : ∀ token ∈ tokens, token.IsText) : (ofTokens tokens).Worded :=
  List.foldlRecOn _ _ (by simp [Worded, empty]) fun _ worded token member =>
    worded_push worded (texts token member)

theorem worded_withStyle {line : Line} (worded : line.Worded) (style : Style) :
    (line.withStyle style).Worded := by
  apply worded_ofTokens
  intro token member
  obtain ⟨source, found, rfl⟩ := List.mem_map.mp member
  cases worded source found with
  | text content => exact .styled (.text content) [style]
  | styled isText styles => exact .styled isText (styles ++ [style])

/-- A text without line breaks makes a line. -/
theorem exists_ofText?_eq_ok {text : List Char} (unbroken : '\n' ∉ text) :
    ∃ line, ofText? text = .ok line ∧ line.Worded := by
  refine ⟨ofTokens [.text text], if_neg unbroken, worded_ofTokens ?_⟩
  intro token member
  rw [List.mem_singleton.mp member]
  exact .text text

theorem plain_ofTokens (tokens : List Token) :
    (ofTokens tokens).plain = tokens.flatMap Token.plain :=
  (plain_pushAll shows_empty.solid tokens).2

/-- A line made from a text shows that text. -/
theorem plain_of_ofText? {text : List Char} {line : Line}
    (made : ofText? text = .ok line) : line.plain = text := by
  unfold ofText? at made
  split at made
  · cases made
  · cases made
    rw [plain_ofTokens]
    exact List.append_nil text

theorem plain_withStyle (line : Line) (style : Style) :
    (line.withStyle style).plain = line.plain := by
  rw [withStyle, plain_ofTokens, List.flatMap_map]
  apply List.flatMap_congr
  intro token _
  cases token <;> rfl

end Line

namespace Message

/-- All lines of the message hold nothing but text. -/
def Worded (message : Message) : Prop :=
  ∀ line ∈ message.lines, line.Worded

/-- Every text becomes a message at a positive width. -/
theorem exists_ofText?_eq_ok (text : List Char) {width : Int}
    (positive : 0 < width) :
    ∃ message, ofText? text width = .ok message ∧ message.Worded := by
  have wraps : wrapText? text width = .ok (wrapLines width.toNat text) :=
    if_neg (by omega)
  have made : ∀ line ∈ wrapLines width.toNat text,
      ∃ shown, Line.ofText? line = .ok shown ∧ shown.Worded := fun line member =>
    Line.exists_ofText?_eq_ok (lineBreak_not_mem_of_mem_wrapLines member)
  obtain ⟨lines, lines_eq⟩ := exists_mapM_eq_ok fun line member =>
    (made line member).imp fun shown both => both.1
  have worded : ∀ line ∈ lines, line.Worded := by
    intro line member
    obtain ⟨source, found, source_eq⟩ := exists_source_of_mapM lines_eq member
    obtain ⟨shown, shown_eq, shown_worded⟩ := made source found
    rw [shown_eq] at source_eq
    cases source_eq
    exact shown_worded
  cases lines with
  | nil =>
      have shape := (mapM_eq_ok_iff _ _ _).mp lines_eq
      exact absurd (List.forall₂_nil_right_iff.mp shape) (wrapLines_ne_nil _ _)
  | cons first rest =>
      refine ⟨⟨first, rest⟩, ?_, worded⟩
      simp only [ofText?, wraps, Except.mapError, bind, Except.bind]
      simp only [lines_eq]
      rfl

theorem worded_withStyle {message : Message} (worded : message.Worded)
    (style : Style) : (message.withStyle style .all).Worded := by
  have lines_eq : (message.withStyle style .all).lines =
      message.lines.map (·.withStyle style) := rfl
  intro line member
  rw [lines_eq] at member
  obtain ⟨source, found, rfl⟩ := List.mem_map.mp member
  exact Line.worded_withStyle (worded source found) style

theorem map_plain_withStyles (message : Message) (styles : List Style) :
    (message.withStyles styles .all).lines.map Line.plain =
      message.lines.map Line.plain := by
  have styled (message : Message) (style : Style) :
      (message.withStyle style .all).lines.map Line.plain =
        message.lines.map Line.plain := by
    have lines_eq : (message.withStyle style .all).lines =
        message.lines.map (·.withStyle style) := rfl
    rw [lines_eq, List.map_map]
    exact List.map_congr_left fun line _ => line.plain_withStyle style
  exact List.foldlRecOn
    (motive := fun later : Message =>
      later.lines.map Line.plain = message.lines.map Line.plain) _ _ rfl
    fun later same style _ => (styled later style).trans same

/-- A wrapped message shows the lines of its text. -/
theorem map_plain_of_ofText? {text : List Char} {width : Int}
    {message : Message} (made : ofText? text width = .ok message) :
    message.lines.map Line.plain = wrapLines width.toNat text := by
  obtain ⟨texts, wrapping, lines, placing, gathering⟩ : ∃ texts,
      wrapText? text width = .ok texts ∧ ∃ lines,
        texts.mapM Line.ofText? = .ok lines ∧ ofLines? lines = .ok message := by
    simpa only [ofText?, bind_eq_ok_iff, mapError_eq_ok_iff] using made
  have texts_eq : texts = wrapLines width.toNat text := by
    unfold wrapText? at wrapping
    split at wrapping
    · cases wrapping
    · exact (Except.ok.inj wrapping).symm
  have lines_eq : message.lines = lines := by
    cases lines with
    | nil => cases gathering
    | cons first rest =>
        cases gathering
        rfl
  have each := ((mapM_eq_ok_iff _ _ _).mp placing).imp
    fun text line made => (Line.plain_of_ofText? made).symm
  rw [← List.forall₂_map_right_iff, List.forall₂_eq_eq_eq] at each
  rw [lines_eq, ← texts_eq, each]

theorem worded_withStyles {message : Message} (worded : message.Worded)
    (styles : List Style) : (message.withStyles styles .all).Worded :=
  List.foldlRecOn _ _ worded fun _ kept style _ => worded_withStyle kept style

end Message

end CaretReport

import CaretReport.Line
import Mathlib.Data.List.Basic

/-!
# The visible text of a line

Pushing a token joins it to the last one when it can, and yet the line shows
its old text followed by that of the token.  `Line.Shows` says which text a
line shows and that its width is the length of that text, so that filling a
line up to a column reaches that column.
-/

namespace CaretReport

namespace Token

theorem isVoid_space_iff {width : Int} :
    (space width).isVoid = true ↔ width ≤ 0 :=
  decide_eq_true_iff

theorem isVoid_rule_iff {width : Int} : (rule width).isVoid = true ↔ width ≤ 0 :=
  decide_eq_true_iff

theorem solid_space_iff {width : Int} :
    (space width).isVoid = false ↔ 0 < width := by
  rw [isVoid, decide_eq_false_iff_not, Int.not_le]

theorem solid_rule_iff {width : Int} :
    (rule width).isVoid = false ↔ 0 < width := by
  rw [isVoid, decide_eq_false_iff_not, Int.not_le]

theorem plain_of_isVoid {token : Token} (void : token.isVoid = true) :
    token.plain = [] := by
  cases token <;> simp_all [isVoid, plain, List.replicate_eq_nil_iff]

/-- Only two runs of one kind, two texts or two resets are joined. -/
theorem cases_of_join? {left right joined : Token}
    (join : left.join? right = some joined) :
    (∃ first second, left = .space first ∧ right = .space second ∧
      joined = .space (first + second)) ∨
    (∃ first second, left = .rule first ∧ right = .rule second ∧
      joined = .rule (first + second)) ∨
    (∃ first second, left = .text first ∧ right = .text second ∧
      joined = .text (first ++ second)) ∨
    left = .reset ∧ right = .reset ∧ joined = .reset := by
  cases left <;> cases right <;> simp_all [join?]

theorem replicate_toNat_add {first second : Int} (first_pos : 0 < first)
    (second_pos : 0 < second) (character : Char) :
    List.replicate (first + second).toNat character =
      List.replicate first.toNat character ++
        List.replicate second.toNat character := by
  rw [List.replicate_append_replicate]
  congr 1
  omega

theorem plain_of_join? {left right joined : Token}
    (join : left.join? right = some joined) (left_solid : left.isVoid = false)
    (right_solid : right.isVoid = false) :
    joined.plain = left.plain ++ right.plain := by
  obtain ⟨first, second, rfl, rfl, rfl⟩ | ⟨first, second, rfl, rfl, rfl⟩ |
    ⟨first, second, rfl, rfl, rfl⟩ | ⟨rfl, rfl, rfl⟩ := cases_of_join? join
  · rw [solid_space_iff] at left_solid right_solid
    exact replicate_toNat_add left_solid right_solid ' '
  · rw [solid_rule_iff] at left_solid right_solid
    exact replicate_toNat_add left_solid right_solid Glyph.rule.char
  · rfl
  · rfl

theorem isVoid_of_join? {left right joined : Token}
    (join : left.join? right = some joined) (left_solid : left.isVoid = false)
    (right_solid : right.isVoid = false) : joined.isVoid = false := by
  obtain ⟨first, second, rfl, rfl, rfl⟩ | ⟨first, second, rfl, rfl, rfl⟩ |
    ⟨first, second, rfl, rfl, rfl⟩ | ⟨rfl, rfl, rfl⟩ := cases_of_join? join
  · rw [solid_space_iff] at left_solid right_solid ⊢
    exact Int.add_pos left_solid right_solid
  · rw [solid_rule_iff] at left_solid right_solid ⊢
    exact Int.add_pos left_solid right_solid
  · simp_all [isVoid]
  · rfl

theorem width_of_join? {left right joined : Token}
    (join : left.join? right = some joined) :
    joined.width = left.width + right.width := by
  obtain ⟨first, second, rfl, rfl, rfl⟩ | ⟨first, second, rfl, rfl, rfl⟩ |
    ⟨first, second, rfl, rfl, rfl⟩ | ⟨rfl, rfl, rfl⟩ := cases_of_join? join
  · rfl
  · rfl
  · simp [width]
  · rfl

/-- A view of tokens that pushing respects: what is left out of a line shows
nothing in it, and joined tokens show what both of them show. -/
structure Additive {Item : Type} (view : Token → List Item) : Prop where
  nothing : ∀ token, token.isVoid = true → view token = []
  joined : ∀ left right joined, left.join? right = some joined →
    left.isVoid = false → right.isVoid = false →
    view joined = view left ++ view right

theorem Additive.map {Item Other : Type} {view : Token → List Item}
    (additive : Additive view) (change : Item → Other) :
    Additive fun token => (view token).map change where
  nothing token void := by
    rw [additive.nothing token void, List.map_nil]
  joined left right joined join left_solid right_solid := by
    rw [additive.joined left right joined join left_solid right_solid,
      List.map_append]

theorem additive_plain : Additive plain where
  nothing _ := plain_of_isVoid
  joined _ _ _ := plain_of_join?

end Token

section Views

variable {Item : Type} {view : Token → List Item}

theorem flatMap_pushToken (additive : Token.Additive view)
    {tokens : List Token} {token : Token}
    (solid : ∀ other ∈ tokens, other.isVoid = false)
    (token_solid : token.isVoid = false) :
    (pushToken tokens token).flatMap view =
      tokens.flatMap view ++ view token := by
  induction tokens with
  | nil => simp [pushToken]
  | cons first rest ih =>
      cases rest with
      | nil =>
          have first_solid := solid first List.mem_cons_self
          cases join : first.join? token with
          | none => simp [pushToken, join]
          | some joined =>
              have both :=
                additive.joined first token joined join first_solid token_solid
              simp [pushToken, join, both]
      | cons second rest =>
          have shown := ih fun other member =>
            solid other (List.mem_cons_of_mem first member)
          simp only [pushToken, List.flatMap_cons, List.append_assoc] at shown ⊢
          rw [shown]

end Views

/-- What holds of the tokens of a line and of a further one holds after a push
if joining with the further one keeps it. -/
theorem forall_mem_pushToken {holds : Token → Prop} {tokens : List Token}
    {token : Token} (all : ∀ other ∈ tokens, holds other) (new : holds token)
    (joins : ∀ last joined, holds last → last.join? token = some joined →
      holds joined) :
    ∀ other ∈ pushToken tokens token, holds other := by
  induction tokens with
  | nil =>
      intro other member
      rw [pushToken, List.mem_singleton] at member
      rw [member]
      exact new
  | cons first rest ih =>
      have first_holds := all first List.mem_cons_self
      cases rest with
      | nil =>
          cases join : first.join? token with
          | none => simp [pushToken, join, first_holds, new]
          | some joined =>
              simp [pushToken, join, joins first joined first_holds join]
      | cons second rest =>
          have kept := ih fun other member =>
            all other (List.mem_cons_of_mem first member)
          rw [pushToken, List.forall_mem_cons]
          exact ⟨first_holds, kept⟩

theorem foldr_width_pushToken (tokens : List Token) (token : Token) :
    (pushToken tokens token).foldr (fun token rest => token.width + rest) 0 =
      tokens.foldr (fun token rest => token.width + rest) 0 + token.width := by
  induction tokens with
  | nil => simp [pushToken]
  | cons first rest ih =>
      cases rest with
      | nil =>
          cases join : first.join? token with
          | none => simp [pushToken, join]
          | some joined => simp [pushToken, join, Token.width_of_join? join]
      | cons second rest =>
          simp only [pushToken, List.foldr_cons] at ih ⊢
          rw [ih]
          omega

namespace Line

theorem push_of_isVoid {token : Token} (void : token.isVoid = true) (line : Line) :
    line.push token = line :=
  if_pos void

theorem push_of_solid {token : Token} (solid : token.isVoid = false) (line : Line) :
    line.push token = ⟨pushToken line.tokens token⟩ := by
  rw [push, solid, if_neg Bool.false_ne_true]

theorem forall_mem_push {holds : Token → Prop} {line : Line} {token : Token}
    (all : ∀ other ∈ line.tokens, holds other)
    (pushed : token.isVoid = false → holds token ∧
      ∀ last joined, holds last → last.join? token = some joined →
        holds joined) :
    ∀ other ∈ (line.push token).tokens, holds other := by
  cases void : token.isVoid with
  | true =>
      rw [push_of_isVoid void]
      exact all
  | false =>
      rw [push_of_solid void]
      exact forall_mem_pushToken all (pushed void).1 (pushed void).2

/-- No token of the line is one that a push would leave out. -/
def Solid (line : Line) : Prop :=
  ∀ token ∈ line.tokens, token.isVoid = false

theorem solid_push {line : Line} (solid : line.Solid) (token : Token) :
    (line.push token).Solid :=
  forall_mem_push solid fun shown => ⟨shown, fun _ _ last_solid join =>
    Token.isVoid_of_join? join last_solid shown⟩

section Views

variable {Item : Type} {view : Token → List Item}

/-- A pushed token shows in a view what it shows after what the line does. -/
theorem flatMap_push (additive : Token.Additive view) {line : Line}
    (solid : line.Solid) (token : Token) :
    (line.push token).tokens.flatMap view =
      line.tokens.flatMap view ++ view token := by
  cases void : token.isVoid with
  | true =>
      rw [push_of_isVoid void, additive.nothing token void, List.append_nil]
  | false =>
      rw [push_of_solid void]
      exact flatMap_pushToken additive solid void

theorem flatMap_pushAll (additive : Token.Additive view) {line : Line}
    (solid : line.Solid) (tokens : List Token) :
    (line.pushAll tokens).Solid ∧
      (line.pushAll tokens).tokens.flatMap view =
        line.tokens.flatMap view ++ tokens.flatMap view := by
  induction tokens generalizing line with
  | nil => exact ⟨solid, by simp [pushAll]⟩
  | cons token rest ih =>
      have pushed := ih (solid_push solid token)
      refine ⟨pushed.1, ?_⟩
      rw [flatMap_push additive solid] at pushed
      simpa [pushAll] using pushed.2

end Views

/-- A pushed token shows its text after that of the line. -/
theorem plain_push {line : Line} (solid : line.Solid) (token : Token) :
    (line.push token).plain = line.plain ++ token.plain :=
  flatMap_push Token.additive_plain solid token

theorem width_push {line : Line} {token : Token} (shown : token.isVoid = false) :
    (line.push token).width = line.width + token.width := by
  rw [push_of_solid shown]
  exact foldr_width_pushToken line.tokens token

theorem plain_pushAll {line : Line} (solid : line.Solid) (tokens : List Token) :
    (line.pushAll tokens).Solid ∧
      (line.pushAll tokens).plain = line.plain ++ tokens.flatMap Token.plain :=
  flatMap_pushAll Token.additive_plain solid tokens

/-- The line shows the text, and its width is the length of the text. -/
structure Shows (line : Line) (text : List Char) : Prop where
  solid : line.Solid
  plain_eq : line.plain = text
  width_eq : line.width = text.length

theorem shows_empty : empty.Shows [] where
  solid := by simp [Solid, empty]
  plain_eq := rfl
  width_eq := rfl

variable {line : Line} {text : List Char}

theorem Shows.push (shows : line.Shows text) {token : Token}
    (shown : token.isVoid = false)
    (measured : token.width = token.plain.length) :
    (line.push token).Shows (text ++ token.plain) where
  solid := solid_push shows.solid token
  plain_eq := by rw [plain_push shows.solid, shows.plain_eq]
  width_eq := by
    rw [width_push shown, shows.width_eq, measured, List.length_append]
    omega

theorem Shows.space (shows : line.Shows text) (width : Int) :
    (line.space width).Shows (text ++ List.replicate width.toNat ' ') := by
  by_cases void : width ≤ 0
  · rw [Line.space, push_of_isVoid (Token.isVoid_space_iff.mpr void),
      Int.toNat_of_nonpos void, List.replicate_zero, List.append_nil]
    exact shows
  · apply shows.push (Token.solid_space_iff.mpr (Int.not_le.mp void))
    simp [Token.width, Token.plain]
    omega

theorem Shows.padTo (shows : line.Shows text) (column : Int) :
    (line.padTo column).Shows
      (text ++ List.replicate (column - text.length).toNat ' ') := by
  rw [Line.padTo, shows.width_eq]
  exact shows.space _

theorem solid_inStyle_rule {width : Int} (positive : 0 < width)
    (style : Option Style) : (inStyle style (.rule width)).isVoid = false := by
  cases style with
  | none => exact Token.solid_rule_iff.mpr positive
  | some style => rfl

theorem solid_inStyle_glyph (shape : Glyph) (style : Option Style) :
    (inStyle style (.glyph shape)).isVoid = false := by
  cases style <;> rfl

theorem width_inStyle (style : Option Style) (token : Token) :
    (inStyle style token).width = token.width := by
  cases style <;> rfl

theorem plain_inStyle (style : Option Style) (token : Token) :
    (inStyle style token).plain = token.plain := by
  cases style <;> rfl

theorem Shows.rule (shows : line.Shows text) (width : Int)
    (style : Option Style) :
    (line.rule width style).Shows
      (text ++ List.replicate width.toNat Glyph.rule.char) := by
  unfold Line.rule
  split
  · rename_i void
    rw [Int.toNat_of_nonpos void, List.replicate_zero, List.append_nil]
    exact shows
  · rename_i positive
    have solid := solid_inStyle_rule (Int.not_le.mp positive) style
    have drawn := shows.push solid (by
      rw [width_inStyle, plain_inStyle, Token.width, Token.plain,
        List.length_replicate]
      omega)
    rw [plain_inStyle] at drawn
    exact drawn

theorem Shows.glyph (shows : line.Shows text) (shape : Glyph)
    (style : Option Style) :
    (line.glyph shape style).Shows (text ++ [shape.char]) := by
  have drawn := shows.push (solid_inStyle_glyph shape style) (by
    rw [width_inStyle, plain_inStyle]
    rfl)
  rw [plain_inStyle] at drawn
  exact drawn

/-- A line that is extended shows its text followed by that of the other. -/
theorem Shows.plain_extend (shows : line.Shows text) (other : Line) :
    (line.extend other).plain = text ++ other.plain := by
  rw [extend, (plain_pushAll shows.solid other.tokens).2, shows.plain_eq]
  rfl

theorem solid_extend (solid : line.Solid) (other : Line) :
    (line.extend other).Solid :=
  (plain_pushAll solid other.tokens).1

theorem plain_reset (solid : line.Solid) : line.reset.plain = line.plain := by
  rw [reset, plain_push solid]
  exact List.append_nil line.plain

/-- The line is made of blanks, rules and glyphs, without any text. -/
inductive Wordless : Line → Prop where
  | empty : Wordless .empty
  | space {line : Line} (wordless : Wordless line) (width : Int) :
      Wordless (line.space width)
  | rule {line : Line} (wordless : Wordless line) (width : Int)
      (style : Option Style) : Wordless (line.rule width style)
  | glyph {line : Line} (wordless : Wordless line) (shape : Glyph)
      (style : Option Style) : Wordless (line.glyph shape style)

theorem Wordless.padTo (wordless : line.Wordless) (column : Int) :
    (line.padTo column).Wordless :=
  wordless.space _

theorem Wordless.shows (wordless : line.Wordless) : line.Shows line.plain := by
  have shown : ∃ text, line.Shows text := by
    induction wordless with
    | empty => exact ⟨[], shows_empty⟩
    | space _ width ih =>
        obtain ⟨text, shows⟩ := ih
        exact ⟨_, shows.space width⟩
    | rule _ width style ih =>
        obtain ⟨text, shows⟩ := ih
        exact ⟨_, shows.rule width style⟩
    | glyph _ shape style ih =>
        obtain ⟨text, shows⟩ := ih
        exact ⟨_, shows.glyph shape style⟩
  obtain ⟨text, shows⟩ := shown
  rw [shows.plain_eq]
  exact shows

/-- A line without text shows blanks and glyphs only. -/
theorem Wordless.char_of_mem_plain (wordless : line.Wordless) {shown : Char}
    (member : shown ∈ line.plain) :
    shown = ' ' ∨ ∃ shape : Glyph, shown = shape.char := by
  induction wordless with
  | empty => cases member
  | space wordless width ih =>
      rw [(wordless.shows.space width).plain_eq, List.mem_append] at member
      rcases member with old | new
      · exact ih old
      · exact Or.inl (List.eq_of_mem_replicate new)
  | rule wordless width style ih =>
      rw [(wordless.shows.rule width style).plain_eq, List.mem_append] at member
      rcases member with old | new
      · exact ih old
      · exact Or.inr ⟨.rule, List.eq_of_mem_replicate new⟩
  | glyph wordless shape style ih =>
      rw [(wordless.shows.glyph shape style).plain_eq, List.mem_append] at member
      rcases member with old | new
      · exact ih old
      · exact Or.inr ⟨shape, List.mem_singleton.mp new⟩

/-- The longer line continues a line without text by more of the same. -/
structure Continues (line longer : Line) : Prop where
  wordless : longer.Wordless
  plain_eq : ∃ more, longer.plain = line.plain ++ more

theorem continues_refl (wordless : line.Wordless) : line.Continues line :=
  ⟨wordless, [], by rw [List.append_nil]⟩

namespace Continues

variable {longer : Line}

theorem of_shows (continues : line.Continues longer) {next : Line}
    {added : List Char} (wordless : next.Wordless)
    (shows : next.Shows (longer.plain ++ added)) : line.Continues next := by
  obtain ⟨more, plain_eq⟩ := continues.plain_eq
  refine ⟨wordless, more ++ added, ?_⟩
  rw [shows.plain_eq, plain_eq, List.append_assoc]

theorem space (continues : line.Continues longer) (width : Int) :
    line.Continues (longer.space width) :=
  continues.of_shows (continues.wordless.space width)
    (continues.wordless.shows.space width)

theorem rule (continues : line.Continues longer) (width : Int)
    (style : Option Style) : line.Continues (longer.rule width style) :=
  continues.of_shows (continues.wordless.rule width style)
    (continues.wordless.shows.rule width style)

theorem glyph (continues : line.Continues longer) (shape : Glyph)
    (style : Option Style) : line.Continues (longer.glyph shape style) :=
  continues.of_shows (continues.wordless.glyph shape style)
    (continues.wordless.shows.glyph shape style)

end Continues

end Line

end CaretReport

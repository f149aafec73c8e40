import CaretReport.Proofs.CompactLines
import CaretReport.Proofs.WrappedText
import Mathlib.Data.List.Forall2

/-!
# Styles on lines

A style that is put on a line goes to the tokens of the line one by one, and none
of them is joined to another one afterwards.  Which tokens take the style is
decided by their outermost form alone: bare blanks, rules, glyphs and resets stay
as they are, but a glyph that already stands in a colour is restyled like text.
-/

namespace CaretReport

namespace Token

/-- How a token comes out of putting styles on its line, of which the innermost is
listed last: text is put into these styles, a token in styles gets them inside its
own, and everything bare stays as it is. -/
inductive Restyles (styles : List Style) : Token → Token → Prop where
  | text (content : List Char) :
      Restyles styles (.text content) (.styled styles (.text content))
  | styled (stack : List Style) (inner : Token) :
      Restyles styles (.styled stack inner) (.styled (stack ++ styles) inner)
  | space (width : Int) : Restyles styles (.space width) (.space width)
  | rule (width : Int) : Restyles styles (.rule width) (.rule width)
  | glyph (shape : Glyph) : Restyles styles (.glyph shape) (.glyph shape)
  | reset : Restyles styles .reset .reset

/-- The token with several more styles, each nested inside the one before. -/
def withStyles (token : Token) (styles : List Style) : Token :=
  styles.foldl (fun restyled style => withStyle style restyled) token

theorem withStyles_cons (token : Token) (style : Style) (rest : List Style) :
    token.withStyles (style :: rest) = (withStyle style token).withStyles rest :=
  rfl

theorem withStyles_styled (styles stack : List Style) (inner : Token) :
    (styled stack inner).withStyles styles = styled (stack ++ styles) inner := by
  induction styles generalizing stack with
  | nil => rw [List.append_nil]; rfl
  | cons style rest ih =>
      rw [withStyles_cons, withStyle, ih, List.append_assoc,
        List.singleton_append]

/-- Styles that are put on one after the other are listed in that order. -/
theorem restyles_withStyles (style : Style) (more : List Style) (token : Token) :
    token.Restyles (style :: more) (token.withStyles (style :: more)) := by
  have unchanged {bare : Token} (kept : ∀ style, withStyle style bare = bare) :
      bare.withStyles (style :: more) = bare :=
    List.foldl_fixed' kept _
  cases token with
  | text content =>
      rw [withStyles_cons, withStyle, withStyles_styled]
      exact .text content
  | styled stack inner =>
      rw [withStyles_styled]
      exact .styled stack inner
  | space width =>
      rw [unchanged fun _ => rfl]
      exact .space width
  | rule width =>
      rw [unchanged fun _ => rfl]
      exact .rule width
  | glyph shape =>
      rw [unchanged fun _ => rfl]
      exact .glyph shape
  | reset =>
      rw [unchanged fun _ => rfl]
      exact .reset

/-- Restyling leaves a token without text alone exactly if it stands bare. -/
theorem Restyles.eq_of_not_isText_iff {styles : List Style} {token other : Token}
    (restyles : token.Restyles styles other) (nonempty : styles ≠ []) :
    (¬ token.IsText → other = token) ↔
      ∀ stack inner, token = .styled stack inner → inner.IsText := by
  cases restyles with
  | styled stack inner =>
      have changed : Token.styled (stack ++ styles) inner ≠ .styled stack inner := by
        simpa using nonempty
      constructor
      · intro kept stack' inner' same
        obtain ⟨rfl, rfl⟩ := Token.styled.inj same
        by_contra wordless
        refine changed (kept fun isText => wordless ?_)
        cases isText with
        | styled isText _ => exact isText
      · intro worded wordless
        exact absurd (.styled (worded stack inner rfl) stack) wordless
  | text content =>
      exact ⟨fun _ => nofun, fun _ wordless =>
        absurd (IsText.text content) wordless⟩
  | space width => exact ⟨fun _ => nofun, fun _ _ => rfl⟩
  | rule width => exact ⟨fun _ => nofun, fun _ _ => rfl⟩
  | glyph shape => exact ⟨fun _ => nofun, fun _ _ => rfl⟩
  | reset => exact ⟨fun _ => nofun, fun _ _ => rfl⟩

end Token

/-- A style makes no token void, and nothing can be joined that could not be
before. -/
theorem compact_map_withStyle {tokens : List Token} (compact : Compact tokens)
    (style : Style) : Compact (tokens.map (Token.withStyle style)) := by
  constructor
  · intro token member
    obtain ⟨source, found, rfl⟩ := List.mem_map.mp member
    have shown := compact.solid source found
    cases source with
    | text content => rfl
    | styled stack inner => rfl
    | _ => exact shown
  · refine List.isChain_map_of_isChain _ ?_ compact.apart
    intro token next apart
    cases token <;> cases next <;> first | rfl | exact apart

namespace Line

/-- Styles on a compact line are styles on its tokens. -/
theorem tokens_foldl_withStyle (styles : List Style) {line : Line}
    (compact : Compact line.tokens) :
    (styles.foldl withStyle line).tokens =
      line.tokens.map fun token => token.withStyles styles := by
  induction styles generalizing line with
  | nil => exact (List.map_id line.tokens).symm
  | cons style rest ih =>
      have restyled := compact_map_withStyle compact style
      have tokens_eq : (line.withStyle style).tokens =
          line.tokens.map (Token.withStyle style) := by
        rw [withStyle, ofTokens_of_compact restyled]
      rw [List.foldl_cons, ih (tokens_eq ▸ restyled), tokens_eq, List.map_map]
      rfl

theorem plain_foldl_withStyle (styles : List Style) (line : Line) :
    (styles.foldl withStyle line).plain = line.plain :=
  List.foldlRecOn (motive := fun later : Line => later.plain = line.plain) _ _ rfl
    fun later same style _ => (later.plain_withStyle style).trans same

/-- Styles on a line of any tokens change no visible character and give each of
its tokens the form that its own kind asks for.  What is no text is left alone
exactly if none of it stands in a style. -/
theorem withStyle_keeps_structure_iff (tokens : List Token) (style : Style)
    (more : List Style) :
    let line := ofTokens tokens
    let restyled := (style :: more).foldl withStyle line
    restyled.plain = line.plain ∧
      List.Forall₂ (Token.Restyles (style :: more)) line.tokens restyled.tokens ∧
      (List.Forall₂ (fun token other => ¬ token.IsText → other = token)
          line.tokens restyled.tokens ↔
        ∀ stack inner, .styled stack inner ∈ line.tokens → inner.IsText) := by
  intro line restyled
  have tokens_eq : restyled.tokens =
      line.tokens.map fun token => token.withStyles (style :: more) :=
    tokens_foldl_withStyle _ (compact_ofTokens tokens)
  refine ⟨plain_foldl_withStyle _ line, ?_, ?_⟩
  · rw [tokens_eq, List.forall₂_map_right_iff, List.forall₂_same]
    exact fun token _ => Token.restyles_withStyles style more token
  · rw [tokens_eq, List.forall₂_map_right_iff, List.forall₂_same]
    have each (token : Token) :=
      (Token.restyles_withStyles style more token).eq_of_not_isText_iff
        (List.cons_ne_nil style more)
    simp only [each]
    constructor
    · intro kept stack inner member
      exact kept _ member stack inner rfl
    · rintro worded token member stack inner rfl
      exact worded stack inner member

/-- A red arrow in front of a text takes the style of the line. -/
theorem withStyle_restyles_coloredGlyph :
    let red : Style := .foreground (.palette ⟨.red, false⟩)
    let line := (empty.glyph .arrow (some red)).text ['m']
    line.tokens = [.styled [red] (.glyph .arrow), .text ['m']] ∧
      (line.withStyle (.emphasis .bold)).tokens =
        [.styled [red, .emphasis .bold] (.glyph .arrow),
          .styled [.emphasis .bold] (.text ['m'])] ∧
      ¬ List.Forall₂ (fun token other => ¬ token.IsText → other = token)
        line.tokens (line.withStyle (.emphasis .bold)).tokens := by
  intro red line
  have tokens_eq : line.tokens =
      [.styled [red] (.glyph .arrow), .text ['m']] := rfl
  have restyled : (line.withStyle (.emphasis .bold)).tokens =
      [.styled [red, .emphasis .bold] (.glyph .arrow),
        .styled [.emphasis .bold] (.text ['m'])] := rfl
  refine ⟨tokens_eq, restyled, ?_⟩
  rw [tokens_eq, restyled, List.forall₂_cons]
  rintro ⟨kept, _⟩
  have wordless : ¬ (Token.styled [red] (.glyph .arrow)).IsText := by
    rintro (_ | ⟨isText, _⟩)
    cases isText
  cases kept wordless

end Line

end CaretReport

import CaretReport.Proofs.StyledChars
import CaretReport.Proofs.TerminalCells
import Mathlib.Data.List.Induction

/-!
# Styles on a terminal

A terminal that reads a rendered line writes every character in the pen of the
styles around it.  Opening a stack of styles takes a terminal from the pen of
the outer styles to the pen of all of them, whether the stack was coalesced or
not.  A reset goes back to the default pen at once and not only to the outer
styles, but by then nothing is left of the text that these styles stand around.
So no style reaches beyond its text.
-/

namespace CaretReport

/-- The colour that a terminal writes in after the sequence of a colour. -/
def Ink.penColor : Ink → PenColor
  | .palette color =>
      .indexed (color.hue.index + if color.bright then 8 else 0)
  | .rgb color => .rgb color

def Emphasis.attribute : Emphasis → PenAttribute
  | .bold => .bold
  | .dim => .dim
  | .italic => .italic
  | .underline => .underline
  | .blink => .blink
  | .inverse => .inverse
  | .hidden => .hidden
  | .strikethrough => .strikethrough

theorem Ink.penColor_injective : Function.Injective Ink.penColor := by
  rintro (⟨hue, bright⟩ | color) (⟨other, shade⟩ | other) same
  · have small := hue.index_lt
    have other_small := other.index_lt
    simp only [penColor, PenColor.indexed.injEq] at same
    have bright_eq : bright = shade := by
      cases bright <;> cases shade <;> simp at same ⊢ <;> omega
    rw [bright_eq, Nat.add_right_cancel_iff] at same
    rw [Hue.index_injective same, bright_eq]
  · cases same
  · cases same
  · cases same
    rfl

theorem Emphasis.attribute_injective : Function.Injective Emphasis.attribute := by
  intro kind other same
  cases kind <;> cases other <;> first | rfl | cases same

namespace Style

def ink? : Style → Option Ink
  | .foreground ink => some ink
  | .emphasis _ => none

def attribute? : Style → Option PenAttribute
  | .foreground _ => none
  | .emphasis kind => some kind.attribute

theorem mem_attributes_iff {styles : List Style} {shown : PenAttribute} :
    shown ∈ styles.filterMap attribute? ↔
      ∃ kind, .emphasis kind ∈ styles ∧ kind.attribute = shown := by
  rw [List.mem_filterMap]
  constructor
  · rintro ⟨style, member, found⟩
    cases style with
    | foreground ink => cases found
    | emphasis kind => exact ⟨kind, member, Option.some.inj found⟩
  · rintro ⟨kind, member, rfl⟩
    exact ⟨.emphasis kind, member, rfl⟩

/-- The change of the pen that the sequence of a style makes. -/
def penChange : Style → PenChange
  | .foreground ink => .foreground ink.penColor
  | .emphasis kind => .switch kind.attribute true

/-- A terminal understands the sequence of a style as that style. -/
theorem ofCodes_parameters (style : Style) :
    PenChange.ofCodes style.parameters = [style.penChange] := by
  cases style with
  | foreground ink =>
      cases ink with
      | palette color =>
          have described : PenChange.ofCode color.code =
              [.foreground (Ink.palette color).penColor] := by
            obtain ⟨hue, bright⟩ := color
            cases hue <;> cases bright <;> rfl
          have plain : color.code ≠ 38 ∧ color.code ≠ 48 := by
            obtain ⟨hue, bright⟩ := color
            cases hue <;> cases bright <;> decide
          rw [penChange, ← described]
          exact PenChange.ofCodes_singleton plain.1 plain.2
      | rgb color =>
          simp [parameters, Ink.parameters, PenChange.ofCodes,
            PenChange.describedColor?, penChange, Ink.penColor]
  | emphasis kind =>
      have described : PenChange.ofCode kind.code =
          [.switch kind.attribute true] := by
        cases kind <;> rfl
      have plain : kind.code ≠ 38 ∧ kind.code ≠ 48 := by
        cases kind <;> decide
      rw [penChange, ← described]
      exact PenChange.ofCodes_singleton plain.1 plain.2

end Style

theorem writes_style (pen : Pen) (style : Style) :
    Writes pen style.escape [] (pen.apply style.penChange) := by
  have shown := writes_escapeSequence pen style.parameters_ne_nil
    style.parameters_le
  rwa [style.ofCodes_parameters] at shown

/-- The attributes that have a setting, each with its setting. -/
def PenAttribute.table (setting : PenAttribute → Option Bool) :
    List (PenAttribute × Bool) :=
  all.filterMap fun kind => (setting kind).map fun on => (kind, on)

theorem PenAttribute.lookup_table (setting : PenAttribute → Option Bool)
    (kind : PenAttribute) : (table setting).lookup kind = setting kind := by
  have listed (kinds : List PenAttribute) :
      (kinds.filterMap fun other => (setting other).map fun on =>
        (other, on)).lookup kind = if kind ∈ kinds then setting kind else none := by
    induction kinds with
    | nil => rfl
    | cons first rest ih =>
        by_cases same : kind = first
        · subst same
          cases set : setting kind with
          | none => simp [set, ih]
          | some on => simp [set]
        · have differ : (kind == first) = false := beq_false_of_ne same
          cases set : setting first with
          | none => simp [set, ih, same]
          | some on => simp [set, List.lookup_cons, differ, ih, same]
  rw [table, listed, if_pos (mem_all kind)]

namespace Pen

theorem switched_switch (pen : Pen) (kind : PenAttribute) (on : Bool) :
    (pen.switch kind on).switched = PenAttribute.table fun other =>
      if other = kind then some on else pen.switched.lookup other := by
  simp only [switch, PenAttribute.table]
  congr 1
  funext other
  split <;> rfl

theorem lookup_switch (pen : Pen) (kind other : PenAttribute) (on : Bool) :
    (pen.switch kind on).switched.lookup other =
      if other = kind then some on else pen.switched.lookup other := by
  rw [switched_switch, PenAttribute.lookup_table]

/-- The pen of nested styles, of which the innermost is listed last: it writes
in the last colour and with every attribute of the list. -/
def ofStyles (styles : List Style) : Pen where
  switched :=
    (PenAttribute.all.filter fun kind =>
      kind ∈ styles.filterMap Style.attribute?).map (·, true)
  foreground := (styles.filterMap Style.ink?).getLast?.map Ink.penColor

@[simp] theorem ofStyles_nil : ofStyles [] = default := rfl

theorem mem_switched_ofStyles {styles : List Style} {kind : Emphasis} :
    (kind.attribute, true) ∈ (ofStyles styles).switched ↔
      .emphasis kind ∈ styles := by
  have listed : kind.attribute ∈ styles.filterMap Style.attribute? ↔
      .emphasis kind ∈ styles := by
    simp only [Style.mem_attributes_iff, Emphasis.attribute_injective.eq_iff,
      exists_eq_right]
  rw [← listed]
  simp [ofStyles, PenAttribute.mem_all]

/-- Styles give the same pen exactly if they have the same last colour and the
same emphases. -/
theorem ofStyles_eq_iff {styles others : List Style} :
    ofStyles styles = ofStyles others ↔
      (styles.filterMap Style.ink?).getLast? =
        (others.filterMap Style.ink?).getLast? ∧
      ∀ kind, .emphasis kind ∈ styles ↔ .emphasis kind ∈ others := by
  constructor
  · intro same
    have colors := congrArg Pen.foreground same
    have switched := congrArg Pen.switched same
    refine ⟨Option.map_injective Ink.penColor_injective colors, ?_⟩
    intro kind
    rw [← mem_switched_ofStyles, switched, mem_switched_ofStyles]
  · rintro ⟨color, emphases⟩
    have attributes (kind : PenAttribute) :
        kind ∈ styles.filterMap Style.attribute? ↔
          kind ∈ others.filterMap Style.attribute? := by
      simp only [Style.mem_attributes_iff, emphases]
    simp only [ofStyles, color, attributes]

theorem switched_ofStyles (styles : List Style) :
    (ofStyles styles).switched = PenAttribute.table fun kind =>
      if kind ∈ styles.filterMap Style.attribute? then some true else none := by
  simp only [ofStyles, PenAttribute.table, ← List.filterMap_eq_map,
    List.filterMap_filter]
  congr 1
  funext kind
  by_cases on : kind ∈ styles.filterMap Style.attribute?
  · simp [on]
  · simp [on]

/-- Switching on one more attribute adds it to those of the styles. -/
theorem switch_ofStyles (styles : List Style) (kind : Emphasis) :
    (ofStyles styles).switch kind.attribute true =
      ofStyles (styles ++ [.emphasis kind]) := by
  have attributes : (styles ++ [Style.emphasis kind]).filterMap
      Style.attribute? = styles.filterMap Style.attribute? ++
        [kind.attribute] := by
    simp [Style.attribute?]
  have colors : (styles ++ [Style.emphasis kind]).filterMap Style.ink? =
      styles.filterMap Style.ink? := by
    simp [Style.ink?]
  have settings : (fun other => if other = kind.attribute then some true
      else (ofStyles styles).switched.lookup other) = fun other =>
        if other ∈ styles.filterMap Style.attribute? ++ [kind.attribute] then
          some true
        else
          none := by
    funext other
    rw [switched_ofStyles, PenAttribute.lookup_table]
    by_cases same : other = kind.attribute
    · simp [same]
    · simp [same]
  have switched : ((ofStyles styles).switch kind.attribute true).switched =
      (ofStyles (styles ++ [.emphasis kind])).switched := by
    rw [switched_switch, settings, switched_ofStyles, attributes]
  have foreground : ((ofStyles styles).switch kind.attribute true).foreground =
      (ofStyles (styles ++ [.emphasis kind])).foreground := by
    simp only [ofStyles, colors]
    rfl
  exact (Pen.mk.injEq ..).mpr ⟨switched, foreground, rfl, rfl⟩

/-- Nesting one more style is what the sequence of the style does. -/
theorem apply_penChange (styles : List Style) (style : Style) :
    (ofStyles styles).apply style.penChange = ofStyles (styles ++ [style]) := by
  cases style with
  | foreground ink =>
      simp [apply, Style.penChange, ofStyles, Style.ink?, Style.attribute?]
  | emphasis kind => exact switch_ofStyles styles kind

theorem applyAll_ofStyles (outer styles : List Style) :
    (ofStyles outer).applyAll (styles.map Style.penChange) =
      ofStyles (outer ++ styles) := by
  induction styles using List.reverseRecOn with
  | nil => rw [List.append_nil]; rfl
  | append_singleton front style ih =>
      rw [List.map_append, applyAll_append, ih, ← List.append_assoc,
        ← apply_penChange]
      rfl

/-- A style that is nested into a stack counts as the last one of the stack. -/
theorem ofStyles_append_nestStyle (outer stack : List Style) (style : Style) :
    ofStyles (outer ++ nestStyle stack style) =
      ofStyles (outer ++ (stack ++ [style])) := by
  cases style with
  | foreground ink =>
      -- The colours of the stack are gone, and its emphases are left.
      have nested : nestStyle stack (.foreground ink) =
          stack.filter (fun other => !other.isForeground) ++
            [.foreground ink] := rfl
      rw [nested, ofStyles_eq_iff]
      constructor
      · simp [Style.ink?, List.getLast?_append]
      · simp [Style.isForeground]
  | emphasis kind =>
      have nested : nestStyle stack (.emphasis kind) =
          if .emphasis kind ∈ stack then stack else stack ++ [.emphasis kind] :=
        rfl
      rw [nested]
      split
      · rename_i present
        rw [ofStyles_eq_iff]
        constructor
        · simp [Style.ink?]
        · intro other
          have again : other = kind → .emphasis other ∈ stack := by
            rintro rfl
            exact present
          simp [or_iff_left_of_imp again]
      · rfl

/-- Coalescing a stack changes nothing on a terminal. -/
theorem ofStyles_append_coalesceStyles (outer styles : List Style) :
    ofStyles (outer ++ coalesceStyles styles) = ofStyles (outer ++ styles) := by
  induction styles using List.reverseRecOn with
  | nil => rfl
  | append_singleton styles style ih =>
      rw [coalesceStyles_append_singleton, ofStyles_append_nestStyle,
        ← List.append_assoc, ← apply_penChange, ih, apply_penChange,
        List.append_assoc]

end Pen

/-- The sequences of styles show nothing and make their changes one after the
other. -/
theorem writes_escapes (pen : Pen) (styles : List Style) :
    Writes pen (styles.flatMap Style.escape) []
      (pen.applyAll (styles.map Style.penChange)) := by
  induction styles generalizing pen with
  | nil => exact writes_nil pen
  | cons style rest ih => exact (writes_style pen style).append (ih _)

/-- The sequences of a stack of styles take a terminal from the pen of the
styles around them to that of all styles. -/
theorem writes_styles (outer styles : List Style) :
    Writes (Pen.ofStyles outer) (styles.flatMap Style.escape) []
      (Pen.ofStyles (outer ++ styles)) := by
  rw [← Pen.applyAll_ofStyles]
  exact writes_escapes _ styles

namespace Token

/-- The characters of a token, each in the pen of the styles around it. -/
def cells (token : Token) : List Cell :=
  token.plain.map fun character => ⟨character, Pen.ofStyles token.enclosing⟩

/-- Inside outer styles, a token shows its text in the pen of these and its own
styles.  Behind it the outer styles still hold or everything is reset. -/
theorem writes_render (token : Token) (outer : List Style)
    (free : escapeChar ∉ token.plain) :
    ∃ after, (after = Pen.ofStyles outer ∨ after = Pen.default) ∧
      Writes (Pen.ofStyles outer) token.render
        (token.plain.map fun character =>
          ⟨character, Pen.ofStyles (outer ++ token.enclosing)⟩) after := by
  have leaf {text : List Char} (bare : escapeChar ∉ text) (outer : List Style) :
      ∃ after, (after = Pen.ofStyles outer ∨ after = Pen.default) ∧
        Writes (Pen.ofStyles outer) text
          (text.map fun character => ⟨character, Pen.ofStyles (outer ++ [])⟩)
          after := by
    rw [List.append_nil]
    exact ⟨_, Or.inl rfl, writes_text bare⟩
  induction token generalizing outer with
  | styled styles inner ih =>
      have same := Pen.ofStyles_append_coalesceStyles outer styles
      obtain ⟨after, last, shown⟩ := ih (outer ++ styles) free
      rw [List.append_assoc] at shown
      cases stack : coalesceStyles styles with
      | nil =>
          rw [stack, List.append_nil] at same
          rw [← same] at last shown
          refine ⟨after, last, ?_⟩
          rw [render, wrapStyles, if_pos stack]
          exact shown
      | cons style rest =>
          have opened := writes_styles outer (coalesceStyles styles)
          rw [same] at opened
          have wrapped := (opened.append shown).append (writes_reset after)
          rw [List.nil_append, List.append_nil] at wrapped
          refine ⟨Pen.default, Or.inr rfl, ?_⟩
          rw [render, wrapStyles, if_neg (by simp [stack])]
          exact wrapped
  | reset => exact ⟨Pen.default, Or.inr rfl, writes_reset _⟩
  | space width => exact leaf free outer
  | rule width => exact leaf free outer
  | glyph shape => exact leaf free outer
  | text content => exact leaf free outer

theorem additive_cells : Additive cells := by
  have same : cells = fun token => token.chars.map fun shown =>
      ⟨shown.character, Pen.ofStyles shown.styles⟩ := by
    funext token
    rw [chars, List.map_map]
    rfl
  rw [same]
  exact additive_chars.map _

theorem map_character_cells (token : Token) :
    token.cells.map Cell.character = token.plain := by
  simp [cells, Function.comp_def]

end Token

namespace Line

/-- A rendered line shows its tokens, each in the pen of its own styles, and
leaves the terminal as it was. -/
theorem display_render {line : Line} (free : escapeChar ∉ line.plain) :
    Pen.default.display line.render =
      .ok (line.tokens.flatMap Token.cells, Pen.default) := by
  apply Writes.display_eq
  apply writes_flatMap
  intro token member
  have bare : escapeChar ∉ token.plain := fun inside =>
    free (List.mem_flatMap.mpr ⟨token, member, inside⟩)
  obtain ⟨after, last, shown⟩ := token.writes_render [] bare
  have closed : after = Pen.default := by simpa using last
  rw [closed] at shown
  exact shown

/-- No style bleeds: on a terminal that starts in its default pen, a line of
any tokens shows exactly its plain text, each character in the pen of the styles
around it, and the terminal is in its default pen again at the end. -/
theorem display_ofTokens {tokens : List Token}
    (free : ∀ token ∈ tokens, escapeChar ∉ token.plain) :
    Pen.default.display (ofTokens tokens).render =
        .ok (tokens.flatMap Token.cells, Pen.default) ∧
      (tokens.flatMap Token.cells).map Cell.character =
        (ofTokens tokens).plain := by
  have plain_eq := plain_ofTokens tokens
  have line_free : escapeChar ∉ (ofTokens tokens).plain := by
    rw [plain_eq]
    intro inside
    obtain ⟨token, member, here⟩ := List.mem_flatMap.mp inside
    exact free token member here
  have merged := (flatMap_pushAll Token.additive_cells shows_empty.solid
    tokens).2
  constructor
  · rw [display_render line_free]
    exact congrArg (fun shown => Except.ok (shown, Pen.default)) merged
  · rw [plain_eq, List.map_flatMap]
    simp only [Token.map_character_cells]

/-- Nested stacks with a replaced colour and a repeated attribute, an empty
stack, and merged texts and resets. -/
theorem display_ofTokens_nested :
    let color : Style := .foreground (.rgb ⟨1, 2, 3⟩)
    let tokens : List Token := [
      .text ['a'], .text ['b'],
      .styled [.foreground (.palette ⟨.red, true⟩), .emphasis .bold, color]
        (.styled [.emphasis .underline, .emphasis .bold] (.text ['x'])),
      .styled [] (.text ['y']), .reset, .reset, .space (-1), .rule 1]
    let marked : Pen := {
      switched := [(.bold, true), (.underline, true)]
      foreground := some (.rgb ⟨1, 2, 3⟩) }
    (∀ token ∈ tokens, escapeChar ∉ token.plain) ∧
      (ofTokens tokens).plain = ['a', 'b', 'x', 'y', '─'] ∧
      Pen.default.display (ofTokens tokens).render =
        .ok ([⟨'a', .default⟩, ⟨'b', .default⟩, ⟨'x', marked⟩,
          ⟨'y', .default⟩, ⟨'─', .default⟩], Pen.default) := by
  intro color tokens marked
  have free : ∀ token ∈ tokens, escapeChar ∉ token.plain := by
    unfold tokens
    decide
  have cells : tokens.flatMap Token.cells =
      [⟨'a', .default⟩, ⟨'b', .default⟩, ⟨'x', marked⟩, ⟨'y', .default⟩,
        ⟨'─', .default⟩] := by
    unfold tokens marked color
    cbv
  obtain ⟨shown, plain_eq⟩ := display_ofTokens free
  rw [cells] at shown plain_eq
  exact ⟨free, plain_eq.symm, shown⟩

end Line

end CaretReport

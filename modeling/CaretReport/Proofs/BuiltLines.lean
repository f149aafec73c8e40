import CaretReport.Proofs.RestyledLines

/-!
# Lines built in any number of steps

However the steps that build a line follow each other, none of its tokens could be
left out or joined to its neighbour, and its width is the number of characters that
it shows, so filling it up to a column adds blanks to that column and nothing else.
Widths are integers of any size, and the text of a line is as long as they say.
The only condition is on tokens that are handed in with styles around them: the
runs inside the styles are not negative, because such tokens are never looked into.
-/

namespace CaretReport

namespace Token

/-- A run of no column, or a text of no character. -/
inductive Hollow : Token → Prop where
  | space {width : Int} (narrow : width ≤ 0) : Hollow (.space width)
  | rule {width : Int} (narrow : width ≤ 0) : Hollow (.rule width)
  | text : Hollow (.text [])

/-- Two blank runs, two rules, two texts or two resets. -/
inductive Alike : Token → Token → Prop where
  | spaces (first second : Int) : Alike (.space first) (.space second)
  | rules (first second : Int) : Alike (.rule first) (.rule second)
  | texts (first second : List Char) : Alike (.text first) (.text second)
  | resets : Alike .reset .reset

theorem isVoid_of_hollow {token : Token} (hollow : token.Hollow) :
    token.isVoid = true := by
  cases hollow with
  | space narrow => exact isVoid_space_iff.mpr narrow
  | rule narrow => exact isVoid_rule_iff.mpr narrow
  | text => rfl

theorem Alike.join?_ne_none {left right : Token} (alike : left.Alike right) :
    left.join? right ≠ none := by
  cases alike <;> exact Option.some_ne_none _

/-- No run of the token, in styles or not, has a negative width. -/
def Measured : Token → Prop
  | .space width => 0 ≤ width
  | .rule width => 0 ≤ width
  | .styled _ inner => inner.Measured
  | _ => True

/-- No run of the token that stands in styles has a negative width. -/
def MeasuredInside : Token → Prop
  | .styled _ inner => inner.Measured
  | _ => True

variable {token : Token}

theorem Measured.inside (measured : token.Measured) : token.MeasuredInside := by
  cases token with
  | styled styles inner => exact measured
  | _ => trivial

theorem measured_of_shown (inside : token.MeasuredInside)
    (shown : token.isVoid = false) : token.Measured := by
  cases token with
  | space width => exact Int.le_of_lt (solid_space_iff.mp shown)
  | rule width => exact Int.le_of_lt (solid_rule_iff.mp shown)
  | styled styles inner => exact inside
  | _ => trivial

theorem measured_of_join? {left right joined : Token}
    (join : left.join? right = some joined) (left_measured : left.Measured)
    (right_measured : right.Measured) : joined.Measured := by
  obtain ⟨first, second, rfl, rfl, rfl⟩ | ⟨first, second, rfl, rfl, rfl⟩ |
    ⟨first, second, rfl, rfl, rfl⟩ | ⟨rfl, rfl, rfl⟩ := cases_of_join? join
  · exact Int.add_nonneg left_measured right_measured
  · exact Int.add_nonneg left_measured right_measured
  · trivial
  · trivial

theorem measuredInside_withStyle (inside : token.MeasuredInside) (style : Style) :
    (withStyle style token).MeasuredInside := by
  cases token with
  | styled styles inner => exact inside
  | _ => trivial

theorem measuredInside_inStyle (measured : token.Measured) (style : Option Style) :
    (Line.inStyle style token).MeasuredInside := by
  cases style with
  | none => exact measured.inside
  | some style => exact measured

theorem width_of_measured (measured : token.Measured) :
    token.width = token.plain.length := by
  induction token with
  | space width =>
      rw [plain, List.length_replicate]
      exact (Int.toNat_of_nonneg measured).symm
  | rule width =>
      rw [plain, List.length_replicate]
      exact (Int.toNat_of_nonneg measured).symm
  | styled styles inner ih => exact ih measured
  | _ => rfl

end Token

namespace Line

/-- No token could be left out or joined to its neighbour, and none has a run of
negative width. -/
structure Tidy (line : Line) : Prop where
  compact : Compact line.tokens
  measured : ∀ token ∈ line.tokens, token.Measured

theorem tidy_empty : empty.Tidy :=
  ⟨compact_nil, by simp [empty]⟩

namespace Tidy

variable {line : Line}

theorem push (tidy : line.Tidy) {token : Token} (inside : token.MeasuredInside) :
    (line.push token).Tidy where
  compact := compact_push tidy.compact token
  measured := forall_mem_push tidy.measured fun shown =>
    have measured := Token.measured_of_shown inside shown
    ⟨measured, fun _ _ last_measured join =>
      Token.measured_of_join? join last_measured measured⟩

theorem pushAll (tidy : line.Tidy) {tokens : List Token}
    (inside : ∀ token ∈ tokens, token.MeasuredInside) : (line.pushAll tokens).Tidy :=
  List.foldlRecOn (motive := Tidy) _ _ tidy fun _ tidy token member =>
    tidy.push (inside token member)

theorem rule (tidy : line.Tidy) (width : Int) (style : Option Style) :
    (line.rule width style).Tidy := by
  unfold Line.rule
  split
  · exact tidy
  · rename_i positive
    have measured : (Token.rule width).Measured :=
      Int.le_of_lt (Int.not_le.mp positive)
    exact tidy.push (Token.measuredInside_inStyle measured style)

theorem glyph (tidy : line.Tidy) (shape : Glyph) (style : Option Style) :
    (line.glyph shape style).Tidy := by
  have measured : (Token.glyph shape).Measured := trivial
  exact tidy.push (Token.measuredInside_inStyle measured style)

theorem extend (tidy : line.Tidy) {other : Line} (other_tidy : other.Tidy) :
    (line.extend other).Tidy :=
  tidy.pushAll fun token member => (other_tidy.measured token member).inside

theorem withStyle (tidy : line.Tidy) (style : Style) : (line.withStyle style).Tidy := by
  apply tidy_empty.pushAll
  intro token member
  obtain ⟨source, found, rfl⟩ := List.mem_map.mp member
  exact Token.measuredInside_withStyle (tidy.measured source found).inside style

theorem width_eq (tidy : line.Tidy) : line.width = line.plain.length := by
  obtain ⟨tokens⟩ := line
  have measured := tidy.measured
  simp only [width, plain] at measured ⊢
  clear tidy
  induction tokens with
  | nil => rfl
  | cons token rest ih =>
      obtain ⟨here, later⟩ := List.forall_mem_cons.mp measured
      rw [List.foldr_cons, ih later, List.flatMap_cons, List.length_append,
        Token.width_of_measured here]
      rfl

theorem shows (tidy : line.Tidy) : line.Shows line.plain :=
  ⟨tidy.compact.solid, rfl, tidy.width_eq⟩

end Tidy

theorem tidy_of_ofText? {line : Line} {text : List Char}
    (made : ofText? text = .ok line) : line.Tidy := by
  unfold ofText? at made
  split at made
  · cases made
  · cases made
    exact tidy_empty.push trivial

/-- The lines that any number of steps leads to from the empty line.  A step puts
something behind a line, which may be a line that is built itself and even the same
one, or puts a style on the line, or begins again with a text. -/
inductive Built : Line → Prop where
  | empty : Built .empty
  | push {line : Line} (built : Built line) {token : Token}
      (inside : token.MeasuredInside) : Built (line.push token)
  | pushAll {line : Line} (built : Built line) {tokens : List Token}
      (inside : ∀ token ∈ tokens, token.MeasuredInside) : Built (line.pushAll tokens)
  | space {line : Line} (built : Built line) (width : Int) : Built (line.space width)
  | padTo {line : Line} (built : Built line) (column : Int) :
      Built (line.padTo column)
  | rule {line : Line} (built : Built line) (width : Int) (style : Option Style) :
      Built (line.rule width style)
  | glyph {line : Line} (built : Built line) (shape : Glyph) (style : Option Style) :
      Built (line.glyph shape style)
  | text {line : Line} (built : Built line) (content : List Char) :
      Built (line.text content)
  | reset {line : Line} (built : Built line) : Built line.reset
  | extend {line other : Line} (built : Built line) (other_built : Built other) :
      Built (line.extend other)
  | withStyle {line : Line} (built : Built line) (style : Style) :
      Built (line.withStyle style)
  | ofText {text : List Char} {line : Line} (made : ofText? text = .ok line) :
      Built line

theorem Built.tidy {line : Line} (built : line.Built) : line.Tidy := by
  induction built with
  | empty => exact tidy_empty
  | push _ inside ih => exact ih.push inside
  | pushAll _ inside ih => exact ih.pushAll inside
  | space _ width ih => exact ih.push trivial
  | padTo _ column ih => exact ih.push trivial
  | rule _ width style ih => exact ih.rule width style
  | glyph _ shape style ih => exact ih.glyph shape style
  | text _ content ih => exact ih.push trivial
  | reset _ ih => exact ih.push trivial
  | extend _ _ ih other_ih => exact ih.extend other_ih
  | withStyle _ style ih => exact ih.withStyle style
  | ofText made => exact tidy_of_ofText? made

/-- A line that is built has no empty run or text, no two neighbours that are alike,
and as many columns as characters.  Filled up to a column, it shows blanks behind
its text up to that column, if it did not reach it already. -/
theorem built_measures_text {line : Line} (built : line.Built) :
    (∀ token ∈ line.tokens, ¬ token.Hollow) ∧
      line.tokens.IsChain (fun token next => ¬ token.Alike next) ∧
      line.width = line.plain.length ∧
      ∀ column : Int,
        (line.padTo column).plain = line.plain ++
            List.replicate (column - line.plain.length).toNat ' ' ∧
          ((line.padTo column).plain.length : Int) =
            max (line.plain.length : Int) column := by
  have tidy := built.tidy
  refine ⟨?_, ?_, tidy.width_eq, fun column => ?_⟩
  · intro token member hollow
    have shown := tidy.compact.solid token member
    rw [Token.isVoid_of_hollow hollow] at shown
    cases shown
  · exact tidy.compact.apart.imp fun _ _ apart alike => alike.join?_ne_none apart
  · have padded := (tidy.shows.padTo column).plain_eq
    refine ⟨padded, ?_⟩
    rw [padded, List.length_append, List.length_replicate]
    omega

/-- Inside a style a negative run is kept, and takes a column from the line. -/
example : (empty.push (.styled [] (.space (-1)))).width = -1 := rfl

/-- A line that holds a rule in a style is put behind itself, gets a style, and is
filled up. -/
theorem built_measures_text_doubled :
    let bold : Style := .emphasis .bold
    let line := ((((empty.space 2).text ['a']).rule (-3) none).push
      (.styled [bold] (.rule 1))).padTo 6
    let doubled := (line.extend line).withStyle bold
    doubled.Built ∧
      doubled.tokens = [.space 2, .styled [bold] (.text ['a']),
        .styled [bold, bold] (.rule 1), .space 4, .styled [bold] (.text ['a']),
        .styled [bold, bold] (.rule 1), .space 2] ∧
      doubled.width = 12 ∧ doubled.plain.length = 12 ∧
      (doubled.padTo 14).plain = doubled.plain ++ [' ', ' '] ∧
      (doubled.padTo (-3)).plain = doubled.plain := by
  intro bold line doubled
  have measured : (Token.styled [bold] (.rule 1)).MeasuredInside := Int.zero_le_ofNat 1
  have line_built : line.Built :=
    .padTo (.push (.rule (.text (.space .empty 2) ['a']) (-3) none) measured) 6
  have built : doubled.Built := .withStyle (.extend line_built line_built) bold
  obtain ⟨_, _, width_eq, padded⟩ := built_measures_text built
  have width : doubled.width = 12 := rfl
  have length : doubled.plain.length = 12 := by
    rw [width] at width_eq
    omega
  refine ⟨built, rfl, width, length, ?_, ?_⟩
  · rw [(padded 14).1, length]
    rfl
  · rw [(padded (-3)).1, length]
    exact List.append_nil _

end Line

end CaretReport

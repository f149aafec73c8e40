import CaretReport.Proofs.CompactLines
import CaretReport.Proofs.WrappedText

/-!
# Lines pushed in pieces

A line depends only on what is pushed in a row, not on how it is cut into tokens.
Two lines put behind each other are the line of all their tokens, a line that is
built again from its own tokens is the same, and a text, a run or a reset may as
well be pushed in pieces, with anything in front and behind.
-/

namespace CaretReport

namespace Token

/-- A token and two pieces that it is cut into: a text is cut at any place, a run
into two runs that are not negative, and a reset is as good as two. -/
inductive Cuts : Token → Token → Token → Prop where
  | text (first second : List Char) :
      Cuts (.text (first ++ second)) (.text first) (.text second)
  | space {first second : Int} (first_nonneg : 0 ≤ first)
      (second_nonneg : 0 ≤ second) :
      Cuts (.space (first + second)) (.space first) (.space second)
  | rule {first second : Int} (first_nonneg : 0 ≤ first)
      (second_nonneg : 0 ≤ second) :
      Cuts (.rule (first + second)) (.rule first) (.rule second)
  | reset : Cuts .reset .reset .reset

/-- A token and any number of pieces that it is cut into. -/
inductive Pieces : Token → List Token → Prop where
  | whole (token : Token) : Pieces token [token]
  | cut {token first rest : Token} {pieces : List Token}
      (cuts : token.Cuts first rest) (later : Pieces rest pieces) :
      Pieces token (first :: pieces)

namespace Cuts

variable {token first second : Token}

theorem join?_eq_some (cuts : token.Cuts first second) :
    first.join? second = some token := by
  cases cuts <;> rfl

/-- Next to a piece that shows nothing, the other one is the whole token. -/
theorem eq_of_isVoid_left (cuts : token.Cuts first second)
    (void : first.isVoid = true) : token = second := by
  cases cuts with
  | text first second =>
      obtain rfl : first = [] := by simpa [isVoid] using void
      rfl
  | space first_nonneg second_nonneg =>
      rw [Int.le_antisymm (isVoid_space_iff.mp void) first_nonneg, Int.zero_add]
  | rule first_nonneg second_nonneg =>
      rw [Int.le_antisymm (isVoid_rule_iff.mp void) first_nonneg, Int.zero_add]
  | reset => rfl

theorem eq_of_isVoid_right (cuts : token.Cuts first second)
    (void : second.isVoid = true) : token = first := by
  cases cuts with
  | text first second =>
      obtain rfl : second = [] := by simpa [isVoid] using void
      rw [List.append_nil]
  | space first_nonneg second_nonneg =>
      rw [Int.le_antisymm (isVoid_space_iff.mp void) second_nonneg, Int.add_zero]
  | rule first_nonneg second_nonneg =>
      rw [Int.le_antisymm (isVoid_rule_iff.mp void) second_nonneg, Int.add_zero]
  | reset => rfl

end Cuts

end Token

namespace Line

variable {token first second : Token} {pieces : List Token}

theorem push_push_of_cuts (cuts : token.Cuts first second) (line : Line) :
    (line.push first).push second = line.push token := by
  cases first_void : first.isVoid with
  | true => rw [push_of_isVoid first_void, cuts.eq_of_isVoid_left first_void]
  | false =>
      cases second_void : second.isVoid with
      | true => rw [push_of_isVoid second_void, cuts.eq_of_isVoid_right second_void]
      | false =>
          exact push_push_of_join? cuts.join?_eq_some first_void second_void line

theorem pushAll_of_pieces (cut : token.Pieces pieces) (line : Line) :
    line.pushAll pieces = line.push token := by
  induction cut generalizing line with
  | whole token => rfl
  | @cut token first rest pieces cuts later ih =>
      calc
        line.pushAll (first :: pieces) = (line.push first).pushAll pieces := rfl
        _ = (line.push first).push rest := ih _
        _ = line.push token := push_push_of_cuts cuts line

theorem extend_ofTokens (line : Line) (tokens : List Token) :
    line.extend (ofTokens tokens) = line.pushAll tokens :=
  extend_pushAll compact_nil.solid line tokens

/-- Lines of tokens are put behind each other like their tokens, and a line of
tokens is the line of its own ones and shows the text of all of them.  It makes no
difference for it into which pieces any of the tokens are cut. -/
theorem ofTokens_joins (tokens others : List Token) :
    (ofTokens tokens).extend (ofTokens others) = ofTokens (tokens ++ others) ∧
      ofTokens (ofTokens tokens).tokens = ofTokens tokens ∧
      (ofTokens tokens).plain = tokens.flatMap Token.plain ∧
      ∀ (token : Token) (pieces : List Token), token.Pieces pieces →
        ofTokens (tokens ++ pieces ++ others) = ofTokens (tokens ++ token :: others) := by
  refine ⟨?_, ofTokens_of_compact (compact_ofTokens tokens), plain_ofTokens tokens, ?_⟩
  · rw [extend_ofTokens, ofTokens, ofTokens, pushAll_append]
  · intro token pieces cut
    calc
      ofTokens (tokens ++ pieces ++ others) =
          ((ofTokens tokens).pushAll pieces).pushAll others := by
        rw [ofTokens, pushAll_append, pushAll_append]
        rfl
      _ = ((ofTokens tokens).push token).pushAll others := by
        rw [pushAll_of_pieces cut]
      _ = ofTokens (tokens ++ token :: others) := by
        rw [ofTokens, ofTokens, pushAll_append]
        rfl

/-- A text in pieces, one of them empty, between runs of which some show nothing. -/
theorem ofTokens_joins_cutText :
    let tokens : List Token := [.space 2, .space (-1), .text ['a']]
    let others : List Token := [.text [], .text ['d'], .reset, .reset]
    let pieces : List Token := [.text ['b'], .text [], .text ['c']]
    (Token.text ['b', 'c']).Pieces pieces ∧
      (ofTokens tokens).extend (ofTokens others) =
        ⟨[.space 2, .text ['a', 'd'], .reset]⟩ ∧
      (ofTokens tokens).plain = [' ', ' ', 'a'] ∧
      ofTokens (tokens ++ pieces ++ others) =
        ⟨[.space 2, .text ['a', 'b', 'c', 'd'], .reset]⟩ := by
  intro tokens others pieces
  have cut : (Token.text ['b', 'c']).Pieces pieces :=
    .cut (.text ['b'] ['c']) (.cut (.text [] ['c']) (.whole _))
  obtain ⟨joined, _, shown, piecewise⟩ := ofTokens_joins tokens others
  refine ⟨cut, ?_, ?_, ?_⟩
  · rw [joined]
    rfl
  · rw [shown]
    rfl
  · rw [piecewise _ _ cut]
    rfl

end Line

end CaretReport

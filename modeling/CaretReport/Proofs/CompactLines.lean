import CaretReport.Proofs.LineText
import Mathlib.Data.List.Chain

/-!
# Lines without void or joinable tokens

Pushing leaves out what shows nothing and joins what can be joined, so a line
never holds a void token or two neighbours that a push would have joined.  On
such a line pushing does nothing more: a line that is built again from its own
tokens is the line itself.  And it never matters whether tokens are joined
before or after they are pushed, so a line that is extended by another one is
the line that all their tokens are pushed onto.
-/

namespace CaretReport

namespace Token

/-- What a token is joined to depends on its kind alone, which joining keeps. -/
theorem join?_left_of_join? {left middle right joined : Token}
    (join : middle.join? right = some joined) (apart : left.join? middle = none) :
    left.join? joined = none := by
  obtain ⟨_, _, rfl, rfl, rfl⟩ | ⟨_, _, rfl, rfl, rfl⟩ | ⟨_, _, rfl, rfl, rfl⟩ |
    ⟨rfl, rfl, rfl⟩ := cases_of_join? join
  all_goals cases left <;> simp_all [join?]

/-- Of three neighbours that can be joined, any two may be joined first. -/
theorem exists_join?_join? {left middle right first joined : Token}
    (before : left.join? middle = some first)
    (after : middle.join? right = some joined) :
    ∃ whole, first.join? right = some whole ∧ left.join? joined = some whole := by
  obtain ⟨_, _, rfl, rfl, rfl⟩ | ⟨_, _, rfl, rfl, rfl⟩ | ⟨_, _, rfl, rfl, rfl⟩ |
    ⟨rfl, rfl, rfl⟩ := cases_of_join? after
  all_goals cases left <;> cases before
  · simp [join?, Int.add_assoc]
  · simp [join?, Int.add_assoc]
  · simp [join?]
  · simp [join?]

end Token

/-- No token is one that a push leaves out or joins to the one before it. -/
structure Compact (tokens : List Token) : Prop where
  solid : ∀ token ∈ tokens, token.isVoid = false
  apart : tokens.IsChain fun token next => token.join? next = none

theorem compact_nil : Compact [] :=
  ⟨by simp, .nil⟩

theorem pushToken_cons {tokens : List Token} (nonempty : tokens ≠ [])
    (first token : Token) :
    pushToken (first :: tokens) token = first :: pushToken tokens token := by
  cases tokens with
  | nil => exact absurd rfl nonempty
  | cons second rest => rfl

/-- Pushing looks only at the last token. -/
theorem pushToken_append_singleton (front : List Token) (last token : Token) :
    pushToken (front ++ [last]) token = front ++ pushToken [last] token := by
  induction front with
  | nil => rfl
  | cons first rest ih =>
      rw [List.cons_append, pushToken_cons (by simp), ih, List.cons_append]

variable {tokens : List Token}

/-- A token that neither shows nothing nor is joined is put behind the others. -/
theorem pushToken_of_apart {token : Token}
    (apart : ∀ last ∈ tokens.getLast?, last.join? token = none) :
    pushToken tokens token = tokens ++ [token] := by
  rcases tokens.eq_nil_or_concat' with rfl | ⟨front, last, rfl⟩
  · rfl
  · have alone : last.join? token = none := apart last (by simp)
    rw [pushToken_append_singleton, List.append_assoc]
    simp [pushToken, alone]

/-- Two tokens that can be joined are pushed like the one that they make. -/
theorem pushToken_pushToken {middle right joined : Token}
    (join : middle.join? right = some joined) (tokens : List Token) :
    pushToken (pushToken tokens middle) right = pushToken tokens joined := by
  rcases tokens.eq_nil_or_concat' with rfl | ⟨front, last, rfl⟩
  · simp [pushToken, join]
  · rw [pushToken_append_singleton, pushToken_append_singleton]
    cases before : last.join? middle with
    | none =>
        have apart := Token.join?_left_of_join? join before
        have pushed : pushToken [last] middle = [last] ++ [middle] := by
          simp [pushToken, before]
        rw [pushed, ← List.append_assoc, pushToken_append_singleton]
        simp [pushToken, join, apart]
    | some first =>
        have pushed : pushToken [last] middle = [first] := by
          simp [pushToken, before]
        obtain ⟨whole, onto, behind⟩ := Token.exists_join?_join? before join
        rw [pushed, pushToken_append_singleton]
        simp [pushToken, onto, behind]

theorem compact_pushToken (compact : Compact tokens) {token : Token}
    (shown : token.isVoid = false) : Compact (pushToken tokens token) := by
  refine ⟨forall_mem_pushToken compact.solid shown fun last joined solid join =>
    Token.isVoid_of_join? join solid shown, ?_⟩
  rcases tokens.eq_nil_or_concat' with rfl | ⟨front, last, rfl⟩
  · exact .singleton token
  · obtain ⟨front_apart, _, seam⟩ := List.isChain_append.mp compact.apart
    rw [pushToken_append_singleton]
    cases join : last.join? token with
    | none =>
        have pushed : pushToken [last] token = [last, token] := by
          simp [pushToken, join]
        rw [pushed]
        refine List.isChain_append.mpr ⟨front_apart, List.isChain_pair.mpr join, ?_⟩
        simpa using seam
    | some joined =>
        have pushed : pushToken [last] token = [joined] := by
          simp [pushToken, join]
        rw [pushed]
        refine List.isChain_append.mpr ⟨front_apart, .singleton joined, ?_⟩
        intro before before_last next next_first
        obtain rfl : joined = next := by simpa using next_first
        exact Token.join?_left_of_join? join (seam before before_last last (by simp))

namespace Line

theorem compact_push {line : Line} (compact : Compact line.tokens) (token : Token) :
    Compact (line.push token).tokens := by
  cases void : token.isVoid with
  | true =>
      rw [push_of_isVoid void]
      exact compact
  | false =>
      rw [push_of_solid void]
      exact compact_pushToken compact void

theorem pushAll_of_compact {front : List Token}
    (compact : Compact (front ++ tokens)) :
    (Line.mk front).pushAll tokens = ⟨front ++ tokens⟩ := by
  induction tokens generalizing front with
  | nil => rw [List.append_nil]; rfl
  | cons token rest ih =>
      have shown : token.isVoid = false := compact.solid token (by simp)
      obtain ⟨_, _, seam⟩ := List.isChain_append.mp compact.apart
      have pushed : (Line.mk front).push token = ⟨front ++ [token]⟩ := by
        rw [push_of_solid shown]
        exact congrArg Line.mk (pushToken_of_apart fun last member =>
          seam last member token (by simp))
      have later : (Line.mk (front ++ [token])).pushAll rest =
          ⟨front ++ [token] ++ rest⟩ := ih (by simpa using compact)
      rw [List.append_assoc, List.singleton_append] at later
      calc
        (Line.mk front).pushAll (token :: rest) =
            ((Line.mk front).push token).pushAll rest := rfl
        _ = (Line.mk (front ++ [token])).pushAll rest := by rw [pushed]
        _ = ⟨front ++ token :: rest⟩ := later

theorem compact_pushAll {line : Line} (compact : Compact line.tokens)
    (tokens : List Token) : Compact (line.pushAll tokens).tokens :=
  List.foldlRecOn (motive := fun line : Line => Compact line.tokens) _ _
    compact fun _ compact token _ => compact_push compact token

/-- A line of any tokens is compact. -/
theorem compact_ofTokens (tokens : List Token) : Compact (ofTokens tokens).tokens :=
  compact_pushAll compact_nil tokens

/-- Compact tokens make a line of just these tokens. -/
theorem ofTokens_of_compact (compact : Compact tokens) :
    ofTokens tokens = ⟨tokens⟩ := by
  have built : empty.pushAll tokens = ⟨[] ++ tokens⟩ := pushAll_of_compact compact
  exact built

theorem pushAll_append (line : Line) (tokens others : List Token) :
    line.pushAll (tokens ++ others) = (line.pushAll tokens).pushAll others :=
  List.foldl_append

/-- Two tokens that can be joined may be pushed as the one that they make. -/
theorem push_push_of_join? {first second joined : Token}
    (join : first.join? second = some joined) (first_solid : first.isVoid = false)
    (second_solid : second.isVoid = false) (line : Line) :
    (line.push first).push second = line.push joined := by
  rw [push_of_solid first_solid, push_of_solid second_solid,
    push_of_solid (Token.isVoid_of_join? join first_solid second_solid),
    pushToken_pushToken join]

/-- A token may be pushed before or after the line is put behind another one. -/
theorem extend_push {other : Line} (solid : other.Solid) (line : Line)
    (token : Token) :
    line.extend (other.push token) = (line.extend other).push token := by
  cases void : token.isVoid with
  | true => rw [push_of_isVoid void, push_of_isVoid void]
  | false =>
      obtain ⟨tokens⟩ := other
      rw [push_of_solid void, extend, extend]
      rcases tokens.eq_nil_or_concat' with rfl | ⟨front, last, rfl⟩
      · rfl
      · rw [pushToken_append_singleton]
        cases join : last.join? token with
        | none =>
            have apart : pushToken [last] token = [last] ++ [token] := by
              simp [pushToken, join]
            rw [apart, ← List.append_assoc, pushAll_append]
            rfl
        | some joined =>
            have last_solid : last.isVoid = false := solid last (by simp)
            have joined_solid := Token.isVoid_of_join? join last_solid void
            have one : pushToken [last] token = [joined] := by
              simp [pushToken, join]
            rw [one, pushAll_append, pushAll_append]
            exact (push_push_of_join? join last_solid void _).symm

/-- Tokens may be pushed before or after the line is put behind another one. -/
theorem extend_pushAll {other : Line} (solid : other.Solid) (line : Line)
    (tokens : List Token) :
    line.extend (other.pushAll tokens) = (line.extend other).pushAll tokens := by
  induction tokens generalizing other with
  | nil => rfl
  | cons token rest ih =>
      have later := ih (solid_push solid token)
      rw [extend_push solid] at later
      exact later

end Line

end CaretReport

import CaretReport.Escape

/-!
# Tokens of terminal output

A line of output consists of runs of text and of control sequences between
them.  Sequences that select a style or a link keep their content; all others
are only recognised.  What remains of a broken sequence is text.
-/

namespace CaretReport

/-- A part of a line of output. -/
inductive OutputToken where
  | run (text : List Char)
  | style (parameters : List Char)
  | link (target : List Char)
  | charset
  | other
deriving DecidableEq, Repr

def inRange (first last : Char) (character : Char) : Bool :=
  decide (first ≤ character ∧ character ≤ last)

/-- The control sequence after `ESC [`: parameters, intermediate characters
and a final one.  It selects a style if the final character is `m`. -/
def afterBracket? (text : List Char) : Option (OutputToken × List Char) :=
  let afterParameters := text.dropWhile (inRange '0' '?')
  let parameters :=
    text.takeWhile (inRange '0' '?') ++
      afterParameters.takeWhile (inRange ' ' '/')
  match afterParameters.dropWhile (inRange ' ' '/') with
  | last :: rest =>
      if inRange '@' '~' last then
        some (if last = 'm' then .style parameters else .other, rest)
      else
        none
  | [] => none

/-- The text up to the first `ESC \`, and what follows that. -/
def untilTerminator? : List Char → Option (List Char × List Char)
  | first :: second :: rest =>
      if first = escapeChar ∧ second = '\\' then
        some ([], rest)
      else
        (untilTerminator? (second :: rest)).map fun (body, after) =>
          (first :: body, after)
  | _ => none

/-- The token of a command: `8;parameters;target` selects a link. -/
def commandToken : List Char → OutputToken
  | '8' :: ';' :: rest =>
      match rest.dropWhile (· != ';') with
      | _ :: target => .link target
      | [] => .other
  | _ => .other

/-- The command after `ESC ]`, which reaches up to `ESC \`. -/
def afterCommand? (text : List Char) : Option (OutputToken × List Char) :=
  (untilTerminator? text).map fun (body, rest) => (commandToken body, rest)

/-- Whether a character ends an escape sequence of two characters if it opens
no longer one. -/
def isShortEscape (character : Char) : Bool :=
  inRange '0' '?' character || inRange '@' 'Z' character ||
    inRange '\\' '_' character

/-- The sequence after `ESC` and the character that tells its kind. -/
def afterKind? (kind : Char) (rest : List Char) :
    Option (OutputToken × List Char) :=
  if kind = '[' then
    afterBracket? rest
  else if kind = '(' then
    some (.charset, rest)
  else if kind = ']' then
    some ((afterCommand? rest).getD (.other, rest))
  else if isShortEscape kind then
    some (.other, rest)
  else
    none

/-- The control sequence at the start of a text and what follows it, if the
text starts with one. -/
def control? : List Char → Option (OutputToken × List Char)
  | first :: kind :: rest =>
      if first = escapeChar then afterKind? kind rest else none
  | _ => none

theorem length_le_of_afterBracket? {text rest : List Char} {token : OutputToken}
    (found : afterBracket? text = some (token, rest)) :
    rest.length ≤ text.length := by
  have parametersShorter :=
    (List.dropWhile_sublist (inRange '0' '?') (l := text)).length_le
  have allShorter :=
    (List.dropWhile_sublist (inRange ' ' '/')
      (l := text.dropWhile (inRange '0' '?'))).length_le
  simp only [afterBracket?] at found
  split at found
  · rename_i last remaining dropped
    rw [dropped] at allShorter
    simp only [List.length_cons] at allShorter
    split at found
    · simp only [Option.some.injEq, Prod.mk.injEq] at found
      obtain ⟨_, rfl⟩ := found
      omega
    · simp at found
  · simp at found

theorem length_le_of_untilTerminator? {text body rest : List Char}
    (found : untilTerminator? text = some (body, rest)) :
    rest.length ≤ text.length := by
  fun_induction untilTerminator? text generalizing body rest with
  | case1 first second after closes =>
      simp only [Option.some.injEq, Prod.mk.injEq] at found
      obtain ⟨_, rfl⟩ := found
      simp only [List.length_cons]
      omega
  | case2 first second after closes ih =>
      obtain ⟨⟨inner, remaining⟩, innerFound, same⟩ :=
        Option.map_eq_some_iff.mp found
      simp only [Prod.mk.injEq] at same
      obtain ⟨_, rfl⟩ := same
      have shorter := ih innerFound
      simp only [List.length_cons] at shorter ⊢
      omega
  | case3 => simp at found

theorem length_le_of_afterCommand? {text rest : List Char} {token : OutputToken}
    (found : afterCommand? text = some (token, rest)) :
    rest.length ≤ text.length := by
  obtain ⟨⟨body, remaining⟩, bodyFound, same⟩ := Option.map_eq_some_iff.mp found
  simp only [Prod.mk.injEq] at same
  obtain ⟨_, rfl⟩ := same
  exact length_le_of_untilTerminator? bodyFound

theorem length_le_of_afterKind? {kind : Char} {text rest : List Char}
    {token : OutputToken} (found : afterKind? kind text = some (token, rest)) :
    rest.length ≤ text.length := by
  unfold afterKind? at found
  split at found
  · exact length_le_of_afterBracket? found
  · split at found
    · simp only [Option.some.injEq, Prod.mk.injEq] at found
      obtain ⟨_, rfl⟩ := found
      exact Nat.le_refl _
    · split at found
      · simp only [Option.some.injEq] at found
        cases command : afterCommand? text with
        | none =>
            simp only [command, Option.getD_none, Prod.mk.injEq] at found
            obtain ⟨_, rfl⟩ := found
            exact Nat.le_refl _
        | some result =>
            simp only [command, Option.getD_some] at found
            subst found
            exact length_le_of_afterCommand? command
      · split at found
        · simp only [Option.some.injEq, Prod.mk.injEq] at found
          obtain ⟨_, rfl⟩ := found
          exact Nat.le_refl _
        · simp at found

theorem length_lt_of_control? {text rest : List Char} {token : OutputToken}
    (found : control? text = some (token, rest)) :
    rest.length < text.length := by
  unfold control? at found
  split at found
  · split at found
    · have shorter := length_le_of_afterKind? found
      simp only [List.length_cons]
      omega
    · simp at found
  · simp at found

def prependChar (character : Char) : List OutputToken → List OutputToken
  | .run text :: rest => .run (character :: text) :: rest
  | tokens => .run [character] :: tokens

/-- What follows the selection of a character set: the character after it names
the set, unless a control sequence follows at once. -/
def afterCharset (rest : List Char) : List Char :=
  if (control? rest).isSome then rest else rest.drop 1

theorem length_afterCharset_le (rest : List Char) :
    (afterCharset rest).length ≤ rest.length := by
  unfold afterCharset
  split
  · exact Nat.le_refl _
  · simp only [List.length_drop]
    omega

def outputTokens (line : List Char) : List OutputToken :=
  match _found : control? line with
  | some (.charset, rest) => .charset :: outputTokens (afterCharset rest)
  | some (token, rest) => token :: outputTokens rest
  | none =>
      match line with
      | [] => []
      | character :: rest => prependChar character (outputTokens rest)
termination_by line.length
decreasing_by
  · exact Nat.lt_of_le_of_lt (length_afterCharset_le _)
      (length_lt_of_control? (by assumption))
  · exact length_lt_of_control? (by assumption)
  · simp

end CaretReport

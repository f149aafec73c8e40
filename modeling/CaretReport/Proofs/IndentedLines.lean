import CaretReport.Capacity
import CaretReport.Proofs.PiecewiseLines
import CaretReport.Proofs.Traversal

/-!
# Lines behind further blanks

A line that is put behind a number of blanks renders to these blanks and then to
what it renders to, although its own leading blanks are joined to them.  What is
pushed onto it goes behind the blanks as well, and a column of the line is one
further right by their number, so whatever is drawn on the line can be drawn on
the indented one.
-/

namespace CaretReport

namespace Line

/-- The line behind a number of blank columns. -/
def indent (line : Line) (count : Nat) : Line :=
  (empty.space count).extend line

/-- The width of the run of blanks that the line begins with. -/
def leadingBlanks (line : Line) : Int :=
  match line.tokens with
  | .space width :: _ => width
  | _ => 0

variable {line : Line} {count : Nat}

theorem space_empty {width : Int} (positive : 0 < width) :
    empty.space width = ⟨[.space width]⟩ := by
  rw [space, push_of_solid (Token.solid_space_iff.mpr positive)]
  rfl

/-- Blanks that follow each other are like as many blanks at once. -/
theorem space_space (line : Line) {first second : Int} (first_nonneg : 0 ≤ first)
    (second_nonneg : 0 ≤ second) :
    (line.space first).space second = line.space (first + second) :=
  push_push_of_cuts (.space first_nonneg second_nonneg) line

theorem indent_zero (compact : Compact line.tokens) : line.indent 0 = line :=
  ofTokens_of_compact compact

theorem compact_space_cons {width wider : Int} {rest : List Token}
    (compact : Compact (.space width :: rest)) (positive : 0 < wider) :
    Compact (.space wider :: rest) := by
  obtain ⟨_, rest_solid⟩ := List.forall_mem_cons.mp compact.solid
  refine ⟨List.forall_mem_cons.mpr ⟨?_, rest_solid⟩, ?_⟩
  · exact Token.solid_space_iff.mpr positive
  · obtain ⟨first, chain⟩ := List.isChain_cons.mp compact.apart
    refine List.isChain_cons.mpr ⟨fun next member => ?_, chain⟩
    have apart := first next member
    cases next <;> simp_all [Token.join?]

/-- Leading blanks are joined to the further ones, and behind other tokens
nothing changes. -/
theorem indent_cases (compact : Compact line.tokens) (positive : 0 < count) :
    (∃ width rest, 0 < width ∧ line.tokens = .space width :: rest ∧
      line.indent count = ⟨.space (count + width) :: rest⟩) ∨
    (line.leadingBlanks = 0 ∧ line.indent count = ⟨.space count :: line.tokens⟩) := by
  have wide : 0 < (count : Int) := Int.natCast_pos.mpr positive
  rw [indent, extend, leadingBlanks]
  cases tokens : line.tokens with
  | nil => exact Or.inr ⟨rfl, space_empty wide⟩
  | cons token rest =>
      rw [tokens] at compact
      cases join : (Token.space count).join? token with
      | none =>
          have unblank : ∀ width, token ≠ .space width := by
            rintro width rfl
            cases join
          right
          refine ⟨by cases token <;> simp_all, ?_⟩
          rw [space_empty wide]
          apply pushAll_of_compact
          have solid := Token.solid_space_iff.mpr wide
          exact ⟨List.forall_mem_cons.mpr ⟨solid, compact.solid⟩,
            List.isChain_cons_cons.mpr ⟨join, compact.apart⟩⟩
      | some joined =>
          left
          obtain ⟨_, width, same, rfl, rfl⟩ | ⟨_, _, nothing, _⟩ |
            ⟨_, _, nothing, _⟩ | ⟨nothing, _⟩ := Token.cases_of_join? join
          · cases same
            have shown : 0 < width :=
              Token.solid_space_iff.mp (compact.solid _ List.mem_cons_self)
            have both : 0 < count + width := by omega
            refine ⟨width, rest, shown, rfl, ?_⟩
            calc
              (empty.space count).pushAll (.space width :: rest) =
                  ((empty.space count).space width).pushAll rest := rfl
              _ = (Line.mk [.space (count + width)]).pushAll rest := by
                rw [space_space _ (by omega) (by omega), space_empty both]
              _ = ⟨.space (count + width) :: rest⟩ :=
                pushAll_of_compact (compact_space_cons compact both)
          all_goals cases nothing

/-- The blanks are rendered in front of the line. -/
theorem render_indent (compact : Compact line.tokens) (count : Nat) :
    (line.indent count).render = List.replicate count ' ' ++ line.render := by
  rcases Nat.eq_zero_or_pos count with rfl | positive
  · rw [indent_zero compact]
    rfl
  · rcases indent_cases compact positive with
      ⟨width, rest, shown, tokens, indented⟩ | ⟨_, indented⟩
    · have blanks := Token.replicate_toNat_add (Int.natCast_pos.mpr positive) shown ' '
      rw [Int.toNat_natCast] at blanks
      rw [indented, render, render, tokens, List.flatMap_cons, List.flatMap_cons,
        ← List.append_assoc]
      exact congrArg (· ++ _) blanks
    · rw [indented, render, render, List.flatMap_cons]
      rfl

theorem width_indent (compact : Compact line.tokens) (count : Nat) :
    (line.indent count).width = line.width + count := by
  rcases Nat.eq_zero_or_pos count with rfl | positive
  · rw [indent_zero compact]
    exact (Int.add_zero _).symm
  · rcases indent_cases compact positive with
      ⟨width, rest, _, tokens, indented⟩ | ⟨_, indented⟩
    · rw [indented, Line.width, Line.width, tokens, List.foldr_cons,
        List.foldr_cons, Token.width, Token.width]
      omega
    · rw [indented, Line.width, Line.width, List.foldr_cons, Token.width]
      omega

theorem leadingBlanks_le_of_check (writable : line.check = .ok ()) :
    line.leadingBlanks ≤ maxPosition := by
  rw [check, forM_eq_ok_iff] at writable
  unfold leadingBlanks
  split
  · rename_i width rest tokens
    rw [tokens] at writable
    have countable := (checkRun_eq_ok_iff width).mp
      (writable _ List.mem_cons_self)
    exact ((fitsWord_iff width).mp countable).2
  · decide

/-- The indented line can be written if the line could be and the blanks are
not too many. -/
theorem check_indent_iff (compact : Compact line.tokens) (count : Nat) :
    (line.indent count).check = .ok () ↔
      line.check = .ok () ∧ line.leadingBlanks + count ≤ maxPosition := by
  rcases Nat.eq_zero_or_pos count with rfl | positive
  · rw [indent_zero compact, Int.natCast_zero, Int.add_zero]
    exact (and_iff_left_of_imp leadingBlanks_le_of_check).symm
  · rw [check, check, forM_eq_ok_iff, forM_eq_ok_iff]
    rcases indent_cases compact positive with
      ⟨width, rest, shown, tokens, indented⟩ | ⟨unblank, indented⟩
    · have longer : 0 < count + width := by omega
      rw [indented, leadingBlanks, tokens, List.forall_mem_cons, List.forall_mem_cons,
        Token.check, Token.check, checkRun_eq_ok_iff_of_pos longer,
        checkRun_eq_ok_iff_of_pos shown, Int.add_comm width]
      constructor
      · rintro ⟨room, later⟩
        exact ⟨⟨by omega, later⟩, room⟩
      · rintro ⟨⟨_, later⟩, room⟩
        exact ⟨room, later⟩
    · rw [indented, unblank, Int.zero_add, List.forall_mem_cons, Token.check,
        checkRun_eq_ok_iff_of_pos (by omega)]
      exact and_comm

/-- The moved line is the line behind a number of further blanks. -/
structure Indents (count : Nat) (line moved : Line) : Prop where
  compact : Compact line.tokens
  moved_eq : moved = line.indent count

namespace Indents

variable {moved : Line} (indents : line.Indents count moved)

include indents

theorem push (token : Token) : (line.push token).Indents count (moved.push token) where
  compact := compact_push indents.compact token
  moved_eq := by
    rw [indents.moved_eq]
    exact (extend_push indents.compact.solid _ token).symm

theorem space (width : Int) : (line.space width).Indents count (moved.space width) :=
  indents.push _

/-- A column of the line is further right in the indented one. -/
theorem padTo (column : Int) :
    (line.padTo column).Indents count (moved.padTo (column + count)) := by
  have same : column + count - moved.width = column - line.width := by
    rw [indents.moved_eq, width_indent indents.compact]
    omega
  rw [Line.padTo, Line.padTo, same]
  exact indents.space _

theorem glyph (shape : Glyph) (style : Option Style) :
    (line.glyph shape style).Indents count (moved.glyph shape style) :=
  indents.push _

theorem rule (width : Int) (style : Option Style) :
    (line.rule width style).Indents count (moved.rule width style) := by
  unfold Line.rule
  split
  · exact indents
  · exact indents.push _

theorem reset : line.reset.Indents count moved.reset :=
  indents.push _

theorem extend (other : Line) :
    (line.extend other).Indents count (moved.extend other) where
  compact := compact_pushAll indents.compact other.tokens
  moved_eq := by
    rw [indents.moved_eq]
    exact (extend_pushAll indents.compact.solid _ other.tokens).symm

end Indents

/-- Blanks from the margin on are lengthened. -/
theorem indents_space_empty {column : Int} (nonneg : 0 ≤ column) (count : Nat) :
    (empty.space column).Indents count (empty.space (column + count)) where
  compact := compact_push compact_nil _
  moved_eq := by
    have pushed : (empty.space column).indent count =
        (empty.space count).space column :=
      extend_push compact_nil.solid _ _
    rw [pushed, space_space _ (by omega) nonneg, Int.add_comm]

end Line

end CaretReport

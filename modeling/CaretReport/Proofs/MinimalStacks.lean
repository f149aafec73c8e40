import CaretReport.Proofs.DisplayedStyles
import Mathlib.Data.List.Nodup

/-!
# The shortest stack with an effect

What a stack of styles does to a terminal depends on its last colour and on the
set of its emphases alone, in whatever state the terminal is.  A coalesced stack
holds just these, each of them once, so no shorter stack has the same effect.
And coalescing a part of a stack before the whole changes nothing, because the
colours that it drops would be dropped later, and the emphases that it drops
are there already.
-/

namespace CaretReport

section Parts

variable {stack styles others : List Style} {style : Style}

def emphasesOf (styles : List Style) : List Style :=
  styles.filter fun style => !style.isForeground

def colorsOf (styles : List Style) : List Style :=
  styles.filter Style.isForeground

theorem mem_emphasesOf {kind : Emphasis} :
    .emphasis kind ∈ emphasesOf styles ↔ .emphasis kind ∈ styles := by
  simp [emphasesOf, Style.isForeground]

@[simp]
theorem emphasesOf_emphasesOf (styles : List Style) :
    emphasesOf (emphasesOf styles) = emphasesOf styles := by
  simp [emphasesOf]

theorem colorsOf_eq_map (styles : List Style) :
    colorsOf styles = (styles.filterMap Style.ink?).map .foreground := by
  induction styles with
  | nil => rfl
  | cons style rest ih =>
      cases style with
      | foreground ink => exact congrArg (List.cons _) ih
      | emphasis kind => exact ih

/-- A nested colour drops the colours before it, so only the emphases of the
stack count. -/
theorem nestStyle_of_isForeground (colored : style.isForeground = true)
    (stack : List Style) : nestStyle stack style = emphasesOf stack ++ [style] :=
  if_pos colored

theorem nestStyle_of_emphasis (plain : style.isForeground = false)
    (stack : List Style) :
    nestStyle stack style = if style ∈ stack then stack else stack ++ [style] := by
  rw [nestStyle, plain, if_neg Bool.false_ne_true]

theorem emphasesOf_nestStyle (stack : List Style) (style : Style) :
    emphasesOf (nestStyle stack style) =
      (emphasesOf [style]).foldl nestStyle (emphasesOf stack) := by
  cases style with
  | foreground ink =>
      rw [nestStyle_of_isForeground rfl]
      simp [emphasesOf, Style.isForeground]
  | emphasis kind =>
      have alone : emphasesOf [Style.emphasis kind] = [.emphasis kind] := rfl
      rw [nestStyle_of_emphasis rfl, alone, List.foldl_cons, List.foldl_nil,
        nestStyle_of_emphasis rfl]
      simp only [mem_emphasesOf]
      split
      · rfl
      · exact List.filter_append ..

/-- The emphases of a stack are nested as if it held no colours. -/
theorem emphasesOf_foldl_nestStyle (stack styles : List Style) :
    emphasesOf (styles.foldl nestStyle stack) =
      (emphasesOf styles).foldl nestStyle (emphasesOf stack) := by
  induction styles generalizing stack with
  | nil => rfl
  | cons style rest ih =>
      have split : emphasesOf (style :: rest) =
          emphasesOf [style] ++ emphasesOf rest :=
        List.filter_append [style] rest
      rw [List.foldl_cons, ih, emphasesOf_nestStyle, split, List.foldl_append]

/-- Without colours, coalescing keeps the first of equal emphases. -/
theorem coalesceStyles_eq_eraseDups
    (plain : ∀ style ∈ styles, style.isForeground = false) :
    coalesceStyles styles = styles.eraseDups := by
  induction styles using List.reverseRecOn with
  | nil => rfl
  | append_singleton front style ih =>
      rw [List.forall_mem_append] at plain
      have last := plain.2 style (List.mem_singleton_self style)
      rw [coalesceStyles_append_singleton, ih plain.1, nestStyle_of_emphasis last,
        List.eraseDups_append]
      by_cases present : style ∈ front
      · simp [List.removeAll, present]
      · simp [List.removeAll, present, List.eraseDups_cons]

/-- The emphases of a coalesced stack are those of the stack, each once and in
the order of their first occurrences. -/
theorem emphasesOf_coalesceStyles (styles : List Style) :
    emphasesOf (coalesceStyles styles) = (emphasesOf styles).eraseDups := by
  have nested : emphasesOf (coalesceStyles styles) =
      coalesceStyles (emphasesOf styles) :=
    emphasesOf_foldl_nestStyle [] styles
  rw [nested, coalesceStyles_eq_eraseDups]
  intro style member
  simpa using (List.mem_filter.mp member).2

/-- The only colour of a coalesced stack is the last one of the stack. -/
theorem colorsOf_coalesceStyles (styles : List Style) :
    colorsOf (coalesceStyles styles) = (colorsOf styles).getLast?.toList := by
  induction styles using List.reverseRecOn with
  | nil => rfl
  | append_singleton front style ih =>
      rw [coalesceStyles_append_singleton]
      cases style with
      | foreground ink =>
          rw [nestStyle_of_isForeground rfl]
          simp [colorsOf, emphasesOf, Style.isForeground]
      | emphasis kind =>
          have unchanged : colorsOf (front ++ [.emphasis kind]) = colorsOf front := by
            simp [colorsOf, Style.isForeground]
          have nested : colorsOf (nestStyle (coalesceStyles front) (.emphasis kind)) =
              colorsOf (coalesceStyles front) := by
            rw [nestStyle_of_emphasis rfl]
            split
            · rfl
            · simp [colorsOf, Style.isForeground]
          rw [unchanged, nested, ih]

end Parts

section Stages

variable {stack styles : List Style}

/-- Two styles of which nesting the other one keeps the first. -/
def Style.KeptBeside (outer inner : Style) : Prop :=
  outer ≠ inner ∧ (outer.isForeground = true → inner.isForeground = false)

theorem pairwise_nestStyle (kept : stack.Pairwise Style.KeptBeside)
    (style : Style) : (nestStyle stack style).Pairwise Style.KeptBeside := by
  cases style with
  | foreground ink =>
      rw [nestStyle_of_isForeground rfl]
      refine List.pairwise_append.mpr
        ⟨kept.sublist List.filter_sublist, List.pairwise_singleton _ _, ?_⟩
      intro outer member inner same
      obtain rfl := List.mem_singleton.mp same
      have plain : outer.isForeground = false := by
        simpa using (List.mem_filter.mp member).2
      refine ⟨?_, fun colored => ?_⟩
      · rintro rfl
        cases plain
      · rw [plain] at colored
        cases colored
  | emphasis kind =>
      rw [nestStyle_of_emphasis rfl]
      split
      · exact kept
      · rename_i absent
        refine List.pairwise_append.mpr ⟨kept, List.pairwise_singleton _ _, ?_⟩
        intro outer member inner same
        obtain rfl := List.mem_singleton.mp same
        exact ⟨ne_of_mem_of_not_mem member absent, fun _ => rfl⟩

theorem pairwise_coalesceStyles (styles : List Style) :
    (coalesceStyles styles).Pairwise Style.KeptBeside := by
  induction styles using List.reverseRecOn with
  | nil => exact List.Pairwise.nil
  | append_singleton front style ih =>
      rw [coalesceStyles_append_singleton]
      exact pairwise_nestStyle ih style

/-- Where nothing is replaced or repeated, coalescing changes nothing. -/
theorem coalesceStyles_of_pairwise (kept : stack.Pairwise Style.KeptBeside) :
    coalesceStyles stack = stack := by
  induction stack using List.reverseRecOn with
  | nil => rfl
  | append_singleton front style ih =>
      obtain ⟨front_kept, _, beside⟩ := List.pairwise_append.mp kept
      have last (outer : Style) (member : outer ∈ front) : outer.KeptBeside style :=
        beside outer member style (List.mem_singleton_self style)
      rw [coalesceStyles_append_singleton, ih front_kept]
      cases style with
      | foreground ink =>
          have plain : emphasesOf front = front := by
            rw [emphasesOf, List.filter_eq_self]
            intro outer member
            cases colored : outer.isForeground with
            | false => rfl
            | true => cases (last outer member).2 colored
          rw [nestStyle_of_isForeground rfl, plain]
      | emphasis kind =>
          have absent : Style.emphasis kind ∉ front := fun member =>
            (last _ member).1 rfl
          rw [nestStyle_of_emphasis rfl, if_neg absent]

theorem coalesceStyles_coalesceStyles (styles : List Style) :
    coalesceStyles (coalesceStyles styles) = coalesceStyles styles :=
  coalesceStyles_of_pairwise (pairwise_coalesceStyles styles)

theorem coalesceStyles_append (styles others : List Style) :
    coalesceStyles (styles ++ others) =
      others.foldl nestStyle (coalesceStyles styles) :=
  List.foldl_append

/-- The outer part of a stack may be coalesced first. -/
theorem coalesceStyles_coalesce_append (styles others : List Style) :
    coalesceStyles (coalesceStyles styles ++ others) =
      coalesceStyles (styles ++ others) := by
  rw [coalesceStyles_append, coalesceStyles_append, coalesceStyles_coalesceStyles]

theorem mem_nestStyle {kind : Emphasis} {style : Style} :
    .emphasis kind ∈ nestStyle stack style ↔
      .emphasis kind ∈ stack ∨ .emphasis kind = style := by
  cases style with
  | foreground ink =>
      rw [nestStyle_of_isForeground rfl]
      simp [mem_emphasesOf]
  | emphasis other =>
      rw [nestStyle_of_emphasis rfl]
      split
      · rename_i present
        refine ⟨Or.inl, ?_⟩
        rintro (member | same)
        · exact member
        · rw [same]
          exact present
      · simp

theorem mem_foldl_nestStyle {kind : Emphasis} (stack styles : List Style) :
    .emphasis kind ∈ styles.foldl nestStyle stack ↔
      .emphasis kind ∈ stack ∨ .emphasis kind ∈ styles := by
  induction styles generalizing stack with
  | nil => simp
  | cons style rest ih => rw [List.foldl_cons, ih, mem_nestStyle, List.mem_cons, or_assoc]

/-- Nesting the styles of a coalesced stack is nesting those of the stack. -/
theorem foldl_nestStyle_coalesceStyles (stack styles : List Style) :
    (coalesceStyles styles).foldl nestStyle stack =
      styles.foldl nestStyle stack := by
  induction styles using List.reverseRecOn with
  | nil => rfl
  | append_singleton front style ih =>
      rw [coalesceStyles_append_singleton, List.foldl_append, List.foldl_cons,
        List.foldl_nil, ← ih]
      cases style with
      | foreground ink =>
          -- Of what is nested before a colour only the emphases are left.
          rw [nestStyle_of_isForeground rfl, List.foldl_append, List.foldl_cons,
            List.foldl_nil, nestStyle_of_isForeground rfl,
            nestStyle_of_isForeground rfl, emphasesOf_foldl_nestStyle,
            emphasesOf_foldl_nestStyle, emphasesOf_emphasesOf]
      | emphasis kind =>
          rw [nestStyle_of_emphasis rfl]
          split
          · rename_i present
            have nested : .emphasis kind ∈
                (coalesceStyles front).foldl nestStyle stack :=
              (mem_foldl_nestStyle _ _).mpr (Or.inr present)
            rw [nestStyle_of_emphasis rfl, if_pos nested]
          · exact List.foldl_append

/-- The inner part of a stack may be coalesced first. -/
theorem coalesceStyles_append_coalesce (styles others : List Style) :
    coalesceStyles (styles ++ coalesceStyles others) =
      coalesceStyles (styles ++ others) := by
  rw [coalesceStyles_append, coalesceStyles_append, foldl_nestStyle_coalesceStyles]

end Stages

namespace Pen

/-- The pen on which all that was selected on another one is selected as well. -/
def overlay (pen top : Pen) : Pen :=
  { pen with
    foreground := top.foreground.or pen.foreground
    switched :=
      if top.switched = [] then
        pen.switched
      else
        PenAttribute.table fun kind =>
          (top.switched.lookup kind).or (pen.switched.lookup kind) }

variable (pen top : Pen)

theorem switched_overlay :
    (pen.overlay top).switched =
      if top.switched = [] then
        pen.switched
      else
        PenAttribute.table fun kind =>
          (top.switched.lookup kind).or (pen.switched.lookup kind) :=
  rfl

theorem lookup_overlay (kind : PenAttribute) :
    (pen.overlay top).switched.lookup kind =
      (top.switched.lookup kind).or (pen.switched.lookup kind) := by
  rw [switched_overlay]
  split
  · rename_i untouched
    rw [untouched]
    rfl
  · rw [PenAttribute.lookup_table]

/-- A style that is selected on the upper pen is selected on both. -/
theorem apply_overlay (style : Style) :
    (pen.overlay top).apply style.penChange =
      pen.overlay (top.apply style.penChange) := by
  cases style with
  | foreground ink => rfl
  | emphasis kind =>
      have touched : (top.switch kind.attribute true).switched ≠ [] := by
        intro nothing
        have found := top.lookup_switch kind.attribute kind.attribute true
        rw [nothing, if_pos rfl] at found
        cases found
      have settings : (fun other => if other = kind.attribute then some true
          else (pen.overlay top).switched.lookup other) = fun other =>
            ((top.switch kind.attribute true).switched.lookup other).or
              (pen.switched.lookup other) := by
        funext other
        rw [lookup_switch, lookup_overlay]
        split <;> rfl
      have switched : ((pen.overlay top).switch kind.attribute true).switched =
          (pen.overlay (top.switch kind.attribute true)).switched := by
        rw [switched_switch, settings, switched_overlay, if_neg touched]
      exact (Pen.mk.injEq ..).mpr ⟨switched, rfl, rfl, rfl⟩

/-- The sequences of styles select on any pen what they select on the default
one. -/
theorem applyAll_penChange (styles : List Style) :
    pen.applyAll (styles.map Style.penChange) = pen.overlay (ofStyles styles) := by
  induction styles using List.reverseRecOn with
  | nil => rfl
  | append_singleton front style ih =>
      rw [List.map_append, applyAll_append, ih, ← apply_penChange, ← apply_overlay]
      rfl

end Pen

theorem Writes.after_unique {pen after other : Pen} {text : List Char}
    {cells others : List Cell} (writes : Writes pen text cells after)
    (again : Writes pen text others other) : after = other := by
  have same := writes.display_eq.symm.trans again.display_eq
  exact (Prod.mk.inj (Except.ok.inj same)).2

/-- Written in order, the sequences of both stacks show nothing and take a
terminal from any state to the same one. -/
def SameEffect (styles others : List Style) : Prop :=
  ∀ pen : Pen, ∃ after, Writes pen (styles.flatMap Style.escape) [] after ∧
    Writes pen (others.flatMap Style.escape) [] after

/-- Stacks that select the same on the default pen do so on any pen. -/
theorem sameEffect_iff {styles others : List Style} :
    SameEffect styles others ↔ Pen.ofStyles styles = Pen.ofStyles others := by
  constructor
  · intro same
    obtain ⟨after, first, second⟩ := same (Pen.ofStyles [])
    exact ((writes_styles [] styles).after_unique first).trans
      (second.after_unique (writes_styles [] others))
  · intro same pen
    refine ⟨pen.overlay (Pen.ofStyles styles), ?_, ?_⟩
    · rw [← Pen.applyAll_penChange]
      exact writes_escapes pen styles
    · rw [same, ← Pen.applyAll_penChange]
      exact writes_escapes pen others

theorem sameEffect_coalesceStyles (styles : List Style) :
    SameEffect (coalesceStyles styles) styles :=
  sameEffect_iff.mpr (Pen.ofStyles_append_coalesceStyles [] styles)

/-- A stack with the effect of another one holds all styles that coalescing
keeps of that one. -/
theorem mem_of_sameEffect {styles others : List Style}
    (same : SameEffect others styles) {style : Style}
    (member : style ∈ coalesceStyles styles) : style ∈ others := by
  obtain ⟨colors, emphases⟩ := Pen.ofStyles_eq_iff.mp (sameEffect_iff.mp same)
  cases style with
  | emphasis kind =>
      have kept := (Pen.ofStyles_eq_iff.mp
        (sameEffect_iff.mp (sameEffect_coalesceStyles styles))).2
      exact (emphases kind).mpr ((kept kind).mp member)
  | foreground ink =>
      have colored : Style.foreground ink ∈ colorsOf (coalesceStyles styles) :=
        List.mem_filter.mpr ⟨member, rfl⟩
      rw [colorsOf_coalesceStyles, colorsOf_eq_map, List.getLast?_map, ← colors,
        Option.mem_toList, ← List.getLast?_map, ← colorsOf_eq_map] at colored
      exact List.mem_of_mem_filter (List.mem_of_getLast? colored)

theorem length_coalesceStyles_le {styles others : List Style}
    (same : SameEffect others styles) :
    (coalesceStyles styles).length ≤ others.length := by
  have distinct : (coalesceStyles styles).Nodup :=
    (pairwise_coalesceStyles styles).imp And.left
  exact distinct.length_le_of_subset fun _ member => mem_of_sameEffect same member

/-- Coalescing gives a shortest stack with the effect of the stack.  Of its
colours it keeps the last one and of equal emphases the first, and any part of a
stack may be coalesced before the whole. -/
theorem coalesceStyles_minimizes (styles : List Style) :
    SameEffect (coalesceStyles styles) styles ∧
      colorsOf (coalesceStyles styles) = (colorsOf styles).getLast?.toList ∧
      emphasesOf (coalesceStyles styles) = (emphasesOf styles).eraseDups ∧
      (∀ others, SameEffect others styles →
        (coalesceStyles styles).length ≤ others.length) ∧
      (∀ others, coalesceStyles (coalesceStyles styles ++ others) =
          coalesceStyles (styles ++ others) ∧
        coalesceStyles (styles ++ coalesceStyles others) =
          coalesceStyles (styles ++ others)) ∧
      coalesceStyles (coalesceStyles styles) = coalesceStyles styles :=
  ⟨sameEffect_coalesceStyles styles, colorsOf_coalesceStyles styles,
    emphasesOf_coalesceStyles styles, fun _ => length_coalesceStyles_le,
    fun others => ⟨coalesceStyles_coalesce_append styles others,
      coalesceStyles_append_coalesce styles others⟩,
    coalesceStyles_coalesceStyles styles⟩

example :
    let red := Style.foreground (.palette ⟨.red, false⟩)
    let bright := Style.foreground (.palette ⟨.red, true⟩)
    let bold := Style.emphasis .bold
    let underline := Style.emphasis .underline
    coalesceStyles [red, bold, bright, underline, bold] =
      [bold, bright, underline] := by
  decide

end CaretReport

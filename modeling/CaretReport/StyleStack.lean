import CaretReport.Style

/-!
# Stacks of styles

Styles nest, and the innermost one is listed last.  A stack is coalesced into
the fewest styles with the same effect: a later colour replaces an earlier
one, and a repeated emphasis keeps only its first occurrence.
-/

namespace CaretReport

def nestStyle (stack : List Style) (style : Style) : List Style :=
  if style.isForeground then
    stack.filter (fun other => !other.isForeground) ++ [style]
  else if style ∈ stack then
    stack
  else
    stack ++ [style]

def coalesceStyles (styles : List Style) : List Style :=
  styles.foldl nestStyle []

theorem coalesceStyles_append_singleton (styles : List Style) (style : Style) :
    coalesceStyles (styles ++ [style]) =
      nestStyle (coalesceStyles styles) style := by
  simp [coalesceStyles]

end CaretReport

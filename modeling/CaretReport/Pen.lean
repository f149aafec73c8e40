import CaretReport.Escape
import CaretReport.PenAttribute
import CaretReport.PenColor
import CaretReport.Separated

/-!
# The pen of a terminal

A terminal writes with a pen: attributes that were switched on or off, a
foreground and a background colour, and a link, each as selected since the last
reset.  Later selections replace earlier ones of the same kind.
-/

namespace CaretReport

/-- The link of a pen.  A link that was closed differs from one that was never
opened. -/
inductive PenLink where
  | untouched
  | closed
  | opened (target : List Char)
deriving DecidableEq, Repr

/-- The style that a terminal writes in.  The switched attributes stand in the
order in which they are described. -/
structure Pen where
  switched : List (PenAttribute × Bool) := []
  foreground : Option PenColor := none
  background : Option PenColor := none
  link : PenLink := .untouched
deriving DecidableEq, Repr

/-- A change of the pen. -/
inductive PenChange where
  | reset
  | switch (kind : PenAttribute) (on : Bool)
  | foreground (color : PenColor)
  | background (color : PenColor)
deriving DecidableEq, Repr

namespace PenChange

/-- The changes that a code makes by itself; a code without a meaning for the
pen makes none. -/
def ofCode (code : Nat) : List PenChange :=
  if code = 0 then
    [.reset]
  else
    match PenColor.ofCode? PenColor.foregroundBase code,
        PenColor.ofCode? PenColor.backgroundBase code with
    | some color, _ => [.foreground color]
    | none, some color => [.background color]
    | none, none =>
        (PenAttribute.switches code).map fun (kind, on) => .switch kind on

/-- The colour that codes describe by its index or its channels, if they
describe one, and the codes after the description.  A description that is cut
short takes all codes. -/
def describedColor? : List Nat → Option PenColor × List Nat
  | [] => (none, [])
  | kind :: rest =>
      if kind = 5 then
        match rest with
        | index :: others => (some (.indexed index), others)
        | [] => (none, [])
      else if kind = 2 then
        match rest with
        | red :: green :: blue :: others =>
            (some (.rgb (.ofValues red green blue)), others)
        | _ => (none, [])
      else
        (none, rest)

theorem length_describedColor?_le (codes : List Nat) :
    (describedColor? codes).2.length ≤ codes.length := by
  unfold describedColor?
  split
  · simp
  · split
    · split
      · simp only [List.length_cons]
        omega
      · simp
    · split
      · split
        · simp only [List.length_cons]
          omega
        · simp
      · simp

def ofCodes : List Nat → List PenChange
  | [] => []
  | code :: rest =>
      if code = 38 then
        (describedColor? rest).1.toList.map .foreground ++
          ofCodes (describedColor? rest).2
      else if code = 48 then
        (describedColor? rest).1.toList.map .background ++
          ofCodes (describedColor? rest).2
      else
        ofCode code ++ ofCodes rest
termination_by codes => codes.length
decreasing_by
  all_goals
    have shorter := length_describedColor?_le rest
    simp only [List.length_cons]
    omega

/-- A code that opens no description of a colour stands for itself. -/
theorem ofCodes_singleton {code : Nat} (foreground : code ≠ 38)
    (background : code ≠ 48) : ofCodes [code] = ofCode code := by
  rw [ofCodes, if_neg foreground, if_neg background, ofCodes, List.append_nil]

end PenChange

namespace Pen

def default : Pen := {}

def switch (pen : Pen) (kind : PenAttribute) (on : Bool) : Pen :=
  { pen with
    switched := PenAttribute.all.filterMap fun other =>
      if other = kind then
        some (other, on)
      else
        (pen.switched.lookup other).map fun setting => (other, setting) }

def apply (pen : Pen) : PenChange → Pen
  | .reset => default
  | .switch kind on => pen.switch kind on
  | .foreground color => { pen with foreground := some color }
  | .background color => { pen with background := some color }

def applyAll (pen : Pen) (changes : List PenChange) : Pen :=
  changes.foldl apply pen

/-- The pen with a link; an empty target closes the link. -/
def withLink (pen : Pen) (target : List Char) : Pen :=
  { pen with link := if target = [] then .closed else .opened target }

def isActive (pen : Pen) : Bool :=
  decide (pen ≠ default)

def linkText : PenLink → Option (List Char)
  | .opened target => some ("link ".toList ++ target)
  | _ => none

def switchText (kind : PenAttribute) (on : Bool) : List Char :=
  (if on then [] else "not ".toList) ++ kind.name.toList

/-- The description of a pen: its attributes, its colours and its link. -/
def describe (pen : Pen) : List Char :=
  let parts :=
    pen.switched.map (fun (kind, on) => switchText kind on) ++
      pen.foreground.toList.map PenColor.name ++
      pen.background.toList.map (fun color => "on ".toList ++ color.name) ++
      (linkText pen.link).toList
  if parts = [] then "none".toList else joinWithChar ' ' parts

/-- The codes that select the pen from its default: those of the attributes
that are on, then those of its colours. -/
def codes (pen : Pen) : List Nat :=
  (pen.switched.filter Prod.snd).map (fun setting => setting.1.code) ++
    pen.foreground.toList.flatMap (PenColor.codes PenColor.foregroundBase) ++
    pen.background.toList.flatMap (PenColor.codes PenColor.backgroundBase)

@[simp] theorem applyAll_append (pen : Pen) (first second : List PenChange) :
    pen.applyAll (first ++ second) = (pen.applyAll first).applyAll second :=
  List.foldl_append

end Pen

end CaretReport

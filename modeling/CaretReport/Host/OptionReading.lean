import CaretReport.ConfigReading
import CaretReport.Host.OptionNumeral
import CaretReport.Position
import CaretReport.Separated

/-!
# Options as the host validates them

The validation of options that is used when the program runs; the theorems about
options hold of others too.  Every field is read, and all fields that fail are
reported together with the place and the kind of each fault.
-/

namespace CaretReport

/-- What is wrong with a field. -/
inductive FieldFault where
  | tooSmall
  | noInteger
  | unreadableInteger
  | tooLarge
  | fractional
  | notFinite
  | noTruthValue
  | unreadableTruthValue
  | unknownChoice
  | noTable
  | unknownField
  | immutable
deriving DecidableEq, Repr

def FieldFault.code : FieldFault → String
  | .tooSmall => "greater_than_equal"
  | .noInteger => "int_type"
  | .unreadableInteger => "int_parsing"
  | .tooLarge => "int_parsing_size"
  | .fractional => "int_from_float"
  | .notFinite => "finite_number"
  | .noTruthValue => "bool_type"
  | .unreadableTruthValue => "bool_parsing"
  | .unknownChoice => "enum"
  | .noTable => "model_type"
  | .unknownField => "extra_forbidden"
  | .immutable => "frozen_instance"

/-- A fault and the path to the field that has it. -/
structure FieldError where
  path : List (List Char)
  fault : FieldFault
deriving DecidableEq, Repr

namespace FieldError

def location (error : FieldError) : List Char :=
  joinWithChar '.' error.path

def under (name : List Char) (error : FieldError) : FieldError :=
  { error with path := name :: error.path }

/-- Errors are listed in the order of their locations, character by
character. -/
def notAfter (error other : FieldError) : Bool :=
  !List.lex other.location error.location fun character next =>
    decide (character.toNat < next.toNat)

end FieldError

/-- The result of reading: a value, or the errors of all fields that fail. -/
abbrev Reading (α : Type) := Except (List FieldError) α

namespace Reading

def fail {α : Type} (fault : FieldFault) : Reading α :=
  .error [⟨[], fault⟩]

/-- A function and its argument, read side by side; the errors of both are
kept. -/
def apply {α β : Type} : Reading (α → β) → Reading α → Reading β
  | .ok function, .ok argument => .ok (function argument)
  | .ok _, .error errors => .error errors
  | .error errors, .ok _ => .error errors
  | .error errors, .error others => .error (errors ++ others)

theorem apply_eq_ok_iff {Source Target : Type}
    {function : Reading (Source → Target)} {argument : Reading Source}
    {result : Target} : function.apply argument = .ok result ↔
      ∃ make value, function = .ok make ∧ argument = .ok value ∧
        make value = result := by
  cases function <;> cases argument <;> simp [apply]

end Reading

/-- The value read from a named field, or a default if there is none. -/
def readField {α : Type} (fields : Fields) (name : String) (default : α)
    (read : Value → Reading α) : Reading α :=
  match fields.lookup name.toList with
  | none => .ok default
  | some value => (read value).mapError (List.map (FieldError.under name.toList))

/-- A check that no field has a name beyond the known ones. -/
def readNoOthers (fields : Fields) (known : List String) : Reading Unit :=
  let others := fields.filter fun entry =>
    !known.any fun name => name.toList = entry.1
  if others = [] then
    .ok ()
  else
    .error (others.map fun entry => ⟨[entry.1], .unknownField⟩)

def NumeralFault.fieldFault : NumeralFault → FieldFault
  | .malformed => .unreadableInteger
  | .tooLong => .tooLarge

/-- The integer that a floating-point number stands for.  It has to fit a machine
word, and may not be the least one. -/
def integerOfFloat : Binary64 → Reading Int
  | .finite negative significand exponent =>
      match (Binary64.finite negative significand exponent).toInteger? with
      | some number =>
          if fitsWord number ∧ fitsWord (number - 1) then
            .ok number
          else
            .fail .tooLarge
      | none => .fail .fractional
  | _ => .fail .notFinite

def readInteger : Value → Reading Int
  | .bool flag => .ok (if flag then 1 else 0)
  | .int number => .ok number
  | .float number => integerOfFloat number
  | .text content =>
      match optionInteger content with
      | .ok number => .ok number
      | .error fault => .fail fault.fieldFault
  | _ => .fail .noInteger

abbrev AtLeast (bound : Nat) := { number : Nat // bound ≤ number }

/-- The natural number that a value stands for, if it is not below a bound. -/
def readAtLeast (bound : Nat) (value : Value) : Reading (AtLeast bound) := do
  let number ← readInteger value
  if large : (bound : Int) ≤ number then
    .ok ⟨number.toNat, by omega⟩
  else
    .fail .tooSmall

def readNatural (value : Value) : Reading Nat :=
  (readAtLeast 0 value).map Subtype.val

/-- The words for true and for false; case does not matter. -/
def truthWords : List (String × Bool) :=
  [("0", false), ("off", false), ("f", false), ("false", false), ("n", false),
    ("no", false), ("1", true), ("on", true), ("t", true), ("true", true),
    ("y", true), ("yes", true)]

def truthOfInteger (number : Int) : Reading Bool :=
  if number = 0 then
    .ok false
  else if number = 1 then
    .ok true
  else
    .fail .unreadableTruthValue

/-- The truth value that a value stands for.  A number that fits no machine
word is of the wrong kind; one that fits is misread unless it is zero or
one. -/
def readTruth : Value → Reading Bool
  | .bool flag => .ok flag
  | .int number =>
      if fitsWord number then
        truthOfInteger number
      else
        .fail .noTruthValue
  | .float number =>
      match integerOfFloat number with
      | .ok integer => truthOfInteger integer
      | .error _ => .fail .noTruthValue
  | .text content =>
      let word := content.map Char.toLower
      match truthWords.find? fun entry => entry.1.toList = word with
      | some (_, flag) => .ok flag
      | none => .fail .unreadableTruthValue
  | _ => .fail .noTruthValue

def readChoice {α : Type} (items : List α) (name : α → String)
    (value : Value) : Reading α :=
  match chooseByName? items name value with
  | some item => .ok item
  | none => .fail .unknownChoice

def readTable {α : Type} (read : Fields → Reading α) : Value → Reading α
  | .table fields => read fields
  | _ => .fail .noTable

def TrimPadding.ofFields (fields : Fields) : Reading TrimPadding :=
  let make := fun (_ : Unit) (before after : Nat) =>
    ({ before, after } : TrimPadding)
  let default : TrimPadding := {}
  (Reading.apply (.ok make) (readNoOthers fields ["before", "after"]))
    |>.apply (readField fields "before" default.before readNatural)
    |>.apply (readField fields "after" default.after readNatural)

def Layout.ofFields (fields : Fields) : Reading Layout :=
  let make := fun (_ : Unit) (arrowPadding childIndent : Nat) =>
    ({ arrowPadding, childIndent } : Layout)
  let default : Layout := {}
  let known := ["arrow_padding", "child_indent"]
  (Reading.apply (.ok make) (readNoOthers fields known))
    |>.apply (readField fields "arrow_padding" default.arrowPadding readNatural)
    |>.apply (readField fields "child_indent" default.childIndent readNatural)

namespace Config

def fieldNames : List String :=
  ["max_label_width", "max_child_label_width", "show_range_suffix", "trim_input",
    "trim_mode", "trim_padding", "colorize_echoed_input", "enable_caret_color",
    "out_of_bounds_policy", "split_on_equal_start", "layout"]

def ofExactFields (fields : Fields) : Reading Config :=
  let default : Config := {}
  let make := fun (_ : Unit) (width childWidth : AtLeast 1)
      (showRangeSuffix trimInput : Bool) (trimMode : TrimMode)
      (trimPadding : TrimPadding)
      (colorizeEchoedInput enableCaretColor : Bool)
      (boundsPolicy : BoundsPolicy) (splitOnEqualStart : Bool)
      (layout : Layout) =>
    ({ maxLabelWidth := width.val
       maxChildLabelWidth := childWidth.val
       showRangeSuffix, trimInput, trimMode, trimPadding, colorizeEchoedInput
       enableCaretColor, boundsPolicy, splitOnEqualStart, layout
       maxLabelWidth_pos := width.property
       maxChildLabelWidth_pos := childWidth.property } : Config)
  (Reading.apply (.ok make) (readNoOthers fields fieldNames))
    |>.apply (readField fields "max_label_width"
      ⟨default.maxLabelWidth, default.maxLabelWidth_pos⟩ (readAtLeast 1))
    |>.apply (readField fields "max_child_label_width"
      ⟨default.maxChildLabelWidth, default.maxChildLabelWidth_pos⟩
      (readAtLeast 1))
    |>.apply (readField fields "show_range_suffix" default.showRangeSuffix
      readTruth)
    |>.apply (readField fields "trim_input" default.trimInput readTruth)
    |>.apply (readField fields "trim_mode" default.trimMode
      (readChoice TrimMode.all TrimMode.name))
    |>.apply (readField fields "trim_padding" default.trimPadding
      (readTable TrimPadding.ofFields))
    |>.apply (readField fields "colorize_echoed_input"
      default.colorizeEchoedInput readTruth)
    |>.apply (readField fields "enable_caret_color" default.enableCaretColor
      readTruth)
    |>.apply (readField fields "out_of_bounds_policy" default.boundsPolicy
      (readChoice BoundsPolicy.all BoundsPolicy.name))
    |>.apply (readField fields "split_on_equal_start" default.splitOnEqualStart
      readTruth)
    |>.apply (readField fields "layout" default.layout
      (readTable Layout.ofFields))

end Config

end CaretReport

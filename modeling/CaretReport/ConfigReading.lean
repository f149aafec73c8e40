import CaretReport.Config
import CaretReport.Value

/-!
# Reading options from plain data

Options are given as a table of plain values.  The width of child messages
follows the width of messages if it is not given, and a padding may be given as
a pair; both are put right in the table.  The table is then validated: values
are read as the types of their options, and options that are missing have their
defaults.  The rules of that belong to a validation library, so everything here
takes the validation as a parameter.
-/

namespace CaretReport

abbrev Fields := List (List Char × Value)

/-- How a table describes options, or what is wrong with it. -/
abbrev Validation (Fault : Type) := Fields → Except Fault Config

/-- The width of child messages that follows from the width of messages. -/
def derivedChildWidth (width : Int) : Int :=
  max (width - childWidthReduction) 1

/-- The fields with the width of child messages filled in.  It is derived if it
is missing, or nothing, and the width of messages is an integer or missing. -/
def fillChildWidth (fields : Fields) : Fields :=
  match fields.lookup "max_child_label_width".toList with
  | some .null | none =>
      let others := fields.filter fun entry =>
        decide (entry.1 ≠ "max_child_label_width".toList)
      let width := fields.lookup "max_label_width".toList
      match width.getD (.int defaultLabelWidth) with
      | .int number =>
          ("max_child_label_width".toList, .int (derivedChildWidth number)) :: others
      | _ => others
  | some _ => fields

/-- Why a mapping describes no options. -/
inductive MappingError (Fault : Type) where
  | paddingPair
  | fields (fault : Fault)
deriving DecidableEq

def paddingPairMessage : String :=
  "trim_padding expects a [before, after] pair"

/-- The fields with the padding, if it is given as a list, put into a table.  The
list has to be a pair. -/
def expandPadding? (fields : Fields) : Option Fields :=
  match fields.lookup "trim_padding".toList with
  | some (.list [before, after]) =>
      let padding : Value :=
        .table [("before".toList, before), ("after".toList, after)]
      some (fields.map fun entry =>
        if entry.1 = "trim_padding".toList then (entry.1, padding) else entry)
  | some (.list _) => none
  | _ => some fields

namespace Config

variable {Fault : Type} (validate : Validation Fault)

def ofFields (fields : Fields) : Except Fault Config :=
  validate (fillChildWidth fields)

/-- The options that a mapping describes; its padding may be given as a
pair. -/
def ofMapping (fields : Fields) : Except (MappingError Fault) Config :=
  match expandPadding? fields with
  | some expanded => (ofFields validate expanded).mapError .fields
  | none => .error .paddingPair

end Config

end CaretReport

import CaretReport.Value

/-!
# Choices by name

Some options are one of a few named items.  A value chooses an item by its
exact name, and no value other than a text chooses any.
-/

namespace CaretReport

/-- Why a value names none of the items of a kind. -/
inductive ChoiceError where
  | unknown (kind : String) (shown : List Char)
  | number (cause : NumberError)
deriving DecidableEq, Repr

def ChoiceError.message : ChoiceError → String
  | .unknown kind shown => String.ofList shown ++ s!" is not a valid {kind}"
  | .number cause => cause.message

def chooseByName? {α : Type} (items : List α) (name : α → String) :
    Value → Option α
  | .text content => items.find? fun item => (name item).toList = content
  | _ => none

def chooseByName {α : Type} (kind : String) (items : List α)
    (name : α → String) (value : Value) : Except ChoiceError α :=
  match chooseByName? items name value with
  | some item => .ok item
  | none => do
      (Value.checkShown [value]).mapError .number
      throw (.unknown kind value.shown)

end CaretReport

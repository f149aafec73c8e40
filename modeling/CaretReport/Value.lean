import CaretReport.Binary64
import CaretReport.IntegerText

/-!
# Plain values

Options and span spellings arrive as plain data: nothing, a truth value, a
number, a text, a list or a table.  This module shows such values in messages
and reads integers from them.
-/

namespace CaretReport

/-- A plain value. -/
inductive Value where
  | null
  | bool (flag : Bool)
  | int (number : Int)
  | float (number : Binary64)
  | text (content : List Char)
  | list (items : List Value)
  | table (fields : List (List Char × Value))
deriving Inhabited

namespace Value

mutual

def shown : Value → List Char
  | .null => "None".toList
  | .bool true => "True".toList
  | .bool false => "False".toList
  | .int number => intDecimal number
  | .float number => number.shown
  | .text content => quoted content
  | .list items => '[' :: shownItems items ++ [']']
  | .table fields => '\x7b' :: shownFields fields ++ ['\x7d']

def shownItems : List Value → List Char
  | [] => []
  | [item] => shown item
  | item :: rest => shown item ++ ',' :: ' ' :: shownItems rest

def shownFields : List (List Char × Value) → List Char
  | [] => []
  | [(name, value)] => quoted name ++ ':' :: ' ' :: shown value
  | (name, value) :: rest =>
      quoted name ++ ':' :: ' ' :: shown value ++ ',' :: ' ' :: shownFields rest

end

/-- The form of a tuple of values: a lone item is followed by a comma. -/
def shownTuple (items : List Value) : List Char :=
  match items with
  | [item] => '(' :: shown item ++ [',', ')']
  | _ => '(' :: shownItems items ++ [')']

mutual

/-- The integers that are written out when a value is shown. -/
def integers : Value → List Int
  | .int number => [number]
  | .list items => integersOfItems items
  | .table fields => integersOfFields fields
  | _ => []

def integersOfItems : List Value → List Int
  | [] => []
  | item :: rest => integers item ++ integersOfItems rest

def integersOfFields : List (List Char × Value) → List Int
  | [] => []
  | (_, value) :: rest => integers value ++ integersOfFields rest

end

/-- A check that values can be shown. -/
def checkShown (items : List Value) : Except NumberError Unit :=
  if (integersOfItems items).all isWritable then
    .ok ()
  else
    .error .tooLongToWrite

/-- The integer that a value stands for: a truth value is one or zero, a
floating-point number is cut off towards zero, and a text is read. -/
def toInteger : Value → Except NumberError Int
  | .null => .error (.wrongKind "NoneType")
  | .bool flag => .ok (if flag then 1 else 0)
  | .int number => .ok number
  | .float number =>
      match number, number.truncate? with
      | _, some integer => .ok integer
      | .infinite _, none => .error .infinite
      | _, none => .error .notANumber
  | .text content => integerOfText content
  | .list _ => .error (.wrongKind "list")
  | .table _ => .error (.wrongKind "dict")

def isOne : Value → Bool
  | .bool flag => flag
  | .int number => number = 1
  | .float number => number.toInteger? = some 1
  | _ => false

end Value

end CaretReport

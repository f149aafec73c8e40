import CaretReport.Printable

/-!
# Quoted text

Messages quote a text between single quotes, or between double quotes when it
holds single quotes and no double quote.  Within the quotes the quote itself,
the backslash and every unprintable character are escaped.
-/

namespace CaretReport

def hexDigit (value : Nat) : Char :=
  Nat.digitChar (value % 16)

/-- The last `count` hexadecimal digits of a number. -/
def hexDigits : Nat → Nat → List Char
  | 0, _ => []
  | count + 1, number => hexDigits count (number / 16) ++ [hexDigit number]

/-- The escape of an unprintable character: the shortest of the three widths
that its code point fits. -/
def codePointEscape (code : Nat) : List Char :=
  if code < 0x100 then
    '\\' :: 'x' :: hexDigits 2 code
  else if code < 0x10000 then
    '\\' :: 'u' :: hexDigits 4 code
  else
    '\\' :: 'U' :: hexDigits 8 code

def quotedChar (quote character : Char) : List Char :=
  if character = quote ∨ character = '\\' then
    ['\\', character]
  else if character = '\n' then
    ['\\', 'n']
  else if character = '\r' then
    ['\\', 'r']
  else if character = '\t' then
    ['\\', 't']
  else if isPrintable character then
    [character]
  else
    codePointEscape character.toNat

def quoteFor (text : List Char) : Char :=
  if '\'' ∈ text ∧ '"' ∉ text then '"' else '\''

def quoted (text : List Char) : List Char :=
  let quote := quoteFor text
  quote :: text.flatMap (quotedChar quote) ++ [quote]

end CaretReport

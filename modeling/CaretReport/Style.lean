import CaretReport.IntegerText

/-!
# Text styles

A style is a foreground colour or an emphasis such as bold, and a foreground
colour belongs to the sixteen-colour palette or has 24 bits.  Every palette
colour also stands for a fixed 24-bit colour, so that the colour of a caret can
be taken from the style of a message.
-/

namespace CaretReport

/-- The eight base hues of the palette. -/
inductive Hue where
  | black
  | red
  | green
  | yellow
  | blue
  | magenta
  | cyan
  | white
deriving DecidableEq, Repr

namespace Hue

def all : List Hue :=
  [black, red, green, yellow, blue, magenta, cyan, white]

def index : Hue → Nat
  | black => 0
  | red => 1
  | green => 2
  | yellow => 3
  | blue => 4
  | magenta => 5
  | cyan => 6
  | white => 7

def ofIndex? (index : Nat) : Option Hue :=
  all[index]?

def name : Hue → String
  | black => "black"
  | red => "red"
  | green => "green"
  | yellow => "yellow"
  | blue => "blue"
  | magenta => "magenta"
  | cyan => "cyan"
  | white => "white"

@[simp] theorem ofIndex?_index (hue : Hue) : ofIndex? hue.index = some hue := by
  cases hue <;> rfl

theorem index_of_ofIndex? {index : Nat} {hue : Hue}
    (found : ofIndex? index = some hue) : hue.index = index := by
  obtain ⟨small, rfl⟩ := List.getElem?_eq_some_iff.mp found
  have each : ∀ position : Fin Hue.all.length,
      (Hue.all.get position).index = position := by
    decide
  exact each ⟨index, small⟩

theorem index_lt (hue : Hue) : hue.index < 8 := by
  cases hue <;> decide

theorem index_injective {hue other : Hue} (same : hue.index = other.index) :
    hue = other := by
  have found := congrArg ofIndex? same
  rwa [ofIndex?_index, ofIndex?_index, Option.some.injEq] at found

end Hue

/-- A 24-bit colour. -/
structure Rgb where
  red : Fin 256
  green : Fin 256
  blue : Fin 256
deriving DecidableEq, Repr

/-- Why channel values make no colour. -/
inductive ColorError where
  | channel (value : Int)
deriving DecidableEq, Repr

def ColorError.message : ColorError → String
  | .channel value =>
      wordedWith [value] s!"colour channel out of range: {value}"

namespace Rgb

def channel? (value : Int) : Except ColorError (Fin 256) :=
  if fits : 0 ≤ value ∧ value ≤ 255 then
    .ok ⟨value.toNat, by omega⟩
  else
    .error (.channel value)

/-- The channel that holds a value; a value above 255 counts as 255. -/
def channelOf (value : Nat) : Fin 256 :=
  ⟨min value 255, by omega⟩

def ofValues (red green blue : Nat) : Rgb :=
  ⟨channelOf red, channelOf green, channelOf blue⟩

/-- The colour with the given channels; the first one that does not fit is
reported. -/
def ofChannels? (red green blue : Int) : Except ColorError Rgb := do
  let red ← channel? red
  let green ← channel? green
  let blue ← channel? blue
  return ⟨red, green, blue⟩

@[simp] theorem channel?_val (value : Fin 256) :
    channel? (value.val : Int) = .ok value := by
  have bound := value.isLt
  simp only [channel?]
  split
  · rfl
  · omega

@[simp] theorem ofChannels?_channels (color : Rgb) :
    ofChannels? (color.red.val : Int) color.green.val color.blue.val =
      .ok color := by
  simp only [ofChannels?, channel?_val]
  rfl

@[simp] theorem channelOf_val (value : Fin 256) :
    channelOf value.val = value := by
  have bound := value.isLt
  apply Fin.ext
  simp only [channelOf]
  omega

@[simp] theorem ofValues_channels (color : Rgb) :
    ofValues color.red color.green color.blue = color := by
  simp [ofValues]

end Rgb

/-- A colour of the sixteen-colour palette. -/
structure PaletteColor where
  hue : Hue
  bright : Bool
deriving DecidableEq, Repr

namespace PaletteColor

/-- The palette: the base colours, then the bright ones. -/
def all : List PaletteColor :=
  Hue.all.map (⟨·, false⟩) ++ Hue.all.map (⟨·, true⟩)

/-- The foreground code of a palette colour: 30 to 37, or 90 to 97 when
bright. -/
def code (color : PaletteColor) : Nat :=
  (if color.bright then 90 else 30) + color.hue.index

def ofCode? (code : Nat) : Option PaletteColor :=
  if 30 ≤ code ∧ code ≤ 37 then
    (Hue.ofIndex? (code - 30)).map (⟨·, false⟩)
  else if 90 ≤ code ∧ code ≤ 97 then
    (Hue.ofIndex? (code - 90)).map (⟨·, true⟩)
  else
    none

def name (color : PaletteColor) : String :=
  (if color.bright then "bright_" else "") ++ color.hue.name

def toRgb : PaletteColor → Rgb
  | ⟨.black, false⟩ => ⟨12, 12, 12⟩
  | ⟨.red, false⟩ => ⟨197, 15, 12⟩
  | ⟨.green, false⟩ => ⟨19, 161, 14⟩
  | ⟨.yellow, false⟩ => ⟨193, 156, 0⟩
  | ⟨.blue, false⟩ => ⟨0, 55, 218⟩
  | ⟨.magenta, false⟩ => ⟨136, 23, 152⟩
  | ⟨.cyan, false⟩ => ⟨58, 150, 221⟩
  | ⟨.white, false⟩ => ⟨204, 204, 204⟩
  | ⟨.black, true⟩ => ⟨118, 118, 118⟩
  | ⟨.red, true⟩ => ⟨231, 72, 86⟩
  | ⟨.green, true⟩ => ⟨22, 198, 12⟩
  | ⟨.yellow, true⟩ => ⟨249, 241, 165⟩
  | ⟨.blue, true⟩ => ⟨59, 120, 255⟩
  | ⟨.magenta, true⟩ => ⟨180, 0, 255⟩
  | ⟨.cyan, true⟩ => ⟨97, 214, 214⟩
  | ⟨.white, true⟩ => ⟨242, 242, 242⟩

@[simp] theorem ofCode?_code (color : PaletteColor) :
    ofCode? color.code = some color := by
  rcases color with ⟨hue, bright⟩
  cases hue <;> cases bright <;> rfl

theorem code_of_ofCode? {code : Nat} {color : PaletteColor}
    (found : ofCode? code = some color) : color.code = code := by
  unfold ofCode? at found
  split at found
  · obtain ⟨hue, here, rfl⟩ := Option.map_eq_some_iff.mp found
    have index := Hue.index_of_ofIndex? here
    simp only [PaletteColor.code, Bool.false_eq_true, if_false]
    omega
  · split at found
    · obtain ⟨hue, here, rfl⟩ := Option.map_eq_some_iff.mp found
      have index := Hue.index_of_ofIndex? here
      simp only [PaletteColor.code, if_true]
      omega
    · cases found

end PaletteColor

/-- The ways of emphasising text. -/
inductive Emphasis where
  | bold
  | dim
  | italic
  | underline
  | blink
  | inverse
  | hidden
  | strikethrough
deriving DecidableEq, Repr

namespace Emphasis

def all : List Emphasis :=
  [bold, dim, italic, underline, blink, inverse, hidden, strikethrough]

/-- The code of an emphasis; six is no emphasis's code. -/
def code : Emphasis → Nat
  | bold => 1
  | dim => 2
  | italic => 3
  | underline => 4
  | blink => 5
  | inverse => 7
  | hidden => 8
  | strikethrough => 9

def ofCode? (code : Nat) : Option Emphasis :=
  all.find? fun emphasis => emphasis.code = code

def name : Emphasis → String
  | bold => "bold"
  | dim => "dim"
  | italic => "italic"
  | underline => "underline"
  | blink => "blink"
  | inverse => "inverse"
  | hidden => "hidden"
  | strikethrough => "strikethrough"

@[simp] theorem ofCode?_code (emphasis : Emphasis) :
    ofCode? emphasis.code = some emphasis := by
  cases emphasis <;> rfl

theorem code_of_ofCode? {code : Nat} {kind : Emphasis}
    (found : ofCode? code = some kind) : kind.code = code := by
  simpa using List.find?_some found

end Emphasis

/-- A foreground colour: one of the palette or a 24-bit one. -/
inductive Ink where
  | palette (color : PaletteColor)
  | rgb (color : Rgb)
deriving DecidableEq, Repr

namespace Ink

def toRgb : Ink → Rgb
  | .palette color => color.toRgb
  | .rgb color => color

def parameters : Ink → List Nat
  | .palette color => [color.code]
  | .rgb color => [38, 2, color.red, color.green, color.blue]

end Ink

/-- A style of a stretch of text: a foreground colour or an emphasis. -/
inductive Style where
  | foreground (ink : Ink)
  | emphasis (kind : Emphasis)
deriving DecidableEq, Repr

namespace Style

def isForeground : Style → Bool
  | .foreground _ => true
  | .emphasis _ => false

/-- The 24-bit colour that a style stands for; an emphasis stands for none. -/
def toRgb? : Style → Option Rgb
  | .foreground ink => some ink.toRgb
  | .emphasis _ => none

def ofCode? (code : Nat) : Option Style :=
  match PaletteColor.ofCode? code with
  | some color => some (.foreground (.palette color))
  | none => (Emphasis.ofCode? code).map .emphasis

def parameters : Style → List Nat
  | .foreground ink => ink.parameters
  | .emphasis kind => [kind.code]

/-- A code stands for the style that has it as its only parameter. -/
theorem ofCode?_eq_some_iff {code : Nat} {style : Style} :
    ofCode? code = some style ↔ style.parameters = [code] := by
  constructor
  · intro found
    unfold ofCode? at found
    split at found
    · rename_i color here
      obtain rfl := Option.some.inj found
      rw [parameters, Ink.parameters, PaletteColor.code_of_ofCode? here]
    · obtain ⟨kind, here, rfl⟩ := Option.map_eq_some_iff.mp found
      rw [parameters, Emphasis.code_of_ofCode? here]
  · intro single
    cases style with
    | foreground ink =>
        cases ink with
        | palette color =>
            obtain rfl : color.code = code := by
              simpa [parameters, Ink.parameters] using single
            simp [ofCode?]
        | rgb color => simp [parameters, Ink.parameters] at single
    | emphasis kind =>
        obtain rfl : kind.code = code := by simpa [parameters] using single
        have none_found : PaletteColor.ofCode? kind.code = none := by
          cases kind <;> rfl
        simp [ofCode?, none_found]

theorem parameters_ne_nil (style : Style) : style.parameters ≠ [] := by
  cases style with
  | foreground ink => cases ink <;> exact List.cons_ne_nil _ _
  | emphasis kind => exact List.cons_ne_nil _ _

theorem parameters_le (style : Style) :
    ∀ code ∈ style.parameters, code ≤ 255 := by
  cases style with
  | foreground ink =>
      cases ink with
      | palette color =>
          obtain ⟨hue, bright⟩ := color
          cases hue <;> cases bright <;> decide
      | rgb color =>
          have red := color.red.isLt
          have green := color.green.isLt
          have blue := color.blue.isLt
          intro code member
          simp only [parameters, Ink.parameters, List.mem_cons,
            List.not_mem_nil, or_false] at member
          omega
  | emphasis kind => cases kind <;> decide

end Style

end CaretReport

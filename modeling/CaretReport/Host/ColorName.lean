import CaretReport.LetterCase
import CaretReport.StyleName

/-!
# Colours as the host names them

The reader of colours that names of styles are given when the program runs; no
theorem rests on it.  A colour is named, indexed, or described by its channels
in hexadecimal or decimal form.  Terminals know 256 indexed colours: sixteen
system colours, a cube with six levels per channel, and a ramp of greys.  Many
of the indexed colours beyond the system colours have names.
-/

namespace CaretReport

def colorNames : List (String × Nat) :=
  [
    ("grey0", 16), ("gray0", 16), ("navy_blue", 17), ("dark_blue", 18), ("blue3", 20),
    ("blue1", 21), ("dark_green", 22), ("deep_sky_blue4", 25), ("dodger_blue3", 26),
    ("dodger_blue2", 27), ("green4", 28), ("spring_green4", 29), ("turquoise4", 30),
    ("deep_sky_blue3", 32), ("dodger_blue1", 33), ("green3", 40), ("spring_green3", 41),
    ("dark_cyan", 36), ("light_sea_green", 37), ("deep_sky_blue2", 38),
    ("deep_sky_blue1", 39), ("spring_green2", 47), ("cyan3", 43), ("dark_turquoise", 44),
    ("turquoise2", 45), ("green1", 46), ("spring_green1", 48), ("medium_spring_green", 49),
    ("cyan2", 50), ("cyan1", 51), ("dark_red", 88), ("deep_pink4", 125), ("purple4", 55),
    ("purple3", 56), ("blue_violet", 57), ("orange4", 94), ("grey37", 59), ("gray37", 59),
    ("medium_purple4", 60), ("slate_blue3", 62), ("royal_blue1", 63), ("chartreuse4", 64),
    ("dark_sea_green4", 71), ("pale_turquoise4", 66), ("steel_blue", 67),
    ("steel_blue3", 68), ("cornflower_blue", 69), ("chartreuse3", 76), ("cadet_blue", 73),
    ("sky_blue3", 74), ("steel_blue1", 81), ("pale_green3", 114), ("sea_green3", 78),
    ("aquamarine3", 79), ("medium_turquoise", 80), ("chartreuse2", 112),
    ("sea_green2", 83), ("sea_green1", 85), ("aquamarine1", 122), ("dark_slate_gray2", 87),
    ("dark_magenta", 91), ("dark_violet", 128), ("purple", 129), ("light_pink4", 95),
    ("plum4", 96), ("medium_purple3", 98), ("slate_blue1", 99), ("yellow4", 106),
    ("wheat4", 101), ("grey53", 102), ("gray53", 102), ("light_slate_grey", 103),
    ("light_slate_gray", 103), ("medium_purple", 104), ("light_slate_blue", 105),
    ("dark_olive_green3", 149), ("dark_sea_green", 108), ("light_sky_blue3", 110),
    ("sky_blue2", 111), ("dark_sea_green3", 150), ("dark_slate_gray3", 116),
    ("sky_blue1", 117), ("chartreuse1", 118), ("light_green", 120), ("pale_green1", 156),
    ("dark_slate_gray1", 123), ("red3", 160), ("medium_violet_red", 126),
    ("magenta3", 164), ("dark_orange3", 166), ("indian_red", 167), ("hot_pink3", 168),
    ("medium_orchid3", 133), ("medium_orchid", 134), ("medium_purple2", 140),
    ("dark_goldenrod", 136), ("light_salmon3", 173), ("rosy_brown", 138), ("grey63", 139),
    ("gray63", 139), ("medium_purple1", 141), ("gold3", 178), ("dark_khaki", 143),
    ("navajo_white3", 144), ("grey69", 145), ("gray69", 145), ("light_steel_blue3", 146),
    ("light_steel_blue", 147), ("yellow3", 184), ("dark_sea_green2", 157),
    ("light_cyan3", 152), ("light_sky_blue1", 153), ("green_yellow", 154),
    ("dark_olive_green2", 155), ("dark_sea_green1", 193), ("pale_turquoise1", 159),
    ("deep_pink3", 162), ("magenta2", 200), ("hot_pink2", 169), ("orchid", 170),
    ("medium_orchid1", 207), ("orange3", 172), ("light_pink3", 174), ("pink3", 175),
    ("plum3", 176), ("violet", 177), ("light_goldenrod3", 179), ("tan", 180),
    ("misty_rose3", 181), ("thistle3", 182), ("plum2", 183), ("khaki3", 185),
    ("light_goldenrod2", 222), ("light_yellow3", 187), ("grey84", 188), ("gray84", 188),
    ("light_steel_blue1", 189), ("yellow2", 190), ("dark_olive_green1", 192),
    ("honeydew2", 194), ("light_cyan1", 195), ("red1", 196), ("deep_pink2", 197),
    ("deep_pink1", 199), ("magenta1", 201), ("orange_red1", 202), ("indian_red1", 204),
    ("hot_pink", 206), ("dark_orange", 208), ("salmon1", 209), ("light_coral", 210),
    ("pale_violet_red1", 211), ("orchid2", 212), ("orchid1", 213), ("orange1", 214),
    ("sandy_brown", 215), ("light_salmon1", 216), ("light_pink1", 217), ("pink1", 218),
    ("plum1", 219), ("gold1", 220), ("navajo_white1", 223), ("misty_rose1", 224),
    ("thistle1", 225), ("yellow1", 226), ("light_goldenrod1", 227), ("khaki1", 228),
    ("wheat1", 229), ("cornsilk1", 230), ("grey100", 231), ("gray100", 231),
    ("grey3", 232), ("gray3", 232), ("grey7", 233), ("gray7", 233), ("grey11", 234),
    ("gray11", 234), ("grey15", 235), ("gray15", 235), ("grey19", 236), ("gray19", 236),
    ("grey23", 237), ("gray23", 237), ("grey27", 238), ("gray27", 238), ("grey30", 239),
    ("gray30", 239), ("grey35", 240), ("gray35", 240), ("grey39", 241), ("gray39", 241),
    ("grey42", 242), ("gray42", 242), ("grey46", 243), ("gray46", 243), ("grey50", 244),
    ("gray50", 244), ("grey54", 245), ("gray54", 245), ("grey58", 246), ("gray58", 246),
    ("grey62", 247), ("gray62", 247), ("grey66", 248), ("gray66", 248), ("grey70", 249),
    ("gray70", 249), ("grey74", 250), ("gray74", 250), ("grey78", 251), ("gray78", 251),
    ("grey82", 252), ("gray82", 252), ("grey85", 253), ("gray85", 253), ("grey89", 254),
    ("gray89", 254), ("grey93", 255), ("gray93", 255)]

def systemColors : List Rgb :=
  [
    .ofValues 0 0 0, .ofValues 128 0 0, .ofValues 0 128 0, .ofValues 128 128 0,
    .ofValues 0 0 128, .ofValues 128 0 128, .ofValues 0 128 128,
    .ofValues 192 192 192, .ofValues 128 128 128, .ofValues 255 0 0,
    .ofValues 0 255 0, .ofValues 255 255 0, .ofValues 0 0 255,
    .ofValues 255 0 255, .ofValues 0 255 255, .ofValues 255 255 255]

def cubeLevel (level : Nat) : Nat :=
  [0, 95, 135, 175, 215, 255].getD level 0

/-- The indexed colour with a given index, if the index is below 256. -/
def indexedColor? (index : Nat) : Option Rgb :=
  if index < 16 then
    systemColors[index]?
  else if index < 232 then
    let place := index - 16
    some (.ofValues (cubeLevel (place / 36)) (cubeLevel (place / 6 % 6))
      (cubeLevel (place % 6)))
  else if index < 256 then
    let level := 8 + 10 * (index - 232)
    some (.ofValues level level level)
  else
    none

def namedColor? (name : List Char) : Option Rgb :=
  match colorNames.find? fun entry => entry.1.toList = name with
  | some (_, index) => indexedColor? index
  | none => none

def hexValue? (character : Char) : Option Nat :=
  if character.isDigit then
    some (character.toNat - '0'.toNat)
  else if 'a' ≤ character ∧ character ≤ 'f' then
    some (character.toNat - 'a'.toNat + 10)
  else
    none

def hexChannel? (high low : Char) : Option Nat := do
  let high ← hexValue? high
  let low ← hexValue? low
  return 16 * high + low

/-- The colour `#rrggbb`. -/
def hexColor? : List Char → Option Rgb
  | ['#', redHigh, redLow, greenHigh, greenLow, blueHigh, blueLow] => do
      let red ← hexChannel? redHigh redLow
      let green ← hexChannel? greenHigh greenLow
      let blue ← hexChannel? blueHigh blueLow
      return .ofValues red green blue
  | _ => none

/-- What stands between the opening of a call such as `color(` and the closing
bracket that ends the text. -/
def callBody? (opening text : List Char) : Option (List Char) := do
  let rest ← Style.afterOpening? opening text
  if rest.getLast? = some ')' then some rest.dropLast else none

/-- The colour `color(index)`; the index has one to three ASCII digits. -/
def indexCall? (text : List Char) : Option Rgb := do
  let digits ← callBody? "color(".toList text
  if 1 ≤ digits.length ∧ digits.length ≤ 3 ∧ digits.all Char.isDigit then
    indexedColor? (Nat.ofDigitChars 10 digits 0)
  else
    none

/-- The three channel texts of `rgb(red,green,blue)`.  Between the brackets
only digits, blanks and commas may stand. -/
def channelCall? (text : List Char) :
    Option (List Char × List Char × List Char) := do
  let body ← callBody? "rgb(".toList text
  let admitted := fun character =>
    isDecimalDigit character || isBlank character || character == ','
  if body.all admitted then
    match splitAtChar ',' body with
    | [red, green, blue] => some (red, green, blue)
    | _ => none
  else
    none

/-- The 24-bit colour that a text in small letters describes, without its
channels in decimal form. -/
def describedColor? (text : List Char) : Option Rgb :=
  if text = "default".toList then
    some (.ofValues 0 0 0)
  else
    namedColor? text <|> hexColor? text <|> indexCall? text

/-- The colour that a text describes; case does not matter. -/
def readColor : ColorReader := fun description => do
  let text := lowerCase description
  match describedColor? text, channelCall? text with
  | some color, _ => return some color
  | none, some (red, green, blue) =>
      let red ← integerOfText red
      let green ← integerOfText green
      let blue ← integerOfText blue
      return (Rgb.ofChannels? red green blue).toOption
  | none, none => return none

end CaretReport

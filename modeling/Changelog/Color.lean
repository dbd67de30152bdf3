import Changelog.Number.Binary
import Changelog.Number.Hexadecimal
import Changelog.Text.Quoted

/-!
Colours, read from and written as pairs of hexadecimal digits.
-/

namespace Changelog

/-- Channels from 0 to 255; an alpha of 255 is opaque. -/
structure Color where
  red : UInt8
  green : UInt8
  blue : UInt8
  alpha : UInt8 := 255
deriving DecidableEq, Repr

namespace Color

def white : Color := ⟨255, 255, 255, 255⟩

/-- The colour of links under the pointer. -/
def mouseover : Color := ⟨255, 255, 178, 255⟩

/-- An opaque colour from channels between 0 and 1. Channels outside are moved into that range, and
halves are rounded up. -/
def ofUnit (red green blue : Float32) : Color :=
  ⟨channel red, channel green, channel blue, 255⟩
where
  channel (v : Float32) : UInt8 :=
    let v := if v < 0.0 then 0.0 else if 1.0 < v then 1.0 else v
    UInt8.ofNat ((Number.ofSingle (v * 255.0)).round?.getD 0).toNat

/-- A channel of two digits; a plus sign may take the place of a leading zero. -/
def channel? (high low : Char) : Option UInt8 := do
  let h ← if high = '+' then some 0 else Number.hexDigit? high
  let l ← Number.hexDigit? low
  return UInt8.ofNat (16 * h + l)

/-- Reads six or eight digits after an optional `#`. -/
def parse? (text : Text) : Option Color :=
  let digits := (Text.after? ['#'] text).getD text
  match digits with
  | [r₁, r₀, g₁, g₀, b₁, b₀] => do
    return ⟨← channel? r₁ r₀, ← channel? g₁ g₀, ← channel? b₁ b₀, 255⟩
  | [r₁, r₀, g₁, g₀, b₁, b₀, a₁, a₀] => do
    return ⟨← channel? r₁ r₀, ← channel? g₁ g₀, ← channel? b₁ b₀, ← channel? a₁ a₀⟩
  | _ => none

/-- The capital digit of a value below 16. -/
def digit (n : Nat) : Char :=
  if n < 10 then Char.ofNat ('0'.toNat + n) else Char.ofNat ('A'.toNat + (n - 10))

/-- Two capital digits. -/
def channelText (v : UInt8) : Text :=
  [digit (v.toNat / 16), digit (v.toNat % 16)]

/-- The canonical text: the alpha channel is left out of an opaque colour. -/
def toText (c : Color) : Text :=
  '#' :: channelText c.red ++ channelText c.green ++ channelText c.blue ++
    if c.alpha = 255 then [] else channelText c.alpha

end Color

/-- A text that is no colour. -/
structure InvalidColor where
  text : Text
deriving DecidableEq, Repr

def InvalidColor.message (e : InvalidColor) : String :=
  "invalid hex colour " ++ String.ofList (Text.quoted e.text) ++
    " (expected #RRGGBB or #RRGGBBAA)"

/-- Reads a colour, or hands the text back. -/
def Color.parse (text : Text) : Except InvalidColor Color :=
  match parse? text with
  | some c => .ok c
  | none => .error ⟨text⟩

end Changelog

import Changelog.Geometry
import Changelog.Number.Binary

/-!
Which picture of an animation is shown at which time.
-/

namespace Changelog.Animation

/-- The double-precision value as an integer, rounded down, in the range of a signed 64-bit word. -/
def floorWord (x : Float) : Int :=
  saturateSigned64 ((Number.Format.double.decode x.toBits.toNat).toInt Number.Binary.floor?)

/-- The number of pictures that time has passed by. Negative times and rates count as zero. -/
def tick (elapsed : Float) (fps : Int) : Int :=
  let elapsed := if 0.0 < elapsed then elapsed else 0.0
  floorWord (elapsed * Float.ofInt (max fps 0))

/-- The picture at a tick. A cycle shows the first picture for `delay` more ticks, and then each
picture for one tick. -/
def indexAtTick (tick : Int) (delay count : Nat) : Nat :=
  (min ((tick.emod (count + delay)) - delay) count).toNat

/-- The picture after a time in seconds; `none` if there are no pictures. A negative delay counts
as zero. -/
def frameIndex? (elapsed : Float) (fps delay : Int) (count : Nat) : Option Nat :=
  if count = 0 then none else some (indexAtTick (tick elapsed fps) delay.toNat count)

/-- The cell of a sprite sheet, which is read row by row, in coordinates from 0 to 1. -/
def spriteCell {α : Type} [Scalar α] (index columns rows : Nat) : Rect α :=
  let columns := max columns 1
  let rows := max rows 1
  let cell := index % (columns * rows)
  let width := Scalar.ofNat 1 / Scalar.ofNat columns
  let height := Scalar.ofNat 1 / Scalar.ofNat rows
  { x := Scalar.ofNat (cell % columns) * width
    y := Scalar.ofNat (cell / columns) * height
    width
    height }

end Changelog.Animation

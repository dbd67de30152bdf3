import Changelog.Drawing.Renderer
import Changelog.Format.Json

/-!
What was drawn as JSON, with the fields of every object in a fixed order.
-/

namespace Changelog

def Point.toJson (p : Point Float32) : Json :=
  .object [("x", .ofSingle p.x), ("y", .ofSingle p.y)]

def Rect.toJson (r : Rect Float32) : Json :=
  .object [("x", .ofSingle r.x), ("y", .ofSingle r.y), ("width", .ofSingle r.width),
    ("height", .ofSingle r.height)]

def Color.toJson (c : Color) : Json :=
  .object [("r", .ofNat c.red.toNat), ("g", .ofNat c.green.toNat), ("b", .ofNat c.blue.toNat),
    ("a", .ofNat c.alpha.toNat)]

namespace DrawOp

/-- Something drawn; its first field says what it is. -/
def toJson : DrawOp Float32 → Json
  | .text position content style =>
    .object [("op", .ofString "text"), ("pos", position.toJson), ("text", .string content),
      ("font", .string style.font.name), ("color", style.color.toJson), ("bold", .bool style.bold)]
  | .texture rect name source =>
    .object [("op", .ofString "texture"), ("rect", rect.toJson), ("name", .string name),
      ("uv", source.toJson)]
  | .line start stop color =>
    .object [("op", .ofString "line"), ("from", start.toJson), ("to", stop.toJson),
      ("color", color.toJson)]
  | .placeholder rect message =>
    .object [("op", .ofString "placeholder"), ("rect", rect.toJson), ("message", .string message)]
  | .tooltip rect content =>
    .object [("op", .ofString "tooltip"), ("rect", rect.toJson), ("text", .string content)]

end DrawOp

def LinkRegions.toJson (l : LinkRegions Float32) : Json :=
  .list (l.regions.map fun region =>
    .object [("rect", region.rect.toJson), ("url", .string region.url)])

def RenderOutput.toJson (o : RenderOutput Float32) : Json :=
  .object [("height", .ofSingle o.height), ("links", o.links.toJson)]

end Changelog

import VisualNovel.Scenario.Layout
import VisualNovel.Store

/-!
# Settings of the engine

How a game is played: its layout, where textures are looked up, whether scenarios
can be edited, and how fast text appears. They are fixed when the engine is made.
-/

namespace VisualNovel

/-- How a game is played. -/
structure Settings where
  layout : Layout
  lookup : TextureLookup
  editing : Bool
  animated : Bool
  textSpeed : UInt32
deriving DecidableEq, Repr

namespace Settings

/-- The slowest speed of text. -/
def minSpeed : UInt32 := 1

/-- The fastest speed of text. -/
def maxSpeed : UInt32 := 100

/-- The speed of text that nobody chose. -/
def defaultSpeed : UInt32 := 30

/-- The nearest speed within the limits. -/
def clampSpeed (speed : UInt32) : UInt32 :=
  if speed < minSpeed then minSpeed else if maxSpeed < speed then maxSpeed else speed

/-- Settings with a speed that is brought within the limits. -/
def make (layout : Layout) (lookup : TextureLookup) (editing animated : Bool) (speed : UInt32) :
    Settings :=
  ⟨layout, lookup, editing, animated, clampSpeed speed⟩

instance : Json.Codec Settings where
  encode s := .record
    [("layout", Json.encode s.layout), ("texture_lookup", Json.encode s.lookup),
      ("editor_mode", Json.encode s.editing), ("animated_text", Json.encode s.animated),
      ("text_speed", Json.encode s.textSpeed)]
  decode v := do
    let fs ← Json.Fields.of
      ["layout", "texture_lookup", "editor_mode", "animated_text", "text_speed"] v
    return {
      layout := ← fs.required "layout"
      lookup := ← fs.required "texture_lookup"
      editing := ← fs.required "editor_mode"
      animated := ← fs.required "animated_text"
      textSpeed := ← fs.required "text_speed" }

end Settings

end VisualNovel

import VisualNovel.Quartet
import VisualNovel.Scenario.Layout
import VisualNovel.Text.Blank

/-!
# Scenes

A scene is one screen of a visual novel: backdrop, music, a sound, four speakers
with their portraits and lines, the line of the main character, four choices and
an overlay. Whatever is absent is `none`. Who talks and which choices are open is
read off these fields and never stored beside them.
-/

namespace VisualNovel

/-- A part of a portrait; the whole body stands alone, the others are layered. -/
inductive PortraitPart where
  | body
  | left
  | right
  | head
deriving DecidableEq, Repr

namespace PortraitPart

/-- Whether a part exists in the advanced layout only. -/
def isLayered : PortraitPart → Bool
  | .body => false
  | _ => true

/-- The name that stands for a part. -/
def name : PortraitPart → String
  | .body => "body"
  | .left => "left"
  | .right => "right"
  | .head => "head"

instance : Json.Codec PortraitPart where
  encode p := .ofString p.name
  decode := Json.decodeName
    [("body", .body), ("left", .left), ("right", .right), ("head", .head)]

end PortraitPart

/-- A seat for someone other than the main character. -/
structure Speaker where
  name : Option String
  texture : Option String
  line : Option String
  textureLeft : Option String
  textureRight : Option String
  textureHead : Option String
deriving DecidableEq, Repr

namespace Speaker

/-- A seat that nobody takes. -/
def blank : Speaker := ⟨none, none, none, none, none, none⟩

/-- A speaker talks exactly if there is a line. -/
def talking (s : Speaker) : Bool := s.line.isSome

/-- Gives a line; a blank one is silence. -/
def setLine (s : Speaker) (text : String) : Speaker := { s with line := Text.nonBlank text }

/-- Whether the portrait is put together from parts. -/
def isLayered (s : Speaker) : Bool := s.textureLeft.isSome

/-- The texture of a part of the portrait. -/
def textureOf (s : Speaker) : PortraitPart → Option String
  | .body => s.texture
  | .left => s.textureLeft
  | .right => s.textureRight
  | .head => s.textureHead

/-- Gives a part of the portrait a texture, or takes it away. -/
def setTexture (s : Speaker) (part : PortraitPart) (texture : Option String) : Speaker :=
  match part with
  | .body => { s with texture }
  | .left => { s with textureLeft := texture }
  | .right => { s with textureRight := texture }
  | .head => { s with textureHead := texture }

/-- The textures to draw, from back to front: the three layers where the layout has
them and the left one is there, otherwise the body. -/
def portrait (s : Speaker) (layout : Layout) : List String :=
  if layout.isAdvanced && s.isLayered then
    [s.textureLeft, s.textureRight, s.textureHead].filterMap id
  else s.texture.toList

instance : Json.Codec Speaker where
  encode s := .record
    [("name", Json.encode s.name), ("texture", Json.encode s.texture),
      ("line", Json.encode s.line), ("texture_left", Json.encode s.textureLeft),
      ("texture_right", Json.encode s.textureRight), ("texture_head", Json.encode s.textureHead)]
  decode v := do
    let fs ← Json.Fields.of
      ["name", "texture", "line", "texture_left", "texture_right", "texture_head"] v
    return {
      name := ← fs.optional "name"
      texture := ← fs.optional "texture"
      line := ← fs.optional "line"
      textureLeft := ← fs.optional "texture_left"
      textureRight := ← fs.optional "texture_right"
      textureHead := ← fs.optional "texture_head" }

end Speaker

/-- Something the player can choose; it may lead to another scenario. -/
structure Choice where
  label : Option String
  target : Option String
deriving DecidableEq, Repr

namespace Choice

/-- A choice that is not offered. -/
def blank : Choice := ⟨none, none⟩

/-- A choice is offered exactly if it has a label. -/
def isPresent (c : Choice) : Bool := c.label.isSome

/-- Whether choosing it leads to another scenario. -/
def hasTarget (c : Choice) : Bool := c.target.isSome

instance : Json.Codec Choice where
  encode c := .record [("label", Json.encode c.label), ("target", Json.encode c.target)]
  decode v := do
    let fs ← Json.Fields.of ["label", "target"] v
    return { label := ← fs.optional "label", target := ← fs.optional "target" }

end Choice

/-- One screen of a visual novel. -/
structure Scene where
  background : Option String
  backgroundOverlay : Option String
  music : Option String
  sound : Option String
  speakers : Quartet Speaker
  mainLine : Option String
  choices : Quartet Choice
  overlay : Option String
deriving DecidableEq, Repr

namespace Scene

/-- A scene without anything in it. -/
def blank : Scene where
  background := none
  backgroundOverlay := none
  music := none
  sound := none
  speakers := .replicate .blank
  mainLine := none
  choices := .replicate .blank
  overlay := none

/-- Whether the scene ends in a menu of choices. -/
def hasChoices (s : Scene) : Bool := s.choices.toList.any Choice.isPresent

/-- The main character talks exactly if it has a line. -/
def mainTalking (s : Scene) : Bool := s.mainLine.isSome

/-- Whether anyone talks. -/
def anyoneTalking (s : Scene) : Bool := s.mainTalking || s.speakers.toList.any Speaker.talking

/-- Gives the main character a line; a blank one is silence. -/
def setMainLine (s : Scene) (text : String) : Scene := { s with mainLine := Text.nonBlank text }

/-- The main character's part of a scene as an object with its line. -/
def decodeMainLine (v : Json.Value) : Option (Option String) := do
  let fs ← Json.Fields.of ["line"] v
  fs.optional "line"

instance : Json.Codec Scene where
  encode s := .record
    [("background", Json.encode s.background),
      ("background_overlay", Json.encode s.backgroundOverlay),
      ("music", Json.encode s.music), ("sound", Json.encode s.sound),
      ("speakers", Json.encode s.speakers),
      ("main_character", .record [("line", Json.encode s.mainLine)]),
      ("buttons", Json.encode s.choices), ("overlay", Json.encode s.overlay)]
  decode v := do
    let fs ← Json.Fields.of
      ["background", "background_overlay", "music", "sound", "speakers", "main_character",
        "buttons", "overlay"] v
    return {
      background := ← fs.optional "background"
      backgroundOverlay := ← fs.optional "background_overlay"
      music := ← fs.optional "music"
      sound := ← fs.optional "sound"
      speakers := ← fs.required "speakers"
      mainLine := ← (fs.get? "main_character").bind decodeMainLine
      choices := ← fs.required "buttons"
      overlay := ← fs.optional "overlay" }

end Scene

end VisualNovel

import VisualNovel.Playback.Engine

/-!
# Frames

A frame says all that is to be seen and heard at a moment. It is made from the
engine at every tick of the clock, which also lets the text appear and writes
down what is said.
-/

namespace VisualNovel

/-- The portrait of a speaker. -/
structure Sprite where
  slot : Nat
  parts : List String
  focused : Bool
deriving DecidableEq, Repr

/-- A choice that is offered. -/
structure OfferedChoice where
  index : Nat
  label : String
deriving DecidableEq, Repr

/-- A sound to be heard once; the serial tells one visit of a scene from another. -/
structure SoundCue where
  name : String
  serial : Nat
deriving DecidableEq, Repr

/-- All that is to be seen and heard at a moment. -/
structure Frame where
  state : State
  serial : Nat
  background : Option String
  backgroundOverlay : Option String
  overlay : Option String
  sprites : List Sprite
  focus : Focus
  banner : String
  text : String
  choices : List OfferedChoice
  choicesOpen : Bool
  paused : Bool
  music : Option String
  sound : Option SoundCue
  status : Option String
  editing : Bool
deriving DecidableEq, Repr

instance : Json.Codec Sprite where
  encode s := .record
    [("slot", Json.encode s.slot), ("parts", Json.encode s.parts),
      ("focused", Json.encode s.focused)]
  decode v := do
    let fs ← Json.Fields.of ["slot", "parts", "focused"] v
    return {
      slot := ← fs.required "slot"
      parts := ← fs.required "parts"
      focused := ← fs.required "focused" }

instance : Json.Codec OfferedChoice where
  encode c := .record [("index", Json.encode c.index), ("label", Json.encode c.label)]
  decode v := do
    let fs ← Json.Fields.of ["index", "label"] v
    return { index := ← fs.required "index", label := ← fs.required "label" }

instance : Json.Codec SoundCue where
  encode c := .record [("name", Json.encode c.name), ("scene_serial", Json.encode c.serial)]
  decode v := do
    let fs ← Json.Fields.of ["name", "scene_serial"] v
    return { name := ← fs.required "name", serial := ← fs.required "scene_serial" }

namespace Frame

/-- The music of the menus. -/
def menuMusic : String := "menu_background"

/-- What is seen and heard outside a game. -/
def menu (state : State) (status : Option String) (editing : Bool) : Frame where
  state
  serial := 0
  background := none
  backgroundOverlay := none
  overlay := none
  sprites := []
  focus := .nobody
  banner := ""
  text := ""
  choices := []
  choicesOpen := false
  paused := false
  music := some menuMusic
  sound := none
  status
  editing

/-- Whether the music rests. -/
def musicPaused (f : Frame) : Bool := f.paused

/-- The names of the fields, in the order in which they are written. -/
def fieldNames : List String :=
  ["state", "scene_serial", "background", "background_overlay", "overlay", "sprites", "focus",
    "banner", "text", "buttons", "choice_menu_open", "paused", "music", "sound", "status", "editor"]

instance : Json.Codec Frame where
  encode f := .record
    [("state", Json.encode f.state), ("scene_serial", Json.encode f.serial),
      ("background", Json.encode f.background),
      ("background_overlay", Json.encode f.backgroundOverlay),
      ("overlay", Json.encode f.overlay), ("sprites", Json.encode f.sprites),
      ("focus", Json.encode f.focus), ("banner", Json.encode f.banner),
      ("text", Json.encode f.text), ("buttons", Json.encode f.choices),
      ("choice_menu_open", Json.encode f.choicesOpen), ("paused", Json.encode f.paused),
      ("music", Json.encode f.music), ("sound", Json.encode f.sound),
      ("status", Json.encode f.status), ("editor", Json.encode f.editing)]
  decode v := do
    let fs ← Json.Fields.of fieldNames v
    return {
      state := ← fs.required "state"
      serial := ← fs.required "scene_serial"
      background := ← fs.optional "background"
      backgroundOverlay := ← fs.optional "background_overlay"
      overlay := ← fs.optional "overlay"
      sprites := ← fs.required "sprites"
      focus := ← fs.required "focus"
      banner := ← fs.required "banner"
      text := ← fs.required "text"
      choices := ← fs.required "buttons"
      choicesOpen := ← fs.required "choice_menu_open"
      paused := ← fs.required "paused"
      music := ← fs.optional "music"
      sound := ← fs.optional "sound"
      status := ← fs.optional "status"
      editing := ← fs.required "editor" }

/-- The portrait of a speaker, if there is anything to draw. -/
def sprite? (layout : Layout) (focus : Focus) (slot : Nat) (speaker : Speaker) : Option Sprite :=
  match speaker.portrait layout with
  | [] => none
  | part :: parts => some ⟨slot, part :: parts, focus == .speaker slot⟩

/-- The portraits of a scene. -/
def spritesOf (layout : Layout) (focus : Focus) (scene : Scene) : List Sprite :=
  scene.speakers.toList.zipIdx.filterMap fun (speaker, slot) => sprite? layout focus slot speaker

/-- The choices of a scene that have a label. -/
def choicesOf (scene : Scene) : List OfferedChoice :=
  scene.choices.toList.zipIdx.filterMap fun (choice, index) =>
    choice.label.map fun label => ⟨index, label⟩

end Frame

namespace Engine

variable {τ : Type}

/-- What is seen and heard of a scene. -/
def sceneFrame (e : Engine τ) (scene : Scene) (d : Dialogue) : Frame where
  state := e.state
  serial := e.serial
  background := scene.background
  backgroundOverlay := if e.settings.layout.isAdvanced then scene.backgroundOverlay else none
  overlay := if e.settings.layout.isAdvanced then scene.overlay else none
  sprites := Frame.spritesOf e.settings.layout d.focus scene
  focus := d.focus
  banner := d.banner
  text := if e.settings.animated then e.reveal.visible d.text else d.text
  choices := if e.choicesOpen then Frame.choicesOf scene else []
  choicesOpen := e.choicesOpen
  paused := e.paused
  music := scene.music
  sound := scene.sound.map fun name => ⟨name, e.serial⟩
  status := e.status
  editing := e.settings.editing

/-- Lets the text of the scene appear for some time. -/
def revealText (e : Engine τ) (dt : Float32) (d : Dialogue) : Engine τ :=
  if e.settings.animated then
    { e with reveal := e.reveal.step d.text dt e.settings.textSpeed e.paused }
  else e

/-- Writes down what the scene says, once for each visit. -/
def recordDialogue (e : Engine τ) (now : Nat) (d : Dialogue) : Engine τ :=
  if !e.recorded && d.banner != "" && d.text != "" then
    { e with history := e.history.push (.dialogue d.banner d.text now), recorded := true }
  else e

/-- Lets some time pass and says what is to be seen and heard. -/
def tick (dt : Float32) (now : Nat) (e : Engine τ) : Engine τ × Frame :=
  match e.currentScene with
  | none => (e, .menu e.state e.status e.settings.editing)
  | some scene =>
    let d := Dialogue.ofScene scene e.player
    let e := (e.revealText dt d).recordDialogue now d
    (e, e.sceneFrame scene d)

end Engine

end VisualNovel

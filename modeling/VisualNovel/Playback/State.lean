import VisualNovel.Json.Codec

/-!
# States of playback

The player is in one of three menus or in a scene of a scenario. Whether a menu
of choices is open is not a state: it follows from the scene.
-/

namespace VisualNovel

/-- Where the player is. -/
inductive State where
  | mainMenu
  | scenarioSelect
  | saveSelect
  | playing (scenario : String) (scene : Nat)
deriving DecidableEq, Repr

namespace State

/-- Whether a scenario is being played. -/
def isPlaying : State → Bool
  | .playing _ _ => true
  | _ => false

/-- The index of the scene that is being played. -/
def scene? : State → Option Nat
  | .playing _ scene => some scene
  | _ => none

/-- The name of a state in messages. -/
def name : State → String
  | .mainMenu => "MainMenu"
  | .scenarioSelect => "ScenarioSelect"
  | .saveSelect => "SaveSelect"
  | .playing _ _ => "Playing"

/-- The fields of a playing state. -/
def decodePlaying (v : Json.Value) : Option State := do
  let fs ← Json.Fields.of ["scenario", "scene_index"] v
  return .playing (← fs.required "scenario") (← fs.required "scene_index")

instance : Json.Codec State where
  encode
    | .mainMenu => .ofString "MainMenu"
    | .scenarioSelect => .ofString "ScenarioSelect"
    | .saveSelect => .ofString "SaveSelect"
    | .playing scenario scene => .variant "Playing" (.record
        [("scenario", Json.encode scenario), ("scene_index", Json.encode scene)])
  decode v :=
    match v.variant? with
    | some ("Playing", some content) => decodePlaying content
    | _ => Json.decodeName
        [("MainMenu", .mainMenu), ("ScenarioSelect", .scenarioSelect), ("SaveSelect", .saveSelect)] v

end State

/-- A scene of a scenario together with the name of the player who is there. -/
structure Position where
  scenario : String
  player : String
  scene : Nat
deriving DecidableEq, Repr

instance : Json.Codec Position where
  encode p := .record
    [("scenario_name", Json.encode p.scenario), ("player_name", Json.encode p.player),
      ("scene_index", Json.encode p.scene)]
  decode v := do
    let fs ← Json.Fields.of ["scenario_name", "player_name", "scene_index"] v
    return {
      scenario := ← fs.required "scenario_name"
      player := ← fs.required "player_name"
      scene := ← fs.required "scene_index" }

end VisualNovel

import VisualNovel.Save
import VisualNovel.Scene

/-!
# Inputs

What a player, or the author of a scenario, asks the engine to do. Keys and
clicks have been turned into these requests before they arrive here.
-/

namespace VisualNovel

/-- A request to change the scenario that is being played. -/
inductive EditorInput where
  | selectScene (index : Nat)
  | appendBlankScene
  | duplicateScene
  | removeScene
  | setSpeakerLine (slot : Nat) (text : String)
  | setSpeakerName (slot : Nat) (name : String)
  | setMainLine (text : String)
  | setChoice (index : Nat) (label target : String)
  | setBackground (name : String)
  | setBackgroundOverlay (name : String)
  | setOverlay (name : String)
  | setMusic (name : String)
  | setSound (name : String)
  | setSpeakerTexture (slot : Nat) (part : PortraitPart) (name : String)
deriving DecidableEq, Repr

/-- A request to the engine. -/
inductive Input where
  | openScenarioSelect
  | openSaveSelect
  | back
  | startNewGame (scenario : Option String) (player : String)
  | loadSave (record : SaveRecord)
  | advance
  | activateChoice (index : Nat)
  | togglePause
  | exitToMainMenu
  | editor (input : EditorInput)
deriving DecidableEq, Repr

namespace EditorInput

/-- A request with one field that is called a name. -/
def decodeNamed (make : String → EditorInput) (v : Json.Value) : Option EditorInput := do
  let fs ← Json.Fields.of ["name"] v
  return make (← fs.required "name")

/-- The request with a given name and the value that belongs to it. -/
def decodeVariant (name : String) (v : Json.Value) : Option EditorInput :=
  match name with
  | "SelectScene" => do
    let fs ← Json.Fields.of ["index"] v
    return .selectScene (← fs.required "index")
  | "SetSpeakerLine" => do
    let fs ← Json.Fields.of ["slot", "text"] v
    return .setSpeakerLine (← fs.required "slot") (← fs.required "text")
  | "SetSpeakerName" => do
    let fs ← Json.Fields.of ["slot", "name"] v
    return .setSpeakerName (← fs.required "slot") (← fs.required "name")
  | "SetMainLine" => do
    let fs ← Json.Fields.of ["text"] v
    return .setMainLine (← fs.required "text")
  | "SetButton" => do
    let fs ← Json.Fields.of ["index", "label", "target"] v
    return .setChoice (← fs.required "index") (← fs.required "label") (← fs.required "target")
  | "SetBackground" => decodeNamed .setBackground v
  | "SetBackgroundOverlay" => decodeNamed .setBackgroundOverlay v
  | "SetOverlay" => decodeNamed .setOverlay v
  | "SetMusic" => decodeNamed .setMusic v
  | "SetSound" => decodeNamed .setSound v
  | "SetSpeakerTexture" => do
    let fs ← Json.Fields.of ["slot", "part", "name"] v
    return .setSpeakerTexture (← fs.required "slot") (← fs.required "part") (← fs.required "name")
  | _ => none

instance : Json.Codec EditorInput where
  encode
    | .selectScene index => .variant "SelectScene" (.record [("index", Json.encode index)])
    | .appendBlankScene => .ofString "AppendBlankScene"
    | .duplicateScene => .ofString "DuplicateScene"
    | .removeScene => .ofString "RemoveScene"
    | .setSpeakerLine slot text => .variant "SetSpeakerLine" (.record
        [("slot", Json.encode slot), ("text", Json.encode text)])
    | .setSpeakerName slot name => .variant "SetSpeakerName" (.record
        [("slot", Json.encode slot), ("name", Json.encode name)])
    | .setMainLine text => .variant "SetMainLine" (.record [("text", Json.encode text)])
    | .setChoice index label target => .variant "SetButton" (.record
        [("index", Json.encode index), ("label", Json.encode label),
          ("target", Json.encode target)])
    | .setBackground name => .variant "SetBackground" (.record [("name", Json.encode name)])
    | .setBackgroundOverlay name =>
      .variant "SetBackgroundOverlay" (.record [("name", Json.encode name)])
    | .setOverlay name => .variant "SetOverlay" (.record [("name", Json.encode name)])
    | .setMusic name => .variant "SetMusic" (.record [("name", Json.encode name)])
    | .setSound name => .variant "SetSound" (.record [("name", Json.encode name)])
    | .setSpeakerTexture slot part name => .variant "SetSpeakerTexture" (.record
        [("slot", Json.encode slot), ("part", Json.encode part), ("name", Json.encode name)])
  decode v := do
    let (name, content) ← v.variant?
    match name with
    | "AppendBlankScene" =>
      if Json.isBareVariant content then some .appendBlankScene else none
    | "DuplicateScene" => if Json.isBareVariant content then some .duplicateScene else none
    | "RemoveScene" => if Json.isBareVariant content then some .removeScene else none
    | _ => content.bind (decodeVariant name)

end EditorInput

namespace Input

/-- The request with a given name and the value that belongs to it. -/
def decodeVariant (name : String) (v : Json.Value) : Option Input :=
  match name with
  | "StartNewGame" => do
    let fs ← Json.Fields.of ["scenario", "player_name"] v
    return .startNewGame (← fs.optional "scenario") (← fs.required "player_name")
  | "LoadSave" => do
    let fs ← Json.Fields.of ["record"] v
    return .loadSave (← fs.required "record")
  | "ActivateButton" => do
    let fs ← Json.Fields.of ["index"] v
    return .activateChoice (← fs.required "index")
  | "Editor" => (Json.decode v).map .editor
  | _ => none

/-- The requests that are a name alone. -/
def bareNames : List (String × Input) :=
  [("OpenScenarioSelect", .openScenarioSelect), ("OpenSaveSelect", .openSaveSelect),
    ("Back", .back), ("Advance", .advance), ("TogglePause", .togglePause),
    ("ExitToMainMenu", .exitToMainMenu)]

instance : Json.Codec Input where
  encode
    | .openScenarioSelect => .ofString "OpenScenarioSelect"
    | .openSaveSelect => .ofString "OpenSaveSelect"
    | .back => .ofString "Back"
    | .startNewGame scenario player => .variant "StartNewGame" (.record
        [("scenario", Json.encode scenario), ("player_name", Json.encode player)])
    | .loadSave record => .variant "LoadSave" (.record [("record", Json.encode record)])
    | .advance => .ofString "Advance"
    | .activateChoice index => .variant "ActivateButton" (.record [("index", Json.encode index)])
    | .togglePause => .ofString "TogglePause"
    | .exitToMainMenu => .ofString "ExitToMainMenu"
    | .editor input => .variant "Editor" (Json.encode input)
  decode v :=
    match Json.decodeName bareNames v with
    | some input => some input
    | none => do
      let (name, content) ← v.variant?
      content.bind (decodeVariant name)

end Input

end VisualNovel

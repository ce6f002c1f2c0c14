import VisualNovel.Playback.Engine
import VisualNovel.Playback.Input

/-!
# The editor

An author changes the scenes of the scenario that is being played. Text is taken
only if it can be written to a scenario and read back, and an asset only if it
exists; otherwise the edit is refused before anything has changed.
-/

namespace VisualNovel.Engine

variable {τ : Type}

/-- Refuses text that a scenario could not hold. -/
def checkText (text : String) : Except Refusal Unit :=
  if text.toList.contains Scenario.separator then .error (.edit .separatorInText)
  else if text.toList.any fun c => c == '\n' || c == '\r' then .error (.edit .lineBreakInText)
  else if [Scenario.absent, Scenario.startMarker, Scenario.endMarker].contains (Text.trim text) then
    .error (.edit (.reservedText (Text.trim text)))
  else .ok ()

/-- The name of an existing texture, or nothing for a blank name. -/
def checkTexture (e : Engine τ) (name : String) : Except Refusal (Option String) := do
  checkText name
  match Text.trimmedNonBlank name with
  | none => return none
  | some name =>
    if (e.texture? (some name)).isNone then throw (.edit (.unknownTexture name))
    return some name

/-- The name of an existing track, or nothing for a blank name. -/
def checkTrack (e : Engine τ) (name : String) : Except Refusal (Option String) := do
  checkText name
  match Text.trimmedNonBlank name with
  | none => return none
  | some name =>
    unless e.catalog.contains name do throw (.edit (.unknownTrack name))
    return some name

/-- Refuses unless the layout is the advanced one. -/
def expectAdvanced (e : Engine τ) : Except Refusal Unit :=
  if e.settings.layout.isAdvanced then .ok () else .error (.edit .advancedOnly)

/-- Changes the list of scenes that is being edited. -/
def editScenes (e : Engine τ) (f : List Scene → List Scene) : Except Refusal (Engine τ) :=
  match e.active with
  | none => .error .noScenarioSelected
  | some i =>
    if (e.store.get? i).isNone then .error .noScenarioSelected
    else .ok { e with store := e.store.modifyScenes i f }

/-- Changes the scene at an index, unless the change itself is refused. -/
def editScene (e : Engine τ) (index : Nat) (f : Scene → Except Refusal Scene) :
    Except Refusal (Engine τ) :=
  match e.activeEntry with
  | none => .error .noScenarioSelected
  | some entry =>
    match entry.scenes[index]? with
    | none => .error (.invalidScene index entry.scenes.length)
    | some scene => do
      let scene ← f scene
      e.editScenes (·.set index scene)

/-- Changes the speaker in a slot of a scene. -/
def editSpeaker (slot : Nat) (f : Speaker → Speaker) (scene : Scene) : Except Refusal Scene :=
  if slot < Quartet.size then .ok { scene with speakers := scene.speakers.modify slot f }
  else .error (.edit (.noSuchSlot slot))

/-- Changes a choice of a scene. -/
def editChoice (index : Nat) (choice : Choice) (scene : Scene) : Except Refusal Scene :=
  if index < Quartet.size then .ok { scene with choices := scene.choices.set index choice }
  else .error (.edit (.noSuchChoice index))

/-- Carries out an edit while the scene at an index is being played. -/
def editAt (e : Engine τ) (index : Nat) : EditorInput → Except Refusal (Engine τ)
  | .selectScene target =>
    if target < e.activeScenes.length then .ok (e.moveTo target)
    else .error (.invalidScene target e.activeScenes.length)
  | .appendBlankScene => e.editScenes (· ++ [.blank])
  | .duplicateScene => e.editScenes fun scenes => scenes ++ [scenes[index]?.getD .blank]
  | .removeScene =>
    if e.activeScenes.length ≤ 1 || e.activeScenes.length ≤ index + 1 then
      .error (.edit .lastScene)
    else do return (← e.editScenes (·.eraseIdx index)).moveTo index
  | .setSpeakerLine slot text => do
    checkText text
    e.editScene index (editSpeaker slot (·.setLine text))
  | .setSpeakerName slot name => do
    checkText name
    e.editScene index (editSpeaker slot fun s => { s with name := Text.trimmedNonBlank name })
  | .setMainLine text => do
    checkText text
    e.editScene index fun scene => .ok (scene.setMainLine text)
  | .setChoice choice label target => do
    checkText label
    checkText target
    let target := Text.trimmedNonBlank target
    if let some name := target then
      if (e.store.findIndex? name).isNone then throw (.edit (.unknownTarget name))
    e.editScene index (editChoice choice ⟨Text.trimmedNonBlank label, target⟩)
  | .setBackground name => do
    let background ← e.checkTexture name
    e.editScene index fun scene => .ok { scene with background }
  | .setBackgroundOverlay name => do
    e.expectAdvanced
    let backgroundOverlay ← e.checkTexture name
    e.editScene index fun scene => .ok { scene with backgroundOverlay }
  | .setOverlay name => do
    e.expectAdvanced
    let overlay ← e.checkTexture name
    e.editScene index fun scene => .ok { scene with overlay }
  | .setMusic name => do
    let music ← e.checkTrack name
    e.editScene index fun scene => .ok { scene with music }
  | .setSound name => do
    let sound ← e.checkTrack name
    e.editScene index fun scene => .ok { scene with sound }
  | .setSpeakerTexture slot part name => do
    if part.isLayered then e.expectAdvanced
    let texture ← e.checkTexture name
    e.editScene index (editSpeaker slot (·.setTexture part texture))

/-- Carries out an edit, where there is an editor and a scene to edit. -/
def edit (e : Engine τ) (input : EditorInput) : Except Refusal (Engine τ) := do
  unless e.settings.editing do throw (.edit .editorOff)
  e.expectPlaying
  e.editAt (e.state.scene?.getD 0) input

/-- The scenes that an author would save. -/
def editingScenes (e : Engine τ) : Option (List Scene) := e.activeEntry.map (·.scenes)

end VisualNovel.Engine

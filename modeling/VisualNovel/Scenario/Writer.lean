import VisualNovel.Scene
import VisualNovel.Scenario.Field
import VisualNovel.Text.Lines

/-!
# Writing scenarios

Every scene is written as a complete block: each position of the layout has its
line, and each field of a line has a value or the word that says there is none.
-/

namespace VisualNovel.Scenario

/-- The header of a block. -/
def headerLine (layout : Layout) (s : Scene) : List (Option String) :=
  match layout with
  | .simple => [s.background, s.music, s.sound]
  | .advanced => [s.background, s.backgroundOverlay, s.music, s.sound]

/-- The line of a speaker. -/
def speakerLine (layout : Layout) (s : Speaker) : List (Option String) :=
  match layout with
  | .simple => [s.name, s.texture, s.line]
  | .advanced => [s.name, s.texture, s.line, s.textureLeft, s.textureRight, s.textureHead]

/-- The line of a choice. -/
def choiceLine (c : Choice) : List (Option String) := [c.label, c.target]

/-- The values of a scene, line by line. -/
def sceneLines (layout : Layout) (s : Scene) : List (List (Option String)) :=
  [headerLine layout s] ++ s.speakers.toList.map (speakerLine layout) ++ [[s.mainLine]] ++
    s.choices.toList.map choiceLine ++ if layout.isAdvanced then [[s.overlay]] else []

/-- The lines of a block. -/
def blockLines (layout : Layout) (s : Scene) : List String :=
  startMarker :: (sceneLines layout s).map (fun values => joinFields (values.map writeField)) ++
    [endMarker]

/-- Writes a scenario. -/
def write (layout : Layout) (scenes : List Scene) : String :=
  Text.unlines (scenes.flatMap (blockLines layout))

/-- A new scenario: a single blank scene. -/
def blank (layout : Layout) : String := write layout [.blank]

end VisualNovel.Scenario

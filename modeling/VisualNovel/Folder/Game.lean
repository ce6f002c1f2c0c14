import VisualNovel.Config
import VisualNovel.Scenario.Writer
import VisualNovel.Store

/-!
# The folder of a game

A game lies in five directories. This module finds the scenarios, the music and
the textures in them, makes new scenarios and writes back the ones that were
edited.
-/

namespace VisualNovel

/-- A picture of a scenario. -/
structure Texture where
  name : String
  path : String
  width : Nat
  height : Nat
deriving DecidableEq, Repr

/-- The directories of a game. -/
structure GameFolder where
  scenarios : String
  textures : String
  sounds : String
  saves : String
  languages : String
deriving DecidableEq, Repr

namespace GameFolder

/-- The directories that a configuration names. -/
def ofConfig (c : Config) : GameFolder where
  scenarios := Path.join c.gameRoot c.directories.scenarios
  textures := Path.join c.gameRoot c.directories.textures
  sounds := Path.join c.gameRoot c.directories.sounds
  saves := Path.join c.gameRoot c.directories.saves
  languages := Path.join c.gameRoot c.directories.languages

/-- All directories in order. -/
def toList (f : GameFolder) : List String :=
  [f.scenarios, f.textures, f.sounds, f.saves, f.languages]

/-- Makes directories that are not there, one after the other. -/
def ensureEach (disk : Disk) : List String → Disk × Except Failure Unit
  | [] => (disk, .ok ())
  | dir :: dirs =>
    if disk.contains dir then ensureEach disk dirs
    else match disk.createDirectories dir with
      | (disk, .ok ()) => ensureEach disk dirs
      | (disk, .error _) => (disk, .error (.file dir))

/-- Makes all directories that are not there. -/
def ensure (f : GameFolder) (disk : Disk) : Disk × Except Failure Unit := ensureEach disk f.toList

/-- The extension of a scenario. -/
def scenarioExtension : String := "sc"

/-- The extensions of music and sounds. -/
def soundExtensions : List String := ["mp3", "ogg"]

/-- The extension of a texture. -/
def textureExtension : String := "png"

/-- What is known about a scenario from its file name. -/
def describe (f : GameFolder) (fileName : String) : Descriptor :=
  let stem := (Path.stem? fileName).getD fileName
  { fileName
    filePath := Path.join f.scenarios fileName
    texturesDir := Path.join f.textures stem
    soundsDir := Path.join f.sounds stem }

/-- All scenarios, in the order of their file names. -/
def scan (f : GameFolder) (disk : Disk) : List Descriptor :=
  (disk.filesWith f.scenarios [scenarioExtension]).map f.describe

/-- Music and sounds: the paths of the files by their stems. -/
def scanMusic (f : GameFolder) (disk : Disk) : Registry String :=
  .ofList ((disk.filesWith f.sounds soundExtensions).map fun name =>
    ((Path.cutName name).1, Path.join f.sounds name))

/-- What every scenario's file name ends in. -/
def scenarioEnding : String := "." ++ scenarioExtension

/-- The file name of a scenario from what its author calls it. -/
def fileNameOf (name : String) : Except Failure String :=
  let name := Text.trim name
  if name = "" || name.toList.any (['/', '\\', ':'].contains ·) || name = scenarioEnding then
    .error (.invalidScenarioName name)
  else if scenarioEnding.toList.isSuffixOf name.toList then .ok name
  else .ok (name ++ scenarioEnding)

/-- Makes a new scenario of one blank scene and a directory for its textures. -/
def create (f : GameFolder) (disk : Disk) (name : String) (layout : Layout) :
    Disk × Except Failure Descriptor :=
  match fileNameOf name with
  | .error e => (disk, .error e)
  | .ok fileName =>
    let d := f.describe fileName
    if disk.contains d.filePath then (disk, .error (.scenarioExists fileName))
    else match disk.createDirectories f.scenarios with
      | (disk, .error _) => (disk, .error (.file f.scenarios))
      | (disk, .ok ()) =>
        match disk.writeText d.filePath (Scenario.blank layout) with
        | .error _ => (disk, .error (.file d.filePath))
        | .ok disk =>
          match disk.createDirectories d.texturesDir with
          | (disk, .error _) => (disk, .error (.file d.texturesDir))
          | (disk, .ok ()) => (disk, .ok d)

/-- Writes scenes to the file of a scenario and says which file that is. -/
def saveScenario (f : GameFolder) (disk : Disk) (fileName : String) (scenes : List Scene)
    (layout : Layout) : Except Failure (Disk × String) :=
  let path := Path.join f.scenarios fileName
  match disk.writeText path (Scenario.write layout scenes) with
  | .ok disk => .ok (disk, path)
  | .error _ => .error (.file path)

end GameFolder

namespace Disk

/-- The text of a scenario. -/
def scenarioText (disk : Disk) (d : Descriptor) : Except String String :=
  if disk.contains d.filePath then
    match disk.readText d.filePath with
    | .ok text => .ok text
    | .error _ => .error ("资源加载失败: " ++ d.filePath)
  else .error ("资源未找到: " ++ d.filePath)

/-- The texture at a path under its name, if there is a picture. -/
def texture? (disk : Disk) (path name : String) : Option (String × Texture) :=
  match disk.find? path with
  | some (.file (.image width height _)) => some (name, { name, path, width, height })
  | _ => none

/-- The textures of a scenario: all pictures in its directory. -/
def textures (disk : Disk) (d : Descriptor) : List (String × Texture) :=
  (disk.filesWith d.texturesDir [GameFolder.textureExtension]).filterMap fun file =>
    disk.texture? (Path.join d.texturesDir file) (Path.cutName file).1

/-- A disk as the source of scenarios. -/
def source (disk : Disk) : Source Id Texture where
  text d := disk.scenarioText d
  textures d := .ok (disk.textures d)

end Disk

end VisualNovel

import VisualNovel.Disk.Basic
import VisualNovel.Scenario.Reader

/-!
# Checking scenarios

The authors of a game can have all its scenarios checked: lines that do not fit,
blocks that are not closed, and names of textures, tracks and scenarios that lead
nowhere. Only a scenario without any scene is an error; the rest are warnings.
-/

namespace VisualNovel.ScenarioCheck

/-- What was found so far. -/
structure Findings where
  checked : Nat
  counts : List String
  warnings : List String
  empty : List String
deriving DecidableEq, Repr

/-- Nothing was found. -/
def Findings.none : Findings := ⟨0, [], [], []⟩

/-- What is printed, and whether the check went well. -/
structure Verdict where
  report : List String
  passed : Bool
deriving DecidableEq, Repr

/-- The names of all textures that a scene uses. -/
def texturesOf (s : Scene) : List String :=
  ([s.background, s.backgroundOverlay, s.overlay] ++ s.speakers.toList.flatMap fun p =>
    [p.texture, p.textureLeft, p.textureRight, p.textureHead]).filterMap id

/-- The names of all tracks that a scene uses. -/
def tracksOf (s : Scene) : List String := [s.music, s.sound].filterMap id

/-- The names of all scenarios that a scene leads to. -/
def targetsOf (s : Scene) : List String := s.choices.toList.filterMap (·.target)

/-- Where the assets of a scenario are looked for, and which scenarios there are. -/
structure Surroundings where
  disk : Disk
  textures : String
  sounds : String
  known : List String

/-- Whether there is a texture of a name. -/
def Surroundings.hasTexture (env : Surroundings) (name : String) : Bool :=
  env.disk.contains (Path.join env.textures (name ++ ".png"))

/-- Whether there is a track of a name. -/
def Surroundings.hasTrack (env : Surroundings) (name : String) : Bool :=
  ["mp3", "ogg"].any fun e => env.disk.contains (Path.join env.sounds (name ++ "." ++ e))

/-- The warnings about a scene, each behind the words that say where it is. -/
def sceneWarnings (env : Surroundings) (place : String) (s : Scene) : List String :=
  ((texturesOf s).filter (!env.hasTexture ·)).map (place ++ ": 纹理不存在 " ++ ·) ++
    ((tracksOf s).filter (!env.hasTrack ·)).map (place ++ ": 音频不存在 " ++ ·) ++
    ((targetsOf s).filter (!env.known.contains ·)).map (place ++ ": 按钮目标剧本不存在 " ++ ·)

/-- The warning about a line that did not fit. -/
def skippedWarning (file : String) (l : Scenario.SkippedLine) : String :=
  file ++ ":" ++ Text.showNat l.number ++ ": 字段数 " ++ Text.showNat l.fieldCount ++
    " 不符合块内第 " ++ Text.showNat l.position ++ " 行的格式，已跳过"

/-- The warnings about a text that was read. -/
def readingWarnings (env : Surroundings) (file : String) (r : Scenario.Reading) : List String :=
  r.skipped.map (skippedWarning file) ++
    (if r.unterminated = 0 then []
      else [file ++ ": " ++ Text.showNat r.unterminated ++ " 个场景块没有结束标记"]) ++
    r.scenes.zipIdx.flatMap fun (s, i) =>
      sceneWarnings env (file ++ " #" ++ Text.showNat (i + 1)) s

/-- Checks one file. -/
def checkFile (disk : Disk) (root : String) (layout : Layout) (known : List String)
    (found : Findings) (file : String) : Findings :=
  let found := { found with checked := found.checked + 1 }
  match disk.readText file with
  | .error _ =>
    { found with
      warnings := found.warnings ++ [file ++ ": 无法读取文件 - stream did not contain valid UTF-8"]
      empty := found.empty ++ [file] }
  | .ok text =>
    let r := Scenario.read layout text
    let env : Surroundings := {
      disk
      textures := Path.join (Path.join root "textures") ((Path.stem? file).getD "")
      sounds := Path.join root "sounds"
      known }
    { found with
      counts := found.counts ++ [file ++ ": " ++ Text.showNat r.scenes.length ++ " 个场景"]
      warnings := found.warnings ++ readingWarnings env file r
      empty := if r.scenes.isEmpty then found.empty ++ [file] else found.empty }

/-- All files below a directory, in the order of their names; deeper than the given number
of levels nothing is looked for. -/
def filesBelow (disk : Disk) : Nat → String → List String
  | 0, _ => []
  | depth + 1, dir =>
    (disk.list dir).flatMap fun (name, item) =>
      match item with
      | .directory => filesBelow disk depth (Path.join dir name)
      | .file _ => [Path.join dir name]

/-- All scenarios below a directory. No path on the disk has more levels than it has items. -/
def scenariosBelow (disk : Disk) (dir : String) : List String :=
  (filesBelow disk (disk.entries.length + 1) dir).filter fun path =>
    ((Path.fileName? path).bind Path.extension?) == some "sc"

/-- The closing lines of a report. -/
def summary (found : Findings) : List String :=
  let errors := found.empty.length
  let warnings := found.warnings.length
  ["─────────────────────────────────────────────────────",
    "检查完成: " ++ Text.showNat found.checked ++ " 个剧本", ""] ++
    found.warnings.map ("[WARN] " ++ ·) ++
    found.empty.map (fun file => "[ERROR] " ++ file ++ ": 没有可播放的场景") ++
    ["", if errors > 0 then
        "❌ " ++ Text.showNat errors ++ " 个错误, " ++ Text.showNat warnings ++ " 个警告"
      else if warnings > 0 then "⚠️  0 个错误, " ++ Text.showNat warnings ++ " 个警告"
      else "✅ 检查通过，无错误"]

/-- A verdict that the check cannot go well, for a reason. -/
def fail (report : List String) (reason : String) : Verdict :=
  ⟨report ++ ["xtask error: " ++ reason], false⟩

/-- The findings about some files. -/
def findings (disk : Disk) (root : String) (layout : Layout) (files : List String) : Findings :=
  let known := (scenariosBelow disk (Path.join root "scenarios")).filterMap Path.fileName?
  files.foldl (checkFile disk root layout known) .none

/-- Checks a list of files. -/
def checkFiles (disk : Disk) (root : String) (layout : Layout) (files : List String) : Verdict :=
  if files.isEmpty then ⟨["未找到剧本文件（.sc）"], true⟩
  else
    let found := findings disk root layout files
    let report :=
      ["==> 检查 " ++ Text.showNat files.length ++ " 个剧本文件...", ""] ++ found.counts ++
        summary found
    if found.empty.isEmpty then ⟨report, true⟩ else fail report "剧本检查发现错误"

/-- Checks a file, a directory, or all scenarios of a game. -/
def check (disk : Disk) (root : String) (path : Option String) (layout : Layout) : Verdict :=
  let target := path.getD (Path.join root "scenarios")
  if disk.isFile target then checkFiles disk root layout [target]
  else if disk.isDirectory target then
    checkFiles disk root layout (scenariosBelow disk target)
  else fail [] ("路径不存在: " ++ target)

end VisualNovel.ScenarioCheck

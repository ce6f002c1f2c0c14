import VisualNovel.Json.Printer
import VisualNovel.Json.Reader
import VisualNovel.Playback.State

/-!
# Saves

A save records a position and the version of its form. Its fields may all be
missing from the text; what is missing is noticed when the save is turned back
into a position. A save of another major version is refused.
-/

namespace VisualNovel

/-- The version of the form of a save. -/
structure SaveVersion where
  major : UInt32
  minor : UInt32
deriving DecidableEq, Repr

namespace SaveVersion

/-- The version that is written. -/
def current : SaveVersion := ⟨1, 0⟩

/-- Versions with the same major part can be read. -/
def isCompatible (v : SaveVersion) : Bool := v.major == current.major

/-- The two parts with a point between them. -/
def text (v : SaveVersion) : String :=
  Text.showNat v.major.toNat ++ "." ++ Text.showNat v.minor.toNat

instance : Json.Codec SaveVersion where
  encode v := .record [("major", Json.encode v.major), ("minor", Json.encode v.minor)]
  decode v := do
    let fs ← Json.Fields.of ["major", "minor"] v
    return { major := ← fs.required "major", minor := ← fs.required "minor" }

end SaveVersion

/-- The fields that a save cannot do without. -/
inductive SaveField where
  | scenario
  | player
  | scene
deriving DecidableEq, Repr

/-- The key of a field. -/
def SaveField.key : SaveField → String
  | .scenario => "scenario_name"
  | .player => "player_name"
  | .scene => "scenario_scene"

/-- What is done with the files of the saves. -/
inductive SaveTask where
  | makeFolder
  | write
  | read
  | delete
deriving DecidableEq, Repr

/-- What the player is told of a task that failed. -/
def SaveTask.trouble : SaveTask → String
  | .makeFolder => "无法创建存档目录"
  | .write => "无法写入存档文件"
  | .read => "无法读取存档文件"
  | .delete => "无法删除存档文件"

/-- Why a save cannot be written, read or continued. -/
inductive SaveError where
  | missingField (field : SaveField)
  | unknownScenario (name : String)
  | sceneOutOfRange (index length : Nat)
  | malformed
  | incompatibleVersion (found : SaveVersion)
  | fileTrouble (task : SaveTask)
  | notFound (path : String)
deriving DecidableEq, Repr

/-- What the player is told. -/
def SaveError.message : SaveError → String
  | .missingField field => "存档缺少字段: " ++ field.key
  | .unknownScenario name => "存档引用的剧本 '" ++ name ++ "' 不存在"
  | .sceneOutOfRange index length =>
    "存档的场景索引 " ++ Text.showNat index ++ " 超出剧本范围（共 " ++ Text.showNat length ++ " 个场景）"
  | .malformed => "反序列化失败"
  | .incompatibleVersion found =>
    "存档版本不兼容: 存档版本 " ++ found.text ++ " vs 当前版本 " ++ SaveVersion.current.text
  | .fileTrouble task => "文件操作失败: " ++ task.trouble
  | .notFound path => "存档不存在: " ++ path

/-- What a save file holds. -/
structure SaveRecord where
  version : SaveVersion
  scenario : String
  player : String
  scene : Option Nat
deriving DecidableEq, Repr

namespace SaveRecord

instance : Json.Codec SaveRecord where
  encode r := .record
    [("version", Json.encode r.version), ("scenario_name", Json.encode r.scenario),
      ("player_name", Json.encode r.player), ("scenario_scene", Json.encode r.scene)]
  decode v := do
    let fs ← Json.Fields.of ["version", "scenario_name", "player_name", "scenario_scene"] v
    return {
      version := ← fs.orElse "version" .current
      scenario := ← fs.orElse "scenario_name" ""
      player := ← fs.orElse "player_name" ""
      scene := ← fs.orElse "scenario_scene" none }

/-- The save of a position. -/
def ofPosition (p : Position) : SaveRecord := ⟨.current, p.scenario, p.player, some p.scene⟩

/-- The position of a save in which nothing is missing. -/
def toPosition (r : SaveRecord) : Except SaveError Position :=
  if r.scenario = "" then .error (.missingField .scenario)
  else if r.player = "" then .error (.missingField .player)
  else match r.scene with
    | none => .error (.missingField .scene)
    | some scene => .ok ⟨r.scenario, r.player, scene⟩

/-- The text of a save file. -/
def toText (r : SaveRecord) : String := Json.pretty (Json.encode r)

/-- The save that a text holds. -/
def ofText (text : String) : Except SaveError SaveRecord :=
  match (Json.parse text).bind Json.decode with
  | none => .error .malformed
  | some (r : SaveRecord) =>
    if r.version.isCompatible then .ok r else .error (.incompatibleVersion r.version)

end SaveRecord

end VisualNovel

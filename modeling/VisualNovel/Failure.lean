import VisualNovel.Save

/-!
# Failures

Why the program around the engine cannot do what it is asked to do. What the
engine itself refuses is no failure: it is shown as a status line.
-/

namespace VisualNovel

/-- What is wrong with a configuration. -/
inductive ConfigFault where
  | textSpeed
  | musicVolume
  | soundVolume
  | blankDirectory
deriving DecidableEq, Repr

/-- What the player is told. -/
def ConfigFault.message (fault : ConfigFault) : String :=
  "配置验证失败: " ++ match fault with
    | .textSpeed => "文字速度必须在 1 - 100 之间"
    | .musicVolume => "背景音乐音量必须在 0 - 100 之间"
    | .soundVolume => "音效音量必须在 0 - 100 之间"
    | .blankDirectory => "子目录名不能为空"

/-- Why something cannot be done. -/
inductive Failure where
  | file (path : String)
  | config (fault : ConfigFault)
  | save (reason : SaveError)
  | scenarioExists (name : String)
  | invalidScenarioName (name : String)
  | invalidCommand (line : String)
  | editorDisabled
  | notPlaying
deriving DecidableEq, Repr

/-- What the player is told. -/
def Failure.message : Failure → String
  | .file path => "文件操作失败: " ++ path
  | .config fault => fault.message
  | .save reason => reason.message
  | .scenarioExists name => "剧本已存在: " ++ name
  | .invalidScenarioName name => "无效的剧本名: '" ++ name ++ "'"
  | .invalidCommand line => "无法识别的命令: " ++ line
  | .editorDisabled => "该命令需要 --scenario-editor"
  | .notPlaying => "当前没有正在播放的剧本"

end VisualNovel

import VisualNovel.Quartet
import VisualNovel.Save
import VisualNovel.Scenario.Field

/-!
# Refusals

Why the engine refuses an input, and what the player is told about it.
-/

namespace VisualNovel

/-- Why an edit is refused. -/
inductive EditRefusal where
  | editorOff
  | separatorInText
  | lineBreakInText
  | reservedText (text : String)
  | noSuchSlot (slot : Nat)
  | noSuchChoice (index : Nat)
  | unknownTarget (name : String)
  | unknownTexture (name : String)
  | unknownTrack (name : String)
  | advancedOnly
  | lastScene
deriving DecidableEq, Repr

/-- What the author is told. -/
def EditRefusal.message : EditRefusal → String
  | .editorOff => "编辑器未启用"
  | .separatorInText => "文本不能包含 `:`"
  | .lineBreakInText => "文本不能换行"
  | .reservedText text => "`" ++ text ++ "` 是保留字"
  | .noSuchSlot slot =>
    "槽位 " ++ Text.showNat slot ++ " 超出范围（共 " ++ Text.showNat Quartet.size ++ " 个）"
  | .noSuchChoice index =>
    "按钮 " ++ Text.showNat index ++ " 超出范围（共 " ++ Text.showNat Quartet.size ++ " 个）"
  | .unknownTarget name => "目标剧本不存在: " ++ name
  | .unknownTexture name => "纹理不存在: " ++ name
  | .unknownTrack name => "音轨不存在: " ++ name
  | .advancedOnly => "该字段仅在高级布局下可用"
  | .lastScene => "不能删除最后一个场景"

/-- Why an input is refused. -/
inductive Refusal where
  | wrongState (expected actual : String)
  | scenarioNotFound (name : String)
  | emptyScenario (name : String)
  | noScenarioSelected
  | blankPlayerName
  | invalidChoice (index : Nat)
  | invalidScene (index length : Nat)
  | edit (reason : EditRefusal)
  | save (reason : SaveError)
deriving DecidableEq, Repr

namespace Refusal

/-- What stands before the refusal of a save. -/
def saveHeading : String := "存档错误: "

/-- What stands before every other refusal. -/
def heading : String := "运行时错误: "

/-- What the player is told. -/
def message : Refusal → String
  | .wrongState expected actual =>
    heading ++ "当前状态不允许此操作：期望 " ++ expected ++ "，实际 " ++ actual
  | .scenarioNotFound name => heading ++ "剧本 '" ++ name ++ "' 不存在"
  | .emptyScenario name => heading ++ "剧本 '" ++ name ++ "' 没有可播放的场景"
  | .noScenarioSelected => heading ++ "未选择剧本"
  | .blankPlayerName => heading ++ "玩家名不能为空"
  | .invalidChoice index => heading ++ "按钮 " ++ Text.showNat index ++ " 不可用"
  | .invalidScene index length =>
    heading ++ "无效的场景索引 " ++ Text.showNat index ++ "，有效范围是 0.." ++ Text.showNat length
  | .edit reason => heading ++ "编辑器操作被拒绝: " ++ reason.message
  | .save reason => saveHeading ++ reason.message

end Refusal

end VisualNovel

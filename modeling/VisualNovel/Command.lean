import VisualNovel.Failure
import VisualNovel.Scene
import VisualNovel.Text.Split

/-!
# Commands

The player types commands, one to a line. A command is a word and what belongs to
it; numbers are counted from one on the line and from zero inside the program. An
empty line goes on to the next scene.
-/

namespace VisualNovel

/-- A command to change the scenario that is being played. -/
inductive EditCommand where
  | scene (index : Nat)
  | append
  | duplicate
  | remove
  | line (slot : Nat) (text : String)
  | name (slot : Nat) (name : String)
  | main (text : String)
  | choice (index : Nat) (label target : String)
  | background (name : String)
  | backgroundOverlay (name : String)
  | overlay (name : String)
  | music (name : String)
  | sound (name : String)
  | texture (slot : Nat) (part : PortraitPart) (name : String)
  | save
deriving DecidableEq, Repr

/-- A command of the player. -/
inductive Command where
  | list
  | openScenarioSelect
  | openSaveSelect
  | back
  | start (scenario : Option String) (player : String)
  | load (name : String)
  | save (name : Option String)
  | delete (name : String)
  | next
  | choose (index : Nat)
  | pause
  | exit
  | history
  | rescan
  | newScenario (name : String)
  | edit (command : EditCommand)
  | help
  | quit
deriving DecidableEq, Repr

namespace Command

/-- The first word of a line and the rest, both without white space around them. -/
def splitWord (line : String) : String × String :=
  let line := Text.trim line
  match Text.cutAtFirst Text.isBlankChar line.toList with
  | some (word, rest) => (String.ofList word, Text.trim (String.ofList rest))
  | none => (line, "")

/-- A word in small letters. -/
def keyword (word : String) : String := String.ofList (word.toList.map Char.toLower)

/-- The index that a number counted from one stands for. -/
def index? (word : String) : Option Nat := do
  match ← Text.readBounded? Text.maxIndex (Text.trimChars word.toList) with
  | 0 => none
  | n + 1 => some n

/-- A part of a portrait by its name. -/
def part? (word : String) : Option PortraitPart :=
  match keyword word with
  | "body" => some .body
  | "left" => some .left
  | "right" => some .right
  | "head" => some .head
  | _ => none

/-- A text that has to be there. -/
def nonEmpty? (text : String) : Option String := if text = "" then none else some text

/-- The label and the target of a choice, with a bar between them. -/
def splitChoice (text : String) : String × String :=
  match Text.cutAtFirst (· == '|') text.toList with
  | some (label, target) => (Text.trim (String.ofList label), Text.trim (String.ofList target))
  | none => (Text.trim text, "")

/-- What belongs to a start: the player's name, or a scenario and the player's name. -/
def start? (rest : String) : Option Command :=
  match splitWord rest with
  | ("", _) => none
  | (player, "") => some (.start none player)
  | (scenario, player) => some (.start (some scenario) player)

/-- What belongs to an edit. -/
def edit? (text : String) : Option EditCommand :=
  let (word, rest) := splitWord text
  match keyword word with
  | "scene" => (index? rest).map .scene
  | "append" => some .append
  | "duplicate" => some .duplicate
  | "remove" => some .remove
  | "save" => some .save
  | "line" =>
    let (slot, text) := splitWord rest
    (index? slot).map (.line · text)
  | "name" =>
    let (slot, name) := splitWord rest
    (index? slot).map (.name · name)
  | "main" => some (.main rest)
  | "bg" => some (.background rest)
  | "bgoverlay" => some (.backgroundOverlay rest)
  | "overlay" => some (.overlay rest)
  | "music" => some (.music rest)
  | "sound" => some (.sound rest)
  | "texture" => do
    let (slot, rest) := splitWord rest
    let (part, name) := splitWord rest
    return .texture (← index? slot) (← part? part) name
  | "button" =>
    let (number, rest) := splitWord rest
    let (label, target) := splitChoice rest
    (index? number).map (.choice · label target)
  | _ => none

/-- The command of a trimmed line, if it is one. -/
def ofLine? (line : String) : Option Command :=
  let (word, rest) := splitWord line
  match keyword word with
  | "" | "next" => some .next
  | "list" => some .list
  | "select" | "scenarios" => some .openScenarioSelect
  | "saves" => some .openSaveSelect
  | "back" => some .back
  | "start" => start? rest
  | "load" => (nonEmpty? rest).map .load
  | "save" => some (.save (nonEmpty? rest))
  | "delete" => (nonEmpty? rest).map .delete
  | "choose" => (index? rest).map .choose
  | "pause" => some .pause
  | "exit" => some .exit
  | "history" => some .history
  | "rescan" => some .rescan
  | "new" => (nonEmpty? rest).map .newScenario
  | "edit" => (edit? rest).map .edit
  | "help" | "?" => some .help
  | "quit" | "q" => some .quit
  | _ => none

/-- The command of a line; any other line is refused as it is. -/
def parse (line : String) : Except Failure Command :=
  let line := Text.trim line
  match ofLine? line with
  | some command => .ok command
  | none => .error (.invalidCommand line)

/-- The lines of the help panel, its heading first. -/
def helpText : List String :=
  ["commands:",
    "  list                     列出剧本",
    "  select | scenarios       进入剧本选择",
    "  saves                    进入存档选择",
    "  back                     返回主菜单",
    "  start [剧本] <玩家名>     开始新游戏",
    "  load <存档名>             读取存档",
    "  save [存档名]             保存",
    "  delete <存档名>           删除存档",
    "  next | <回车>             推进",
    "  choose <n>               点击第 n 个按钮",
    "  pause                    暂停/继续",
    "  exit                     回到主菜单",
    "  history                  对话历史",
    "  rescan                   重新扫描游戏目录",
    "  new <剧本名>              新建剧本（编辑器）",
    "  edit scene <n> | append | duplicate | remove | save",
    "  edit line <槽位> <台词>   edit name <槽位> <名字>",
    "  edit main <台词>          edit button <n> <文字> | <目标剧本>",
    "  edit bg | bgoverlay | overlay | music | sound [名称]",
    "  edit texture <槽位> <body|left|right|head> [纹理]",
    "  help                     帮助",
    "  quit                     退出"]

end Command

end VisualNovel

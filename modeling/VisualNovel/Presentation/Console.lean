import VisualNovel.Language
import VisualNovel.Presentation.Drawing

/-!
# The console

Without a window every frame is a few lines of text. The calls that draw it
gather its lines; when it is finished they are printed, but only if they differ
from those of the frame before. A list in between makes the next frame appear
again. A call with an index that cannot be counted from one has no lines, and
whatever was to be done ends there.
-/

namespace VisualNovel

/-- The language of the captions, the lines that were gathered, and those on the screen. -/
structure Console where
  languages : Languages
  language : Option String
  buffer : List String
  last : List String
  introShown : Bool

namespace Console

/-- An empty screen. -/
def start (languages : Languages) (language : Option String) : Console :=
  ⟨languages, language, [], [], false⟩

/-- A caption in the language of the player. -/
def caption (c : Console) (text : String) : String := c.languages.translate c.language text

/-- The heading of a frame. -/
def heading (c : Console) : State → Option String
  | .mainMenu => some (c.caption "Main menu")
  | .scenarioSelect => some (c.caption "Select scenario")
  | .saveSelect => some (c.caption "Select save")
  | .playing scenario scene =>
    (Text.showOrdinal? scene).map fun number => scenario ++ " #" ++ number

/-- The lines of a call. -/
def linesOf (c : Console) : DrawCall → Option (List String)
  | .start state => (c.heading state).map fun heading => ["== " ++ heading ++ " =="]
  | .background name => some ["[background] " ++ name]
  | .backgroundOverlay name => some ["[background overlay] " ++ name]
  | .sprite slot parts focused =>
    (Text.showOrdinal? slot).map fun number =>
      ["[sprite " ++ number ++ "]" ++ (if focused then "*" else " ") ++ " " ++
        " + ".intercalate parts]
  | .dialogue banner text =>
    some ((if banner = "" then [] else ["<" ++ banner ++ ">"]) ++
      (if text = "" then [] else ["  " ++ text]))
  | .choices offered =>
    offered.mapM fun o =>
      (Text.showOrdinal? o.index).map fun number => "  (" ++ number ++ ") " ++ o.label
  | .overlay name => some ["[overlay] " ++ name]
  | .pause => some ["-- " ++ c.caption "Paused" ++ " --"]
  | .status message => some ["! " ++ message]
  | .finish => some []

/-- Carries out a call that has these lines; what is printed comes second. -/
def put (c : Console) (lines : List String) : DrawCall → Console × List String
  | .start _ => ({ c with buffer := lines }, [])
  | .finish =>
    if c.buffer = c.last then (c, [])
    else ({ c with buffer := [], last := c.buffer }, c.buffer)
  | _ => ({ c with buffer := c.buffer ++ lines }, [])

/-- Carries out a call; what is printed comes second. -/
def draw (c : Console) (call : DrawCall) : Option (Console × List String) :=
  (c.linesOf call).map fun lines => c.put lines call

/-- Carries out the calls for a frame. -/
def present (c : Console) : List DrawCall → Option (Console × List String)
  | [] => some (c, [])
  | call :: calls => do
    let (c, printed) ← c.draw call
    let (c, more) ← c.present calls
    return (c, printed ++ more)

/-- Shows the developer's name, once, as soon as it is fully visible. -/
def showIntro (c : Console) (developer : String) (alpha : Float32) : Console × List String :=
  if c.introShown || alpha < 1 then (c, [])
  else ({ c with introShown := true }, ["~ " ++ developer ++ " ~"])

/-- Shows a list with a heading. -/
def showList (c : Console) (title : String) (items : List String) : Console × List String :=
  ({ c with last := [] },
    ["-- " ++ c.caption title ++ " --"] ++
      (if items.isEmpty then ["  (" ++ c.caption "empty" ++ ")"] else []) ++
      items.map ("  " ++ ·))

end Console

end VisualNovel

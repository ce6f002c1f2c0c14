import VisualNovel.Folder.Game
import VisualNovel.Playback.Frame

/-!
# Drawing

A frame is drawn from back to front. What is drawn is a list of calls; textures
that are not there are left out.
-/

namespace VisualNovel

/-- Something to be drawn. -/
inductive DrawCall where
  | start (state : State)
  | background (name : String)
  | backgroundOverlay (name : String)
  | sprite (slot : Nat) (parts : List String) (focused : Bool)
  | dialogue (banner text : String)
  | choices (offered : List OfferedChoice)
  | overlay (name : String)
  | pause
  | status (message : String)
  | finish
deriving DecidableEq, Repr

namespace Frame

/-- A call for a texture that is there. -/
def drawTexture (texture? : String → Option Texture) (call : String → DrawCall)
    (name : Option String) : List DrawCall :=
  ((name.bind texture?).map fun t => call t.name).toList

/-- The portrait of a speaker, without the parts whose textures are not there. -/
def drawSprite (texture? : String → Option Texture) (s : Sprite) : List DrawCall :=
  match s.parts.filterMap texture? with
  | [] => []
  | t :: ts => [.sprite s.slot ((t :: ts).map (·.name)) s.focused]

/-- The calls for what a frame contains. -/
def contents (texture? : String → Option Texture) (f : Frame) : List DrawCall :=
  drawTexture texture? .background f.background ++
    drawTexture texture? .backgroundOverlay f.backgroundOverlay ++
    f.sprites.flatMap (drawSprite texture?) ++
    (if f.state.isPlaying then [.dialogue f.banner f.text] else []) ++
    (if f.choicesOpen then [.choices f.choices] else []) ++
    drawTexture texture? .overlay f.overlay ++
    (if f.paused then [.pause] else []) ++
    (f.status.map DrawCall.status).toList

/-- All calls that draw a frame. -/
def draw (texture? : String → Option Texture) (f : Frame) : List DrawCall :=
  .start f.state :: (f.contents texture? ++ [.finish])

end Frame

end VisualNovel

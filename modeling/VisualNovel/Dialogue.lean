import VisualNovel.Scene
import VisualNovel.Text.Replace

/-!
# Dialogue

What a scene says: whose names stand in the banner, which text is shown, and who
is in focus. The player's name takes the place of a marker in the text.
-/

namespace VisualNovel

/-- Who a scene puts in focus. -/
inductive Focus where
  | nobody
  | speaker (slot : Nat)
  | mainCharacter
deriving DecidableEq, Repr

instance : Json.Codec Focus where
  encode
    | .nobody => .ofString "Nobody"
    | .speaker slot => .variant "Speaker" (Json.encode slot)
    | .mainCharacter => .ofString "MainCharacter"
  decode v := do
    match ← v.variant? with
    | ("Nobody", content) => if Json.isBareVariant content then some .nobody else none
    | ("MainCharacter", content) => if Json.isBareVariant content then some .mainCharacter else none
    | ("Speaker", some slot) => (Json.decode slot).map .speaker
    | _ => none

/-- What a scene says. -/
structure Dialogue where
  banner : String
  text : String
  focus : Focus
deriving DecidableEq, Repr

namespace Dialogue

/-- The marker that stands for the player's name. -/
def nameMarker : String := "@MAINCHARACTERNAME"

/-- What stands between two names of the banner. -/
def joiner : String := "&"

/-- Puts the player's name in the place of every marker, first of the markers that a
closing sign follows and then of all others. -/
def substituteName (line player : String) : String :=
  let marker := nameMarker.toList
  if Text.occursIn marker line.toList then
    let closed := Text.replaceChars (marker ++ ['@']) player.toList line.toList
    String.ofList (Text.replaceChars marker player.toList closed)
  else line

/-- The speakers that talk, each with its slot. -/
def talkers (scene : Scene) : List (Nat × Speaker) :=
  (scene.speakers.toList.zipIdx.map fun (s, i) => (i, s)).filter (·.2.talking)

/-- The lines of all that talk, the main character last. -/
def linesOf (scene : Scene) : List String :=
  (talkers scene).filterMap (·.2.line) ++ scene.mainLine.toList

/-- The names of all that talk, the player's last. -/
def namesOf (scene : Scene) (player : String) : List String :=
  (talkers scene).map (·.2.name.getD "") ++ if scene.mainTalking then [player] else []

/-- Who is in focus: the main character if it talks, otherwise the first that does. -/
def focusOf (scene : Scene) : Focus :=
  if scene.mainTalking then .mainCharacter
  else match talkers scene with
    | (slot, _) :: _ => .speaker slot
    | [] => .nobody

/-- The first line that is not empty. -/
def rawText (scene : Scene) : String :=
  ((linesOf scene).find? (· ≠ "")).getD ""

/-- Whether the main character talks alone and its line hides the name by a closing sign. -/
def hidesName (scene : Scene) : Bool :=
  scene.mainTalking && (talkers scene).isEmpty && (rawText scene).toList.getLast? == some '@'

/-- What a scene says to a player of the given name. -/
def ofScene (scene : Scene) (player : String) : Dialogue :=
  if hidesName scene then
    { banner := ""
      text := substituteName (String.ofList (rawText scene).toList.dropLast) player
      focus := focusOf scene }
  else
    { banner := joiner.intercalate (namesOf scene player)
      text := substituteName (rawText scene) player
      focus := focusOf scene }

end Dialogue

end VisualNovel

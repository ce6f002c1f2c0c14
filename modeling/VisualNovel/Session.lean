import VisualNovel.Command
import VisualNovel.Folder.Saves
import VisualNovel.Playback.Handle
import VisualNovel.Presence
import VisualNovel.Presentation.Audio
import VisualNovel.Presentation.Console

/-!
# Sessions

A session is a game that a player plays at the console: the engine, the folders
on the disk, the screen and the sounds. A command is first carried out and then
settled: time passes until the whole text is shown, the frame is presented, and a
new scene is saved if the player wishes so. What is printed and played meanwhile
waits in the session until it is taken.
-/

namespace VisualNovel

/-- The present moment: seconds for the history and words for the names of saves. -/
structure Clock where
  seconds : Nat
  stamp : String
deriving DecidableEq, Repr

/-- A game that a player plays at the console. -/
structure Session where
  config : Config
  editing : Bool
  disk : Disk
  clock : Clock
  folder : GameFolder
  saves : SaveFolder
  music : Registry String
  engine : Engine Texture
  console : Console
  audio : Audio
  intro : Intro
  lastSerial : Nat
  printed : List String
  played : List AudioCall

/-- Whether a session goes on after a command. The program breaks off where it is to print an index
that cannot be counted from one. -/
inductive Flow where
  | goOn
  | quit
  | breakOff
deriving DecidableEq, Repr

namespace Session

/-- How long a frame lasts, in seconds. -/
def frameTime : Float32 := 1.0 / 60.0

/-- The most frames that a command waits for its text. -/
def maxFrames : Nat := 100000

/-- Makes the directories of a game and begins a session in them. -/
def start (config : Config) (editing : Bool) (languages : Languages) (clock : Clock)
    (disk : Disk) : Disk × Except Failure Session :=
  let folder := GameFolder.ofConfig config
  match folder.ensure disk with
  | (disk, .error e) => (disk, .error e)
  | (disk, .ok ()) =>
    let music := folder.scanMusic disk
    (disk, .ok {
      config
      editing
      disk
      clock
      folder
      saves := ⟨folder.saves⟩
      music
      engine := (Engine.start (config.settings editing) (folder.scan disk)).setCatalog music.names
      console := .start languages config.game.menuLanguage
      audio := Audio.start.withVolumes config.audio.musicGain config.audio.soundGain
      intro := .start
      lastSerial := 0
      printed := []
      played := [] })

/-- What was printed and played since it was last taken. -/
def takeOutput (s : Session) : (List String × List AudioCall) × Session :=
  ((s.printed, s.played), { s with printed := [], played := [] })

/-- Takes over the console and what it prints. -/
def print (s : Session) (output : Console × List String) : Session :=
  { s with console := output.1, printed := s.printed ++ output.2 }

/-- Shows a list with a heading. -/
def showList (s : Session) (title : String) (items : List String) : Session :=
  s.print (s.console.showList title items)

/-- What is to be published about the session. -/
def snapshot (s : Session) : Snapshot where
  started := s.engine.state.isPlaying
  introFinished := s.intro.isFinished
  scenario := match s.engine.state with
    | .playing scenario _ => some scenario
    | _ => none
  editing := s.editing

/-- Lets frames of the intro pass until it is over, or the given number has passed. -/
def introFrames : Nat → Session → Session
  | 0, s => s
  | n + 1, s =>
    if s.intro.isFinished then s
    else
      let intro := s.intro.update frameTime
      let s := { s with intro }
      introFrames n (s.print (s.console.showIntro s.config.developer intro.alpha))

/-- The most frames of an intro; at the pace of a session it ends long before. -/
def maxIntroFrames : Nat := 10000

/-- Shows the whole intro, faster if the player skips it. -/
def runIntro (s : Session) (skip : Bool) : Session :=
  introFrames maxIntroFrames (if skip then { s with intro := s.intro.skip } else s)

/-- Lets frames pass until the text is shown or the game is paused. -/
def tickUntilShown (now : Nat) : Nat → Engine Texture → Frame → Engine Texture × Frame
  | 0, e, f => (e, f)
  | n + 1, e, f =>
    if e.paused || e.textComplete then (e, f)
    else
      let (e, f) := e.tick frameTime now
      tickUntilShown now n e f

/-- The engine and the frame once the text is shown. -/
def shown (s : Session) : Engine Texture × Frame :=
  let first := s.engine.tick frameTime s.clock.seconds
  tickUntilShown s.clock.seconds (maxFrames - 1) first.1 first.2

/-- Presents a frame on the screen and to the ear, unless the program breaks off at it. -/
def present? (s : Session) (f : Frame) : Option Session := do
  let s := s.print (← s.console.present (f.draw fun name => s.engine.texture? (some name)))
  let (audio, calls) := s.audio.present s.music f
  return { s with audio, played := s.played ++ calls }

/-- Saves automatically where the frame belongs to another visit than the one before. -/
def autosave (s : Session) (f : Frame) : Session :=
  if f.serial = s.lastSerial then s
  else
    let s := { s with lastSerial := f.serial }
    if !s.config.game.autoSave || s.editing then s
    else match s.engine.position? with
      | none => s
      | some position => { s with disk := (s.saves.autosave s.disk (.ofPosition position)).1 }

/-- Lets time pass until the text is shown, presents the frame and saves a new scene. There is no
frame if the program breaks off at it. -/
def settle (s : Session) : Session × Option Frame :=
  let shown := s.shown
  let s := { s with engine := shown.1 }
  match s.present? shown.2 with
  | none => (s, none)
  | some s =>
    let s := { s with engine := s.engine.takeReports.2 }
    (s.autosave shown.2, some shown.2)

/-- Gives an input to the engine, which shows why it refuses one. -/
def send (s : Session) (input : Input) : Session :=
  { s with engine := (s.engine.handle s.disk.source s.clock.seconds input).run.1 }

/-- Opens a menu if the player is in the main menu. -/
def leaveMainMenu (s : Session) (menu : Input) : Session :=
  if s.engine.state = .mainMenu then s.send menu else s

/-- Lists the scenarios. -/
def showScenarios (s : Session) : Session :=
  s.showList "Scenarios" (s.engine.store.entries.map (·.descriptor.fileName))

/-- The line that stands for a save. -/
def saveLine? (s : Session) (name : String) : Option String :=
  match s.saves.info? s.disk name with
  | some info =>
    (Text.showOrdinal? info.position.scene).map fun number =>
      name ++ ": " ++ info.position.scenario ++ " #" ++ number ++
        " (" ++ info.position.player ++ ")"
  | none => some (name ++ ": ?")

/-- Lists the saves, unless the program breaks off at one of them. -/
def showSaves (s : Session) : Session × Flow :=
  match (s.saves.list s.disk).mapM s.saveLine? with
  | none => (s, .breakOff)
  | some lines => (s.showList "Saves" lines, .goOn)

/-- Saves the game under a name, or under a name made from the moment. -/
def saveGame (s : Session) (name : Option String) : Session × Except Failure Unit :=
  match s.engine.position? with
  | none => (s, .error .notPlaying)
  | some position =>
    let name := name.getD (SaveFolder.defaultName position.scenario s.clock.stamp)
    match s.saves.save s.disk name (.ofPosition position) with
    | (disk, .ok _) => ({ s with disk }, .ok ())
    | (disk, .error e) => ({ s with disk }, .error (.save e))

/-- Looks again for music and scenarios. -/
def rescan (s : Session) : Session :=
  let music := s.folder.scanMusic s.disk
  let engine := s.engine.setCatalog music.names
  { s with
    music
    engine := match engine.rescan (s.folder.scan s.disk) with
      | .ok engine => engine
      | .error _ => engine }

/-- Makes a new scenario. -/
def newScenario (s : Session) (name : String) : Session × Except Failure Unit :=
  if !s.editing then (s, .error .editorDisabled)
  else match s.folder.create s.disk name s.engine.settings.layout with
    | (disk, .error e) => ({ s with disk }, .error e)
    | (disk, .ok _) => (({ s with disk } : Session).rescan, .ok ())

/-- Writes the scenario that is being edited to its file. -/
def saveScenario (s : Session) : Session × Except Failure Unit :=
  match s.engine.activeEntry with
  | none => (s, .error .notPlaying)
  | some entry =>
    match s.folder.saveScenario s.disk entry.descriptor.fileName entry.scenes
        s.engine.settings.layout with
    | .ok (disk, _) => ({ s with disk }, .ok ())
    | .error e => (s, .error e)

/-- The input that an edit stands for; saving is none. -/
def editorInput? : EditCommand → Option EditorInput
  | .scene index => some (.selectScene index)
  | .append => some .appendBlankScene
  | .duplicate => some .duplicateScene
  | .remove => some .removeScene
  | .line slot text => some (.setSpeakerLine slot text)
  | .name slot name => some (.setSpeakerName slot name)
  | .main text => some (.setMainLine text)
  | .choice index label target => some (.setChoice index label target)
  | .background name => some (.setBackground name)
  | .backgroundOverlay name => some (.setBackgroundOverlay name)
  | .overlay name => some (.setOverlay name)
  | .music name => some (.setMusic name)
  | .sound name => some (.setSound name)
  | .texture slot part name => some (.setSpeakerTexture slot part name)
  | .save => none

/-- Carries out an edit. -/
def edit (s : Session) (command : EditCommand) : Session × Except Failure Unit :=
  if !s.editing then (s, .error .editorDisabled)
  else match editorInput? command with
    | none => s.saveScenario
    | some input => (s.send (.editor input), .ok ())

/-- Loads a save and goes on with it. -/
def loadGame (s : Session) (name : String) : Session × Except Failure Unit :=
  match s.saves.load s.disk name with
  | .error e => (s, .error (.save e))
  | .ok record => ((s.leaveMainMenu .openSaveSelect).send (.loadSave record), .ok ())

/-- Deletes a save. -/
def deleteSave (s : Session) (name : String) : Session × Except Failure Unit :=
  match s.saves.delete s.disk name with
  | .ok disk => ({ s with disk }, .ok ())
  | .error e => (s, .error (.save e))

/-- Goes on after something that was done, unless it failed. -/
def goOn (done : Session × Except Failure Unit) : Session × Except Failure Flow :=
  (done.1, done.2.map fun _ => .goOn)

@[simp] theorem fst_goOn (done : Session × Except Failure Unit) : (goOn done).1 = done.1 := rfl

/-- Carries out a command and says whether the session goes on. -/
def execute (s : Session) : Command → Session × Except Failure Flow
  | .list => goOn (s.showScenarios, .ok ())
  | .openScenarioSelect => goOn (s.send .openScenarioSelect, .ok ())
  | .openSaveSelect => (s.send .openSaveSelect).showSaves.map id .ok
  | .back => goOn (s.send .back, .ok ())
  | .start scenario player =>
    goOn ((s.leaveMainMenu .openScenarioSelect).send (.startNewGame scenario player), .ok ())
  | .load name => goOn (s.loadGame name)
  | .save name => goOn (s.saveGame name)
  | .delete name => goOn (s.deleteSave name)
  | .next => goOn (s.send .advance, .ok ())
  | .choose index => goOn (s.send (.activateChoice index), .ok ())
  | .pause => goOn (s.send .togglePause, .ok ())
  | .exit => goOn (s.send .exitToMainMenu, .ok ())
  | .history => goOn (s.showList "History" s.engine.history.dialogueLines, .ok ())
  | .rescan => goOn (s.rescan, .ok ())
  | .newScenario name => goOn (s.newScenario name)
  | .edit command => goOn (s.edit command)
  | .help => goOn (s.showList "Help" Command.helpText.tail, .ok ())
  | .quit => (s, .ok .quit)

end Session

end VisualNovel

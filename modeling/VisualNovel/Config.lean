import VisualNovel.Disk.Basic
import VisualNovel.Failure
import VisualNovel.Json.Printer
import VisualNovel.Json.Reader
import VisualNovel.Playback.Settings
import VisualNovel.Text.Blank

/-!
# Configuration

What a game is called, where its parts lie and how it is played. Everything has
a value of its own where the file says nothing; a file that cannot be read counts
as one that says nothing at all.
-/

namespace VisualNovel

/-- The names of the directories below the root of the game. -/
structure Directories where
  scenarios : String
  textures : String
  sounds : String
  saves : String
  languages : String
deriving DecidableEq, Repr

/-- What is told to others about the game that is being played. -/
structure PresenceConfig where
  enabled : Bool
  appId : String
  logoKey : String
deriving DecidableEq, Repr

/-- How the game is played. -/
structure GameConfig where
  animatedText : Bool
  textSpeed : UInt32
  autoSave : Bool
  menuLanguage : Option String
deriving DecidableEq, Repr

/-- Volumes in percent. -/
structure AudioConfig where
  musicVolume : UInt32
  soundVolume : UInt32
deriving DecidableEq, Repr

/-- A whole configuration. -/
structure Config where
  gameRoot : String
  directories : Directories
  gameName : String
  developer : String
  advancedScenes : Bool
  storyMode : Bool
  presence : PresenceConfig
  game : GameConfig
  audio : AudioConfig
deriving DecidableEq, Repr

namespace Directories

/-- The usual names. -/
def standard : Directories := ⟨"scenarios", "textures", "sounds", "saves", "translations"⟩

/-- All names in order. -/
def toList (d : Directories) : List String :=
  [d.scenarios, d.textures, d.sounds, d.saves, d.languages]

instance : Json.Codec Directories where
  encode d := .record
    [("scenarios", Json.encode d.scenarios), ("textures", Json.encode d.textures),
      ("sounds", Json.encode d.sounds), ("saves", Json.encode d.saves),
      ("translations", Json.encode d.languages)]
  decode v := do
    let fs ← Json.Fields.of ["scenarios", "textures", "sounds", "saves", "translations"] v
    return {
      scenarios := ← fs.orElse "scenarios" standard.scenarios
      textures := ← fs.orElse "textures" standard.textures
      sounds := ← fs.orElse "sounds" standard.sounds
      saves := ← fs.orElse "saves" standard.saves
      languages := ← fs.orElse "translations" standard.languages }

end Directories

namespace PresenceConfig

/-- What holds where nothing is said. -/
def standard : PresenceConfig := ⟨true, "", "logo"⟩

instance : Json.Codec PresenceConfig where
  encode p := .record
    [("enabled", Json.encode p.enabled), ("app_id", Json.encode p.appId),
      ("logo_key", Json.encode p.logoKey)]
  decode v := do
    let fs ← Json.Fields.of ["enabled", "app_id", "logo_key"] v
    return {
      enabled := ← fs.orElse "enabled" standard.enabled
      appId := ← fs.orElse "app_id" standard.appId
      logoKey := ← fs.orElse "logo_key" standard.logoKey }

end PresenceConfig

namespace GameConfig

/-- What holds where nothing is said. -/
def standard : GameConfig := ⟨true, Settings.defaultSpeed, false, none⟩

instance : Json.Codec GameConfig where
  encode g := .record
    [("animated_text", Json.encode g.animatedText), ("text_speed", Json.encode g.textSpeed),
      ("auto_save", Json.encode g.autoSave), ("menu_language", Json.encode g.menuLanguage)]
  decode v := do
    let fs ← Json.Fields.of ["animated_text", "text_speed", "auto_save", "menu_language"] v
    return {
      animatedText := ← fs.orElse "animated_text" standard.animatedText
      textSpeed := ← fs.orElse "text_speed" standard.textSpeed
      autoSave := ← fs.orElse "auto_save" standard.autoSave
      menuLanguage := ← fs.orElse "menu_language" standard.menuLanguage }

end GameConfig

namespace AudioConfig

/-- What holds where nothing is said. -/
def standard : AudioConfig := ⟨80, 100⟩

/-- The largest volume. -/
def maxVolume : UInt32 := 100

/-- A volume in percent as a factor. -/
def gain (volume : UInt32) : Float32 :=
  (if maxVolume < volume then maxVolume else volume).toFloat32 / 100

/-- The factor of the music. -/
def musicGain (a : AudioConfig) : Float32 := gain a.musicVolume

/-- The factor of the sounds. -/
def soundGain (a : AudioConfig) : Float32 := gain a.soundVolume

instance : Json.Codec AudioConfig where
  encode a := .record
    [("music_volume", Json.encode a.musicVolume), ("sound_volume", Json.encode a.soundVolume)]
  decode v := do
    let fs ← Json.Fields.of ["music_volume", "sound_volume"] v
    return {
      musicVolume := ← fs.orElse "music_volume" standard.musicVolume
      soundVolume := ← fs.orElse "sound_volume" standard.soundVolume }

end AudioConfig

namespace Config

/-- What holds where nothing is said. -/
def standard : Config where
  gameRoot := "game"
  directories := .standard
  gameName := "Visual Novel"
  developer := "Unknown Developer"
  advancedScenes := false
  storyMode := false
  presence := .standard
  game := .standard
  audio := .standard

/-- The names of the fields, in the order in which they are written. -/
def fieldNames : List String :=
  ["game_root", "directories", "game_name", "game_developer", "advanced_scenes", "story_mode",
    "presence", "game", "audio"]

instance : Json.Codec Config where
  encode c := .record
    [("game_root", Json.encode c.gameRoot), ("directories", Json.encode c.directories),
      ("game_name", Json.encode c.gameName), ("game_developer", Json.encode c.developer),
      ("advanced_scenes", Json.encode c.advancedScenes), ("story_mode", Json.encode c.storyMode),
      ("presence", Json.encode c.presence), ("game", Json.encode c.game),
      ("audio", Json.encode c.audio)]
  decode v := do
    let fs ← Json.Fields.of fieldNames v
    return {
      gameRoot := ← fs.orElse "game_root" standard.gameRoot
      directories := ← fs.orElse "directories" standard.directories
      gameName := ← fs.orElse "game_name" standard.gameName
      developer := ← fs.orElse "game_developer" standard.developer
      advancedScenes := ← fs.orElse "advanced_scenes" standard.advancedScenes
      storyMode := ← fs.orElse "story_mode" standard.storyMode
      presence := ← fs.orElse "presence" standard.presence
      game := ← fs.orElse "game" standard.game
      audio := ← fs.orElse "audio" standard.audio }

/-- The configuration that a text holds. -/
def ofText? (text : String) : Option Config := (Json.parse text).bind Json.decode

/-- The text of a configuration file. -/
def toText (c : Config) : String := Json.pretty (Json.encode c)

/-- The configuration of a file; a file that cannot be read says nothing. -/
def load (disk : Disk) (path : String) : Config :=
  match disk.readText path with
  | .ok text => (ofText? text).getD standard
  | .error _ => standard

/-- Writes a configuration to a file. -/
def save (c : Config) (disk : Disk) (path : String) : Except DiskError Disk :=
  disk.writeText path c.toText

/-- Whether two configurations say the same: the root may be spelled in several ways. -/
def same (a b : Config) : Bool :=
  Path.same a.gameRoot b.gameRoot && { a with gameRoot := b.gameRoot } == b

/-- The first thing that is wrong with a configuration. -/
def validate (c : Config) : Except ConfigFault Unit :=
  if c.game.textSpeed < Settings.minSpeed || Settings.maxSpeed < c.game.textSpeed then
    .error .textSpeed
  else if AudioConfig.maxVolume < c.audio.musicVolume then .error .musicVolume
  else if AudioConfig.maxVolume < c.audio.soundVolume then .error .soundVolume
  else if c.directories.toList.any Text.isBlank then .error .blankDirectory
  else .ok ()

/-- The layout of the scenes; a story is always told in the advanced one. -/
def layout (c : Config) : Layout := .ofFlag (c.advancedScenes || c.storyMode)

/-- Where textures are looked up; a story shares those of one scenario. -/
def lookup (c : Config) : TextureLookup := if c.storyMode then .shared else .perScenario

/-- The settings of the engine, with or without an editor. -/
def settings (c : Config) (editing : Bool) : Settings :=
  .make c.layout c.lookup editing c.game.animatedText c.game.textSpeed

end Config

end VisualNovel

import VisualNovel.Intro
import VisualNovel.Playback.Frame

/-!
# Music and sounds

A frame names the music and the sound that are wanted. What was wanted last is
remembered, and the player of the sounds is called only if something else is
wanted now. Names that are not registered are silent.
-/

namespace VisualNovel

/-- A request to the player of the sounds. -/
inductive AudioCall where
  | playMusic (name path : String) (volume : Float32)
  | stopMusic
  | pauseMusic (paused : Bool)
  | playSound (name path : String) (volume : Float32)
  | stopSound

/-- What was wanted last, and how loud everything is. -/
structure Audio where
  musicVolume : Float32
  soundVolume : Float32
  music : Option String
  musicPaused : Bool
  sound : Option SoundCue

namespace Audio

/-- Silence at full volume. -/
def start : Audio := ⟨1, 1, none, false, none⟩

/-- Sets the volumes, which lie between zero and one. -/
def withVolumes (a : Audio) (music sound : Float32) : Audio :=
  { a with musicVolume := Intro.clampUnit music, soundVolume := Intro.clampUnit sound }

/-- What is asked for when other music is wanted. -/
def switchMusic (a : Audio) (registry : Registry String) (name : Option String) : AudioCall :=
  match name with
  | none => .stopMusic
  | some name =>
    match registry.get? name with
    | some path => .playMusic name path a.musicVolume
    | none => .stopMusic

/-- Changes the music if a frame wants other music. -/
def updateTrack (a : Audio) (registry : Registry String) (f : Frame) : Audio × List AudioCall :=
  if f.music = a.music then (a, [])
  else ({ a with music := f.music, musicPaused := false }, [a.switchMusic registry f.music])

/-- Lets the music rest or go on as a frame wants. -/
def updatePause (a : Audio) (f : Frame) : Audio × List AudioCall :=
  ({ a with musicPaused := f.musicPaused },
    if f.musicPaused != a.musicPaused && a.music.isSome then [.pauseMusic f.musicPaused] else [])

/-- Plays the sound of a frame, once for each cue. -/
def updateSound (a : Audio) (registry : Registry String) (f : Frame) : Audio × List AudioCall :=
  if f.sound = a.sound then (a, [])
  else
    ({ a with sound := f.sound },
      match f.sound with
      | none => [.stopSound]
      | some cue =>
        match registry.get? cue.name with
        | some path => [.playSound cue.name path a.soundVolume]
        | none => [])

/-- All requests that a frame leads to. -/
def present (a : Audio) (registry : Registry String) (f : Frame) : Audio × List AudioCall :=
  let (a, track) := a.updateTrack registry f
  let (a, pause) := a.updatePause f
  let (a, sound) := a.updateSound registry f
  (a, track ++ pause ++ sound)

/-- The music that plays after a request, given the one before it. -/
def playing (before : Option String) : AudioCall → Option String
  | .playMusic name _ _ => some name
  | .stopMusic => none
  | _ => before

end Audio

end VisualNovel

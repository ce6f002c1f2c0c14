import VisualNovel.Presentation.Audio

/-!
# Frames that are heard

A showing is a frame that is presented, with the tracks that are registered at that moment.
What a showing asks of the player of the sounds falls into two parts: the requests for the
music, which leave the sound alone, and those for the sound, which leave the music alone.
-/

namespace VisualNovel

/-- A frame that is presented, and the tracks that are registered then. -/
structure Showing where
  registry : Registry String
  frame : Frame

/-- Whether a request is about the music. -/
def AudioCall.isMusic : AudioCall → Bool
  | .playMusic _ _ _ => true
  | .stopMusic => true
  | .pauseMusic _ => true
  | .playSound _ _ _ => false
  | .stopSound => false

/-- Requests none of which matters leave everything as it is. -/
theorem AudioCall.foldl_eq_self {δ : Type} {after : δ → AudioCall → δ} {d : δ}
    {calls : List AudioCall} (h : ∀ c ∈ calls, after d c = d) : calls.foldl after d = d := by
  induction calls with
  | nil => rfl
  | cons c calls ih =>
    rw [List.forall_mem_cons] at h
    rw [List.foldl_cons, h.1, ih h.2]

namespace Audio

/-- Nothing is remembered of any frame, at some volumes. -/
def fresh (music sound : Float32) : Audio := ⟨music, sound, none, false, none⟩

/-- What is remembered after some showings, and all requests on the way. -/
def presentAll (a : Audio) (shown : List Showing) : Audio × List AudioCall :=
  shown.foldl (fun r s =>
    ((r.1.present s.registry s.frame).1, r.2 ++ (r.1.present s.registry s.frame).2)) (a, [])

/-- The last frame is presented after the others. -/
theorem presentAll_concat (a : Audio) (shown : List Showing) (s : Showing) :
    a.presentAll (shown ++ [s]) =
      (((a.presentAll shown).1.present s.registry s.frame).1,
        (a.presentAll shown).2 ++ ((a.presentAll shown).1.present s.registry s.frame).2) := by
  rw [presentAll, List.foldl_append]
  rfl

variable (a : Audio) (registry : Registry String) (f : Frame)

/-- What is asked if music should rest or go on that did so or not before. -/
def pauseCalls (before : Bool) : List AudioCall :=
  if f.musicPaused != before && f.music.isSome then [.pauseMusic f.musicPaused] else []

/-- What is asked for the music of a frame; other music does not rest at first. -/
def musicCalls : List AudioCall :=
  if f.music = a.music then pauseCalls f a.musicPaused
  else a.switchMusic registry f.music :: pauseCalls f false

/-- What is asked for the sound of a frame. -/
def soundCalls : List AudioCall := (a.updateSound registry f).2

/-- A showing is remembered, and asks for its music first and then for its sound. -/
theorem present_eq : a.present registry f =
    ({ a with music := f.music, musicPaused := f.musicPaused, sound := f.sound },
      a.musicCalls registry f ++ a.soundCalls registry f) := by
  by_cases hmusic : f.music = a.music <;> by_cases hsound : f.sound = a.sound <;>
    simp [present, musicCalls, pauseCalls, soundCalls, updateTrack, updatePause, updateSound,
      hmusic, hsound]

/-- Changing the music is a call about music. -/
theorem isMusic_switchMusic (name : Option String) :
    (a.switchMusic registry name).isMusic = true := by
  cases name with
  | none => rfl
  | some name => cases h : registry.get? name <;> simp [switchMusic, h, AudioCall.isMusic]

/-- A pause makes calls about music only. -/
theorem isMusic_of_mem_pauseCalls (before : Bool) :
    ∀ c ∈ pauseCalls f before, c.isMusic = true := by
  intro c hc
  rw [pauseCalls] at hc
  split at hc
  · obtain rfl := List.mem_singleton.mp hc
    rfl
  · cases hc

/-- What is done about the music are calls about music. -/
theorem isMusic_of_mem_musicCalls : ∀ c ∈ a.musicCalls registry f, c.isMusic = true := by
  rw [musicCalls]
  split
  · exact isMusic_of_mem_pauseCalls f a.musicPaused
  · rw [List.forall_mem_cons]
    exact ⟨a.isMusic_switchMusic registry f.music, isMusic_of_mem_pauseCalls f false⟩

variable {a registry f}

/-- The sound that was asked for last is not asked for again. -/
theorem soundCalls_of_eq (h : f.sound = a.sound) : a.soundCalls registry f = [] := by
  rw [soundCalls, updateSound, if_pos h]

/-- Where there is no other sound, the one before is stopped. -/
theorem soundCalls_of_none (h : f.sound ≠ a.sound) (hnone : f.sound = none) :
    a.soundCalls registry f = [.stopSound] := by
  rw [soundCalls, updateSound, if_neg h]
  simp only [hnone]

/-- Another sound is played if it is registered. -/
theorem soundCalls_of_some (h : f.sound ≠ a.sound) {cue : SoundCue} (hcue : f.sound = some cue) :
    a.soundCalls registry f =
      ((registry.get? cue.name).map fun path => .playSound cue.name path a.soundVolume).toList := by
  rw [soundCalls, updateSound, if_neg h]
  cases hpath : registry.get? cue.name with
  | none => simp only [hcue, hpath, Option.map_none, Option.toList_none]
  | some path => simp only [hcue, hpath, Option.map_some, Option.toList_some]

/-- What is done about the sound are calls about sounds. -/
theorem isMusic_of_mem_soundCalls : ∀ c ∈ a.soundCalls registry f, c.isMusic = false := by
  by_cases hsame : f.sound = a.sound
  · rw [soundCalls_of_eq hsame]
    exact fun _ hc => absurd hc List.not_mem_nil
  · cases hsound : f.sound with
    | none =>
      rw [soundCalls_of_none hsame hsound, List.forall_mem_singleton]
      rfl
    | some cue =>
      rw [soundCalls_of_some hsame hsound]
      intro c hc
      simp only [Option.mem_toList, Option.map_eq_some_iff] at hc
      obtain ⟨path, _, rfl⟩ := hc
      rfl

end Audio

end VisualNovel

import Mathlib.Data.List.Induction
import VisualNovel.Proofs.Presentation.Showing

/-!
# Sounds that go on

A sound that was begun goes on until another one is begun or it is told to stop. A frame
without a sound stops it and a frame with a registered one takes its place, but a frame whose
sound is not registered does neither: then the sound of an earlier frame goes on.
-/

namespace VisualNovel

/-- The sound that goes on after a request: the one begun last, unless it was stopped. -/
def soundAfter (sounding : Option String) : AudioCall → Option String
  | .playSound name _ _ => some name
  | .stopSound => none
  | .playMusic _ _ _ => sounding
  | .stopMusic => sounding
  | .pauseMusic _ => sounding

/-- Whether a frame decides which sound goes on: it has none, or a registered one. -/
def Frame.decidesSound (registry : Registry String) (f : Frame) : Bool :=
  f.sound.all fun cue => registry.contains cue.name

/-- The sound of a frame if it is registered. -/
def Frame.audibleSound (registry : Registry String) (f : Frame) : Option String :=
  (f.sound.map (·.name)).filter registry.contains

/-- The sound that goes on after some frames, while the same tracks are registered. -/
def soundingAfter (a : Audio) (registry : Registry String) (frames : List Frame) :
    Option String :=
  (a.presentAll (frames.map (Showing.mk registry))).2.foldl soundAfter none

/-- The sound of the last frame that decides which sound goes on. -/
def decidedSound (registry : Registry String) (frames : List Frame) : Option String :=
  ((frames.filter (Frame.decidesSound registry)).getLast?.bind (·.sound)).map (·.name)

/-- Requests for the music leave the sound alone. -/
theorem foldl_soundAfter_of_music {calls : List AudioCall} (h : ∀ c ∈ calls, c.isMusic = true)
    (sounding : Option String) : calls.foldl soundAfter sounding = sounding := by
  refine AudioCall.foldl_eq_self fun c hc => ?_
  cases c with
  | playSound _ _ _ => cases h _ hc
  | stopSound => cases h _ hc
  | _ => rfl

variable {a : Audio} {registry : Registry String} {f : Frame} {sounding : Option String}

/-- A frame with another sound than was asked for last is heard if it decides which goes on. -/
theorem foldl_soundAfter_of_ne (h : f.sound ≠ a.sound) :
    (a.soundCalls registry f).foldl soundAfter sounding =
      if f.decidesSound registry then f.sound.map (·.name) else sounding := by
  cases hsound : f.sound with
  | none =>
    rw [Audio.soundCalls_of_none h hsound, Frame.decidesSound, hsound, Option.all_none]
    rfl
  | some cue =>
    rw [Audio.soundCalls_of_some h hsound, Frame.decidesSound, hsound, Option.all_some,
      Table.contains]
    cases registry.get? cue.name <;> rfl

/-- The track that a request plays once, and its file. -/
def AudioCall.played? : AudioCall → Option (String × String)
  | .playSound name path _ => some (name, path)
  | _ => none

/-- What is played for a sound while some tracks are registered. -/
def playedFor (registry : Registry String) (name : String) : Option (String × String) :=
  (registry.get? name).map (name, ·)

/-- Calls about music play no sound. -/
theorem played?_of_music {calls : List AudioCall} (h : ∀ c ∈ calls, c.isMusic = true) :
    calls.filterMap AudioCall.played? = [] := by
  rw [List.filterMap_eq_nil_iff]
  intro c hc
  cases c with
  | playSound _ _ _ => cases h _ hc
  | _ => rfl

/-- The sounds that a frame plays are those of its calls about sounds. -/
theorem played?_present : (a.present registry f).2.filterMap AudioCall.played? =
    (a.soundCalls registry f).filterMap AudioCall.played? := by
  rw [Audio.present_eq, List.filterMap_append,
    played?_of_music (a.isMusic_of_mem_musicCalls registry f), List.nil_append]

/-- A frame that asks for what was asked for last plays nothing. -/
theorem played?_present_of_eq (h : f.sound = a.sound) :
    (a.present registry f).2.filterMap AudioCall.played? = [] := by
  rw [played?_present, Audio.soundCalls_of_eq h, List.filterMap_nil]

/-- A frame with another sound than was asked for last plays it if it is registered. -/
theorem played?_present_of_ne (h : f.sound ≠ a.sound) :
    (a.present registry f).2.filterMap AudioCall.played? =
      (f.sound.bind fun cue => playedFor registry cue.name).toList := by
  rw [played?_present]
  cases hsound : f.sound with
  | none =>
    rw [Audio.soundCalls_of_none h hsound]
    rfl
  | some cue =>
    rw [Audio.soundCalls_of_some h hsound, Option.bind_some, playedFor]
    cases registry.get? cue.name <;> rfl

/-- The sound that goes on is that of the last frame which decides it, and what is remembered
is the sound of the latest frame. -/
structure Resounds (registry : Registry String) (frames : List Frame) (a : Audio)
    (sounding : Option String) : Prop where
  decided : sounding = decidedSound registry frames
  remembered : a.sound = frames.getLast?.bind (·.sound)

/-- The last frame that decides about the sound does so for all. -/
theorem decidedSound_concat (registry : Registry String) (frames : List Frame) (f : Frame) :
    decidedSound registry (frames ++ [f]) =
      if f.decidesSound registry then f.sound.map (·.name) else decidedSound registry frames := by
  rw [decidedSound, List.filter_append]
  cases hdecides : f.decidesSound registry with
  | false =>
    rw [List.filter_cons_of_neg (Bool.eq_false_iff.mp hdecides), List.filter_nil, List.append_nil]
    rfl
  | true =>
    rw [List.filter_cons_of_pos hdecides, List.filter_nil, List.getLast?_concat]
    rfl

/-- A frame that asks for the sound of the frame before decides the same. -/
theorem decidedSound_concat_of_eq {frames : List Frame}
    (h : f.sound = frames.getLast?.bind (·.sound)) :
    decidedSound registry (frames ++ [f]) = decidedSound registry frames := by
  rw [decidedSound_concat]
  split
  · next hdecides =>
    rcases List.eq_nil_or_concat frames with rfl | ⟨frames, g, rfl⟩
    · rw [h]
      rfl
    · rw [List.concat_eq_append, List.getLast?_concat, Option.bind_some] at h
      rw [Frame.decidesSound, h] at hdecides
      rw [List.concat_eq_append, decidedSound_concat, Frame.decidesSound, if_pos hdecides, h]
  · rfl

/-- Another frame leaves what sounds in step with what was decided. -/
theorem Resounds.present {frames : List Frame} (h : Resounds registry frames a sounding)
    (f : Frame) : Resounds registry (frames ++ [f]) (a.present registry f).1
      ((a.present registry f).2.foldl soundAfter sounding) := by
  rw [Audio.present_eq, List.foldl_append,
    foldl_soundAfter_of_music (a.isMusic_of_mem_musicCalls registry f)]
  have hremembered : f.sound = (frames ++ [f]).getLast?.bind (·.sound) := by
    rw [List.getLast?_concat, Option.bind_some]
  refine ⟨?_, hremembered⟩
  by_cases hsame : f.sound = a.sound
  · rw [Audio.soundCalls_of_eq hsame, List.foldl_nil, h.decided,
      decidedSound_concat_of_eq (hsame.trans h.remembered)]
  · rw [foldl_soundAfter_of_ne hsame, decidedSound_concat, h.decided]

/-- What sounds is in step with what was decided, whatever frames were presented. -/
theorem resounds_presentAll (music sound : Float32) (registry : Registry String)
    (frames : List Frame) :
    Resounds registry frames
      ((Audio.fresh music sound).presentAll (frames.map (Showing.mk registry))).1
      (soundingAfter (.fresh music sound) registry frames) := by
  induction frames using List.reverseRecOn with
  | nil => exact ⟨rfl, rfl⟩
  | append_singleton frames f ih =>
    rw [soundingAfter, List.map_append, List.map_singleton, Audio.presentAll_concat,
      List.foldl_append]
    exact ih.present f

/-- A frame that does not decide which sound goes on has none that could be heard. -/
theorem audibleSound_eq (registry : Registry String) (f : Frame) :
    f.audibleSound registry = if f.decidesSound registry then f.sound.map (·.name) else none := by
  rw [Frame.audibleSound, Frame.decidesSound]
  cases f.sound with
  | none => rfl
  | some cue =>
    rw [Option.map_some, Option.filter_some, Option.all_some]

/-- After any frames the sound of the last one that has none, or a registered one, goes on.
This is the sound of the latest frame, if that is registered, and otherwise none, except where
the latest sound is not registered and an earlier one has not been stopped. -/
theorem soundingAfter_concat (music sound : Float32) (registry : Registry String)
    (before : List Frame) (last : Frame) :
    let sounding := soundingAfter (.fresh music sound) registry (before ++ [last])
    sounding = decidedSound registry (before ++ [last]) ∧
      (sounding = last.audibleSound registry ↔
        last.decidesSound registry = true ∨ decidedSound registry before = none) := by
  intro sounding
  have hdecided : sounding = decidedSound registry (before ++ [last]) :=
    (resounds_presentAll music sound registry (before ++ [last])).decided
  refine ⟨hdecided, ?_⟩
  rw [hdecided, decidedSound_concat, audibleSound_eq]
  cases last.decidesSound registry with
  | true => simp
  | false => simp

/-- The sound of a door is registered and that of thunder is not. -/
def doorRegistry : Registry String := ⟨[("door", "door.ogg")]⟩

/-- A scene of a scenario in which a sound is to be heard. -/
def soundFrame (name : String) (scene : Nat) : Frame :=
  { Frame.menu (.playing "a.sc" scene) none false with
    serial := scene + 1
    music := none
    sound := some ⟨name, scene + 1⟩ }

/-- A door that was heard in one scene goes on in the next, which has a sound that is not
registered. -/
theorem soundingAfter_unregistered_ne :
    soundingAfter (.fresh 1 1) doorRegistry [soundFrame "door" 0, soundFrame "thunder" 1] ≠
      (soundFrame "thunder" 1).audibleSound doorRegistry := by
  decide

end VisualNovel

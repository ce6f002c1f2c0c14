import Mathlib.Data.List.Induction
import VisualNovel.Proofs.Presentation.Showing

/-!
# The music follows the frames

A player of music knows what it plays and whether it rests. After any showings it plays the
music of the latest frame if this was registered when the music last changed, and rests if
the frame is paused; and a track is started only by a showing at which the music changes.
-/

namespace VisualNovel

/-- What a player of music does: the track that it plays, and whether it rests. -/
structure Deck where
  playing : Option String
  paused : Bool

namespace Deck

/-- Nothing is played yet. -/
def start : Deck := ⟨none, false⟩

/-- What is done after a request; those for sounds go elsewhere. -/
def after (d : Deck) : AudioCall → Deck
  | .playMusic name _ _ => ⟨some name, false⟩
  | .stopMusic => { d with playing := none }
  | .pauseMusic paused => { d with paused }
  | .playSound _ _ _ => d
  | .stopSound => d

end Deck

/-- The track that a request starts. -/
def AudioCall.started? : AudioCall → Option String
  | .playMusic name _ _ => some name
  | _ => none

/-- The music that the latest frame asks for; before the first frame there is none. -/
def wantedMusic (shown : List Showing) : Option String :=
  shown.getLast?.bind (·.frame.music)

@[simp] theorem wantedMusic_concat (shown : List Showing) (s : Showing) :
    wantedMusic (shown ++ [s]) = s.frame.music := by
  rw [wantedMusic, List.getLast?_concat, Option.bind_some]

/-- The music last changed at a showing: the frame before asks for other music, and all frames
since ask for the same. -/
def ChangedAt (shown : List Showing) (s : Showing) : Prop :=
  ∃ before since, shown = before ++ s :: since ∧ s.frame.music ≠ wantedMusic before ∧
    ∀ t ∈ since, t.frame.music = s.frame.music

section Changes

variable {shown : List Showing} {s t : Showing}

/-- The music that is wanted is that of the frame in which it changed. -/
theorem ChangedAt.wantedMusic_eq (h : ChangedAt shown t) : wantedMusic shown = t.frame.music := by
  obtain ⟨before, since, rfl, _, hsame⟩ := h
  rcases List.eq_nil_or_concat since with rfl | ⟨since, u, rfl⟩
  · exact wantedMusic_concat before t
  · rw [List.concat_eq_append, ← List.cons_append, ← List.append_assoc, wantedMusic_concat]
    exact hsame u (by simp)

/-- The music last changed at the latest showing, or before it and not since. -/
theorem changedAt_concat : ChangedAt (shown ++ [s]) t ↔
    (t = s ∧ s.frame.music ≠ wantedMusic shown) ∨
      (ChangedAt shown t ∧ s.frame.music = t.frame.music) := by
  constructor
  · rintro ⟨before, since, hall, hother, hsame⟩
    rcases List.eq_nil_or_concat since with rfl | ⟨since, u, rfl⟩
    · obtain ⟨rfl, hlast⟩ := List.append_inj' hall rfl
      obtain rfl := List.singleton_inj.mp hlast
      exact Or.inl ⟨rfl, hother⟩
    · rw [List.concat_eq_append, ← List.cons_append, ← List.append_assoc] at hall
      obtain ⟨rfl, hlast⟩ := List.append_inj' hall rfl
      obtain rfl := List.singleton_inj.mp hlast
      simp only [List.concat_eq_append, List.forall_mem_append, List.forall_mem_singleton] at hsame
      exact Or.inr ⟨⟨before, since, rfl, hother, hsame.1⟩, hsame.2⟩
  · rintro (⟨rfl, hother⟩ | ⟨⟨before, since, rfl, hother, hsame⟩, hlast⟩)
    · exact ⟨shown, [], rfl, hother, by simp⟩
    · refine ⟨before, since ++ [s], by simp, hother, ?_⟩
      rw [List.forall_mem_append, List.forall_mem_singleton]
      exact ⟨hsame, hlast⟩

/-- A frame with the music that was wanted is no change. -/
theorem changedAt_concat_of_eq (hs : s.frame.music = wantedMusic shown) :
    ChangedAt (shown ++ [s]) t ↔ ChangedAt shown t := by
  rw [changedAt_concat]
  constructor
  · rintro (⟨_, hother⟩ | ⟨hchanged, _⟩)
    · exact absurd hs hother
    · exact hchanged
  · intro hchanged
    exact Or.inr ⟨hchanged, hs.trans hchanged.wantedMusic_eq⟩

/-- A frame with other music is the latest change. -/
theorem changedAt_concat_of_ne (hs : s.frame.music ≠ wantedMusic shown) :
    ChangedAt (shown ++ [s]) t ↔ t = s := by
  rw [changedAt_concat]
  constructor
  · rintro (⟨hlast, _⟩ | ⟨hchanged, hsame⟩)
    · exact hlast
    · exact absurd (hsame.trans hchanged.wantedMusic_eq.symm) hs
  · intro hlast
    exact Or.inl ⟨hlast, hs⟩

/-- There is only one showing at which the music last changed. -/
theorem ChangedAt.unique {u : Showing} (ht : ChangedAt shown t) (hu : ChangedAt shown u) :
    t = u := by
  induction shown using List.reverseRecOn with
  | nil =>
    obtain ⟨before, since, hall, _⟩ := ht
    simp at hall
  | append_singleton shown s ih =>
    by_cases hs : s.frame.music = wantedMusic shown
    · rw [changedAt_concat_of_eq hs] at ht hu
      exact ih ht hu
    · rw [changedAt_concat_of_ne hs] at ht hu
      exact ht.trans hu.symm

end Changes

namespace Deck

variable {d : Deck} {registry : Registry String} {f : Frame}

/-- Requests for sounds leave the music alone. -/
theorem foldl_after_of_sounds {calls : List AudioCall} (h : ∀ c ∈ calls, c.isMusic = false)
    (d : Deck) : calls.foldl after d = d := by
  refine AudioCall.foldl_eq_self fun c hc => ?_
  cases c with
  | playSound _ _ _ => rfl
  | stopSound => rfl
  | _ => cases h _ hc

/-- Other music is played if it is registered, and does not rest. -/
theorem after_switchMusic (a : Audio) (registry : Registry String) (name : Option String) :
    (d.after (a.switchMusic registry name)).playing = name.filter registry.contains ∧
      ((d.after (a.switchMusic registry name)).playing = none ∨
        (d.after (a.switchMusic registry name)).paused = false) := by
  cases name with
  | none => exact ⟨rfl, Or.inl rfl⟩
  | some name =>
    rw [Option.filter_some, Table.contains]
    cases hpath : registry.get? name with
    | none => simp [Audio.switchMusic, hpath, after]
    | some path => simp [Audio.switchMusic, hpath, after]

/-- Music that a frame asks for rests exactly if the frame is paused. -/
theorem after_pauseCalls {before : Bool} (hwanted : ∀ name ∈ d.playing, f.music = some name)
    (hrests : d.playing = none ∨ d.paused = before) :
    ((Audio.pauseCalls f before).foldl after d).playing = d.playing ∧
      (d.playing = none ∨ ((Audio.pauseCalls f before).foldl after d).paused = f.musicPaused) := by
  rw [Audio.pauseCalls]
  split
  · exact ⟨rfl, Or.inr rfl⟩
  · next hstays =>
    refine ⟨rfl, ?_⟩
    cases hplaying : d.playing with
    | none => exact Or.inl rfl
    | some name =>
      have hpaused : d.paused = before := hrests.resolve_left (by simp [hplaying])
      rw [hwanted name hplaying, Option.isSome_some, Bool.and_true, bne_iff_ne, not_not] at hstays
      exact Or.inr (hpaused.trans hstays.symm)

end Deck

/-- A player of music does what the frames ask for, and what is remembered is the latest frame. -/
structure Tuned (shown : List Showing) (a : Audio) (d : Deck) : Prop where
  remembered : a.music = wantedMusic shown
  plays {name : String} : d.playing = some name ↔ wantedMusic shown = some name ∧
    ∃ s, ChangedAt shown s ∧ s.registry.contains name = true
  rests : d.playing = none ∨ d.paused = a.musicPaused

namespace Tuned

variable {shown : List Showing} {a : Audio} {d : Deck}

/-- Nothing is wanted, and nothing played, before the first frame. -/
theorem fresh (music sound : Float32) : Tuned [] (.fresh music sound) .start where
  remembered := rfl
  plays := by simp [Deck.start, wantedMusic]
  rests := Or.inl rfl

/-- One showing keeps the player in tune. -/
theorem present (h : Tuned shown a d) (s : Showing) :
    Tuned (shown ++ [s]) (a.present s.registry s.frame).1
      ((a.present s.registry s.frame).2.foldl Deck.after d) := by
  rw [Audio.present_eq, List.foldl_append,
    Deck.foldl_after_of_sounds Audio.isMusic_of_mem_soundCalls, Audio.musicCalls]
  have hremembered : s.frame.music = wantedMusic (shown ++ [s]) := (wantedMusic_concat shown s).symm
  split
  · next hsame =>
    rw [h.remembered] at hsame
    obtain ⟨hplaying, hrests⟩ := Deck.after_pauseCalls (f := s.frame) (d := d)
      (fun name hname => hsame.trans (h.plays.mp hname).1) h.rests
    refine ⟨hremembered, ?_, ?_⟩
    · intro name
      rw [hplaying, h.plays, ← hsame, wantedMusic_concat]
      simp only [changedAt_concat_of_eq hsame]
    · rw [hplaying]
      exact hrests
  · next hother =>
    rw [h.remembered] at hother
    rw [List.foldl_cons]
    obtain ⟨hswitched, hgoes⟩ := Deck.after_switchMusic (d := d) a s.registry s.frame.music
    obtain ⟨hplaying, hrests⟩ := Deck.after_pauseCalls (f := s.frame)
      (fun name hname => (Option.filter_eq_some_iff.mp (hswitched.symm.trans hname)).1) hgoes
    refine ⟨hremembered, ?_, ?_⟩
    · intro name
      rw [hplaying, hswitched, wantedMusic_concat, Option.filter_eq_some_iff]
      simp only [changedAt_concat_of_ne hother, exists_eq_left]
    · rw [hplaying]
      exact hrests

/-- Any showings leave the player in tune. -/
theorem presentAll (music sound : Float32) (shown : List Showing) :
    Tuned shown ((Audio.fresh music sound).presentAll shown).1
      (((Audio.fresh music sound).presentAll shown).2.foldl Deck.after .start) := by
  induction shown using List.reverseRecOn with
  | nil => exact fresh music sound
  | append_singleton shown s ih =>
    rw [Audio.presentAll_concat, List.foldl_append]
    exact ih.present s

end Tuned

/-- Calls about sounds start no music. -/
theorem started?_of_sounds {calls : List AudioCall} (h : ∀ c ∈ calls, c.isMusic = false) :
    calls.filterMap AudioCall.started? = [] := by
  rw [List.filterMap_eq_nil_iff]
  intro c hc
  cases c with
  | playMusic _ _ _ => cases h _ hc
  | _ => rfl

/-- A pause starts no music. -/
theorem started?_pauseCalls (f : Frame) (before : Bool) :
    (Audio.pauseCalls f before).filterMap AudioCall.started? = [] := by
  rw [Audio.pauseCalls]
  split <;> rfl

/-- Changing the music starts the track that is wanted, if it is registered. -/
theorem started?_switchMusic (a : Audio) (registry : Registry String) (name : Option String) :
    (a.switchMusic registry name).started? = name.filter registry.contains := by
  cases name with
  | none => rfl
  | some name =>
    rw [Option.filter_some, Table.contains]
    cases hpath : registry.get? name with
    | none => simp [Audio.switchMusic, hpath, AudioCall.started?]
    | some path => simp [Audio.switchMusic, hpath, AudioCall.started?]

/-- A frame starts its music if this is other music than before and registered. -/
theorem started?_present (a : Audio) (registry : Registry String) (f : Frame) :
    (a.present registry f).2.filterMap AudioCall.started? =
      if f.music = a.music then [] else (f.music.filter registry.contains).toList := by
  rw [Audio.present_eq, List.filterMap_append,
    started?_of_sounds Audio.isMusic_of_mem_soundCalls, List.append_nil, Audio.musicCalls]
  split
  · exact started?_pauseCalls f a.musicPaused
  · rw [List.filterMap_cons, started?_pauseCalls, started?_switchMusic]
    cases f.music.filter registry.contains <;> rfl

/-- Whatever frames are presented and whatever is registered then, after each of them the
music of the frame plays exactly if it was registered when the music last changed, what plays
rests exactly if the frame is paused, and the frame has started its music exactly if the
frame before asked for other music and it is registered. -/
theorem music_presentAll (music sound : Float32) (before : List Showing) (last : Showing) :
    let all := (Audio.fresh music sound).presentAll (before ++ [last])
    let deck := all.2.foldl Deck.after .start
    (∀ name, deck.playing = some name ↔ last.frame.music = some name ∧
        ∃ s, ChangedAt (before ++ [last]) s ∧ s.registry.contains name = true) ∧
      (deck.playing = none ∨ deck.paused = last.frame.paused) ∧
      ∃ calls, all.2 = ((Audio.fresh music sound).presentAll before).2 ++ calls ∧
        calls.filterMap AudioCall.started? =
          if last.frame.music = wantedMusic before then []
          else (last.frame.music.filter last.registry.contains).toList := by
  intro all deck
  have htuned : Tuned (before ++ [last]) all.1 deck := .presentAll music sound (before ++ [last])
  have hbefore := (Tuned.presentAll music sound before).remembered
  refine ⟨fun name => ?_, ?_, ?_⟩
  · rw [htuned.plays, wantedMusic_concat]
  · have hpaused : all.1.musicPaused = last.frame.paused := by
      simp only [all, Audio.presentAll_concat, Audio.present_eq]
      rfl
    exact hpaused ▸ htuned.rests
  · refine ⟨(((Audio.fresh music sound).presentAll before).1.present last.registry last.frame).2,
      by simp only [all, Audio.presentAll_concat], ?_⟩
    rw [started?_present, hbefore]

end VisualNovel

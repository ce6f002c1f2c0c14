import VisualNovel.Proofs.Playback.Offered
import VisualNovel.Proofs.Playback.Portraits
import VisualNovel.Proofs.Presentation.Screen
import VisualNovel.Proofs.Session.Run

/-!
# When a session settles

The portraits and the choices of a frame have places in a quartet, so that they can always be
counted from one. What remains is the scene in the heading: a session settles to its end unless it
is in a scene with the largest index of 64 bits.
-/

namespace VisualNovel

/-- A frame with portraits and choices that have a place. -/
structure Frame.Placed (f : Frame) : Prop where
  slot_lt (s : Sprite) (h : s ∈ f.sprites) : s.slot < Quartet.size
  index_lt (o : OfferedChoice) (h : o ∈ f.choices) : o.index < Quartet.size

/-- Of the calls that draw such a frame, only the first one may be impossible to count. -/
theorem Frame.Placed.all_isCountable {f : Frame} (h : f.Placed)
    (texture? : String → Option Texture) :
    (f.draw texture?).all (·.isCountable) = (DrawCall.start f.state).isCountable := by
  have hsize : Quartet.size < Text.maxIndex := by decide
  have hcontents : (f.contents texture?).all (·.isCountable) = true := by
    rw [List.all_eq_true]
    intro call hcall
    cases Console.draws_of_mem_contents hcall with
    | sprite hs _ => exact decide_eq_true (Nat.lt_trans (h.slot_lt _ hs) hsize)
    | choices =>
      rw [DrawCall.isCountable, List.all_eq_true]
      exact fun o ho => decide_eq_true (Nat.lt_trans (h.index_lt o ho) hsize)
    | _ => rfl
  rw [Frame.draw, List.all_cons, List.all_append, hcontents]
  exact Bool.and_true _

namespace Engine

variable {τ : Type} {e : Engine τ}

/-- The choices that are offered have a place. -/
theorem index_lt_of_mem_offers {o : OfferedChoice} (h : o ∈ e.offers) : o.index < Quartet.size := by
  obtain ⟨_, scene, _, hlabel⟩ := mem_offers.mp h
  obtain ⟨choice, hchoice, _⟩ := Option.bind_eq_some_iff.mp hlabel
  exact Quartet.isSome_get?.mp (Option.isSome_of_eq_some hchoice)

/-- The portraits and choices in the frame of a tick have a place. -/
theorem placed_tick (e : Engine τ) (dt : Float32) (now : Nat) : (e.tick dt now).2.Placed := by
  constructor
  case slot_lt =>
    intro s hs
    obtain ⟨scene, _, speaker, hspeaker, _⟩ := (depicts_snd_tick e dt now).drawn.mp hs
    exact Quartet.isSome_get?.mp (Option.isSome_of_eq_some hspeaker)
  case index_lt =>
    rw [choices_snd_tick]
    exact fun o ho => index_lt_of_mem_offers ho

/-- The frame of a tick shows the state that the engine is in. -/
theorem state_snd_tick (e : Engine τ) (dt : Float32) (now : Nat) :
    (e.tick dt now).2.state = e.state := by
  cases hs : e.currentScene with
  | none =>
    rw [tick, hs]
    rfl
  | some scene =>
    obtain ⟨reveal, history, recorded, htick⟩ := e.exists_fst_tick dt now
    rw [snd_tick hs, htick]
    rfl

/-- A tick leaves the state as it is. -/
theorem state_fst_tick (e : Engine τ) (dt : Float32) (now : Nat) :
    (e.tick dt now).1.state = e.state := by
  obtain ⟨reveal, history, recorded, htick⟩ := e.exists_fst_tick dt now
  rw [htick]

end Engine

namespace Session

variable {s s₁ : Session}

/-- While the text appears, the frame stays in the same state, with portraits and choices that have
a place. -/
theorem placed_tickUntilShown (now n : Nat) {e : Engine Texture} {f : Frame} (hplaced : f.Placed)
    (hstate : f.state = e.state) : (tickUntilShown now n e f).2.Placed ∧
      (tickUntilShown now n e f).2.state = e.state := by
  induction n generalizing e f with
  | zero => exact ⟨hplaced, hstate⟩
  | succ n ih =>
    rw [tickUntilShown]
    split
    · exact ⟨hplaced, hstate⟩
    · obtain ⟨hrest, hsame⟩ := ih (e.placed_tick frameTime now)
        ((e.state_snd_tick frameTime now).trans (e.state_fst_tick frameTime now).symm)
      exact ⟨hrest, hsame.trans (e.state_fst_tick frameTime now)⟩

/-- The frame that is presented next shows the state of the session, and its portraits and choices
have a place. -/
theorem placed_shown (s : Session) : s.shown.2.Placed ∧ s.shown.2.state = s.engine.state := by
  obtain ⟨hplaced, hstate⟩ := placed_tickUntilShown s.clock.seconds (maxFrames - 1)
    (s.engine.placed_tick frameTime s.clock.seconds)
    ((s.engine.state_snd_tick frameTime s.clock.seconds).trans
      (s.engine.state_fst_tick frameTime s.clock.seconds).symm)
  exact ⟨hplaced, hstate.trans (s.engine.state_fst_tick frameTime s.clock.seconds)⟩

/-- A frame is presented if the console has its lines. -/
theorem isSome_present? (s : Session) (f : Frame) : (s.present? f).isSome =
    (f.draw fun name => s.engine.texture? (some name)).all (·.isCountable) := by
  rw [present?, Console.present_draw]
  split
  · next hcountable =>
    rw [hcountable]
    rfl
  · next hnot =>
    rw [Bool.eq_false_iff.mpr hnot]
    rfl

/-- The frame is presented unless the scene in its heading cannot be counted. -/
theorem isSome_presented? (s : Session) :
    s.presented?.isSome = (DrawCall.start s.engine.state).isCountable := by
  obtain ⟨hplaced, hstate⟩ := s.placed_shown
  rw [presented?, Option.isSome_map, isSome_present?, hplaced.all_isCountable, hstate]

/-- A session settles to its end unless the scene in its heading cannot be counted. -/
theorem isSome_settle (s : Session) :
    s.settle.2.isSome = (DrawCall.start s.engine.state).isCountable := by
  rw [← isSome_presented?]
  cases h : s.presented? with
  | none =>
    rw [settle_of_none h]
    rfl
  | some s₁ =>
    rw [settle_of_some h]
    rfl

end Session

end VisualNovel

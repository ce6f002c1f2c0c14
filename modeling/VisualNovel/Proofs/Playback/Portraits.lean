import VisualNovel.Proofs.Dialogue.Talkers
import VisualNovel.Proofs.Playback.Run

/-!
# Portraits

A frame shows the portraits of the speakers of the current scene, in the order of their slots.
A speaker without a texture to draw has no portrait, and a portrait stands out exactly if its
slot is the focus. The focus and the banner are those of the dialogue; the text may still be
appearing.
-/

namespace VisualNovel

namespace Frame

variable {layout : Layout} {focus : Focus} {scene : Scene} {slot : Nat} {speaker : Speaker}
  {sprite : Sprite}

/-- A speaker has a sprite just if its portrait has a part; the sprite has the slot, all parts, and
the focus of the speaker. -/
theorem sprite?_eq_some_iff : sprite? layout focus slot speaker = some sprite ↔
    sprite.slot = slot ∧ sprite.parts = speaker.portrait layout ∧ sprite.parts ≠ [] ∧
      (sprite.focused = true ↔ focus = .speaker slot) := by
  obtain ⟨place, parts, focused⟩ := sprite
  rw [sprite?, ← beq_iff_eq (a := focus), ← Bool.eq_iff_iff]
  split
  · next h =>
    rw [h]
    exact iff_of_false (by simp) fun hall => hall.2.2.1 hall.2.1
  · next part rest h =>
    rw [h, Option.some.injEq, Sprite.mk.injEq]
    constructor
    · rintro ⟨rfl, rfl, rfl⟩
      exact ⟨rfl, rfl, List.cons_ne_nil _ _, rfl⟩
    · rintro ⟨rfl, rfl, _, hfocused⟩
      exact ⟨rfl, rfl, hfocused.symm⟩

/-- The portraits of a scene are those of its speakers that have something to draw. -/
theorem mem_spritesOf : sprite ∈ spritesOf layout focus scene ↔
    ∃ speaker, scene.speakers.get? sprite.slot = some speaker ∧
      sprite.parts = speaker.portrait layout ∧ sprite.parts ≠ [] ∧
      (sprite.focused = true ↔ focus = .speaker sprite.slot) := by
  rw [spritesOf, List.mem_filterMap]
  constructor
  · rintro ⟨⟨speaker, slot⟩, hspeaker, hsprite⟩
    obtain ⟨rfl, hrest⟩ := sprite?_eq_some_iff.mp hsprite
    exact ⟨speaker, Quartet.mem_zipIdx.mp hspeaker, hrest⟩
  · rintro ⟨speaker, hspeaker, hrest⟩
    exact ⟨(speaker, sprite.slot), Quartet.mem_zipIdx.mpr hspeaker,
      sprite?_eq_some_iff.mpr ⟨rfl, hrest⟩⟩

/-- The sprites stand in the order of their slots. -/
theorem pairwise_spritesOf (layout : Layout) (focus : Focus) (scene : Scene) :
    (spritesOf layout focus scene).Pairwise (·.slot < ·.slot) := by
  refine scene.speakers.pairwise_zipIdx.filterMap _ ?_
  intro ⟨s, i⟩ ⟨t, j⟩ hij a ha b hb
  rw [(sprite?_eq_some_iff.mp ha).1, (sprite?_eq_some_iff.mp hb).1]
  exact hij

end Frame

namespace Engine

variable {τ : Type}

/-- A frame depicts who is there in the current scene of an engine. -/
structure Depicts (e : Engine τ) (f : Frame) : Prop where
  /-- The focus is that of the dialogue. -/
  focused : f.focus = (e.dialogue?.map (·.focus)).getD .nobody
  /-- So is the banner. -/
  named : f.banner = (e.dialogue?.map (·.banner)).getD ""
  /-- A portrait is there exactly if a speaker of the scene has something to draw, and it
  stands out exactly if the slot is the focus. -/
  drawn {sprite : Sprite} : sprite ∈ f.sprites ↔
    ∃ scene ∈ e.currentScene, ∃ speaker, scene.speakers.get? sprite.slot = some speaker ∧
      sprite.parts = speaker.portrait e.settings.layout ∧ sprite.parts ≠ [] ∧
      (sprite.focused = true ↔ f.focus = .speaker sprite.slot)
  /-- The portraits are in the order of their slots. -/
  ordered : f.sprites.Pairwise (·.slot < ·.slot)

/-- The frame of the next tick depicts the scene as it is before the tick. -/
theorem depicts_snd_tick (e : Engine τ) (dt : Float32) (now : Nat) :
    Depicts e (e.tick dt now).2 := by
  cases hs : e.currentScene with
  | none =>
    have hframe : (e.tick dt now).2 = .menu e.state e.status e.settings.editing := by
      rw [tick, hs]
    rw [hframe]
    constructor
    case focused => rw [dialogue?, hs]; rfl
    case named => rw [dialogue?, hs]; rfl
    case drawn => simp [Frame.menu, hs]
    case ordered => exact List.Pairwise.nil
  | some scene =>
    obtain ⟨reveal, history, recorded, htick⟩ := e.exists_fst_tick dt now
    rw [snd_tick hs, htick]
    constructor
    case focused => rw [dialogue?, hs]; rfl
    case named => rw [dialogue?, hs]; rfl
    case drawn =>
      intro sprite
      simp only [hs, Option.mem_some_iff, exists_eq_left']
      exact Frame.mem_spritesOf
    case ordered => exact Frame.pairwise_spritesOf _ _ scene

/-- Whatever a scene is and whoever plays, its dialogue is what those who talk in it say; and
whatever an engine is like, its next frame shows that dialogue with the portraits of the scene. -/
theorem says_ofScene_and_depicts_tick :
    (∀ (scene : Scene) (player : String),
      Dialogue.Says scene player (Dialogue.ofScene scene player)) ∧
    ∀ (e : Engine τ) (dt : Float32) (now : Nat), Depicts e (e.tick dt now).2 :=
  ⟨Dialogue.says_ofScene, depicts_snd_tick⟩

end Engine

end VisualNovel

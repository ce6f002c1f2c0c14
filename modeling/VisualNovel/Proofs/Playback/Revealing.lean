import VisualNovel.Proofs.Playback.Coherence
import VisualNovel.Proofs.Reveal

/-!
# Texts that appear while a game is played

The engine does nothing to a text that appears but to begin it anew and to give it time. So in
every engine that a run leads to it has appeared as far as some events would have let it; a
paused tick leaves it; and the frame of a tick shows the whole text of the scene exactly if the
engine says that the text is complete.
-/

namespace VisualNovel.Engine

open MonadAttach LawfulMonadAttach

variable {τ : Type} {e e' : Engine τ}

/-- Nothing has happened to the text that appears, or it was begun anew. -/
def Begun (e e' : Engine τ) : Prop := e'.reveal = e.reveal ∨ e'.reveal = .start

/-- A step leaves the text as it has appeared, or begins it anew. -/
theorem begun_stepForward (e : Engine τ) : Begun e e.stepForward := by
  rcases e.exists_stepForward with hstay | ⟨scene, hmove⟩
  · rw [hstay]
    exact Or.inl rfl
  · rw [hmove]
    exact Or.inr rfl

/-- An edit leaves the text as it has appeared, or begins it anew. -/
theorem begun_of_edited {i : Nat} {input : EditorInput} (h : Edited e i input e') :
    Begun e e' := by
  cases h with
  | jump _ => exact Or.inr rfl
  | append _ _ => exact Or.inl rfl
  | duplicate _ _ => exact Or.inl rfl
  | remove _ _ _ => exact Or.inr rfl
  | change _ _ _ _ => exact Or.inl rfl

/-- An accepted input leaves the text as it has appeared, or begins it anew. -/
theorem begun_of_accepts {input : Input} (h : Accepts e input (.done e')) : Begun e e' := by
  cases h with
  | advance _ _ => exact e.begun_stepForward
  | choose _ _ _ _ =>
    split
    · exact Or.inl rfl
    · exact e.begun_stepForward
  | exitToMainMenu => exact Or.inr rfl
  | editor hedit =>
    obtain ⟨_, _, _, _, hedited⟩ := edited_of_edit hedit
    exact begun_of_edited hedited
  | _ => exact Or.inl rfl

/-- No input gives a text time. -/
theorem begun_of_answers {input : Input} {now : Nat} {result : Except Refusal Unit}
    (h : Answers e input now (e', result)) : Begun e e' := by
  cases h with
  | refused _ => exact Or.inl rfl
  | done haccepts => exact begun_of_accepts haccepts
  | unplayable _ hloads _ =>
    rw [hloads.rest]
    exact Or.inl rfl
  | entered _ _ _ _ hentered =>
    obtain ⟨_, _, _, rfl⟩ := enterLoaded_eq_ok hentered
    exact Or.inr rfl

/-- A text that appears in a scenario has appeared as far as some events let it. -/
def Revealed (e : Engine τ) : Prop := ∃ events, e.reveal = Reveal.ofEvents events

/-- A text that is left or begun anew has appeared as far as some events let it. -/
theorem Revealed.begun (h : e.Revealed) (hbegun : Begun e e') : e'.Revealed := by
  rcases hbegun with hkept | hstart
  · obtain ⟨events, hevents⟩ := h
    exact ⟨events, hkept.trans hevents⟩
  · exact ⟨[], hstart⟩

/-- What is recorded does not change how far a text has appeared. -/
theorem reveal_recordDialogue (e : Engine τ) (now : Nat) (d : Dialogue) :
    (e.recordDialogue now d).reveal = e.reveal := by
  obtain ⟨history, recorded, hrecord⟩ := e.exists_recordDialogue now d
  rw [hrecord]

/-- A tick is one more event. -/
theorem Revealed.tick (h : e.Revealed) (dt : Float32) (now : Nat) : (e.tick dt now).1.Revealed := by
  rw [Engine.tick]
  split
  · exact h
  · next scene _ =>
    obtain ⟨events, hevents⟩ := h
    rw [Revealed, reveal_recordDialogue, revealText]
    split
    · let text := (Dialogue.ofScene scene e.player).text
      refine ⟨events ++ [.step text dt e.settings.textSpeed e.paused], ?_⟩
      rw [Reveal.ofEvents_concat, hevents]
      rfl
    · exact ⟨events, hevents⟩

section Run

variable {m : Type → Type} [Monad m] [LawfulMonad m] [MonadAttach m] [LawfulMonadAttach m]
  {source : Source m τ}

/-- After every call a text has appeared as far as some events let it. -/
theorem Revealed.call (h : e.Revealed) {c : Call} (hc : CanReturn (e.call source c) e') :
    e'.Revealed := by
  cases c with
  | handle input now =>
    obtain ⟨result, hanswers⟩ := exists_answers_of_canReturn_call hc
    exact h.begun (begun_of_answers hanswers)
  | tick dt now =>
    obtain rfl := eq_of_canReturn_pure hc
    exact h.tick dt now
  | rescan ls =>
    obtain rfl := eq_of_canReturn_pure hc
    split
    · next hrescan =>
      rw [rescanListed] at hrescan
      split at hrescan
      · cases hrescan
      · cases hrescan
        exact h
    · exact h
  | setCatalog names =>
    obtain rfl := eq_of_canReturn_pure hc
    exact h
  | takeReports =>
    obtain rfl := eq_of_canReturn_pure hc
    exact h

/-- In every engine that a run leads to, a text has appeared as far as some events let it. -/
theorem revealed_of_canReturn_run {settings : Settings} {ls : List Listing} {calls : List Call}
    (h : CanReturn ((startListed settings ls).run source calls) e) : e.Revealed :=
  of_canReturn_run (fun _ _ _ _ he hc => he.call hc) ⟨[], rfl⟩ h

end Run

/-- A tick leaves what the scene says alone. -/
theorem dialogue?_tick (e : Engine τ) (dt : Float32) (now : Nat) :
    (e.tick dt now).1.dialogue? = e.dialogue? := by
  obtain ⟨reveal, history, recorded, htick⟩ := e.exists_fst_tick dt now
  rw [htick]
  rfl

/-- The frame of a scene shows the whole text exactly if the engine says that it is complete. -/
theorem text_sceneFrame_eq_iff {s : Scene} {d : Dialogue} (h : e.dialogue? = some d) :
    (e.sceneFrame s d).text = d.text ↔ e.textComplete = true := by
  rw [sceneFrame, textComplete, h]
  cases e.settings.animated with
  | false => simp
  | true => simpa using e.reveal.visible_eq_iff d.text

/-- A text appears by at most one character a step and not beyond its end, a paused step changes
nothing, and what is seen of a text is the beginning that has appeared, cut between characters,
and all of it exactly if the text is complete. So it is in every engine that a run leads to: the
text of its scene has appeared in this way, and while a scenario is being played a tick shows
the whole text exactly if the text is complete behind the tick. -/
theorem advances_step_and_text_tick_eq_iff :
    (∀ events : List Reveal.Event,
      let r := Reveal.ofEvents events
      (∀ text dt speed paused, Reveal.Advances text r (r.step text dt speed paused)) ∧
        (∀ text dt speed, r.step text dt speed true = r) ∧
        ∀ text, r.Shows text (r.visible text)) ∧
    ∀ {σ τ : Type} (source : Source (StateM σ) τ) (settings : Settings) (ls : List Listing)
      (calls : List Call) (s : σ),
      let e := (((startListed settings ls).run source calls).run s).1
      (∃ events, e.reveal = Reveal.ofEvents events) ∧
        ∀ dt now,
          let (e', frame) := e.tick dt now
          match e.state with
          | .playing _ _ =>
            ∃ d, e.dialogue? = some d ∧ e'.dialogue? = some d ∧
              (frame.text = d.text ↔ e'.textComplete = true)
          | _ => frame.text = "" ∧ e'.textComplete = true := by
  refine ⟨fun events => ?_, fun {σ τ} source settings ls calls s => ?_⟩
  · intro r
    have hcalm : r.Calm := Reveal.calm_ofEvents events
    exact ⟨r.advances_step, hcalm.step_paused, r.shows_visible⟩
  · intro e
    have hcoherent : e.Coherent := coherent_of_canReturn_run (canReturn_fst_run _ s)
    refine ⟨revealed_of_canReturn_run (canReturn_fst_run _ s), fun dt now => ?_⟩
    dsimp only
    cases hs : e.state with
    | playing scenario scene =>
      obtain ⟨k, entry, hheld⟩ := hcoherent.held hs
      obtain ⟨shown, hscene, hframe⟩ := hheld.exists_snd_tick hs dt now
      have hdialogue : e.dialogue? = some (Dialogue.ofScene shown e.player) := by
        rw [dialogue?, hscene]
        rfl
      have hafter := (e.dialogue?_tick dt now).trans hdialogue
      refine ⟨_, hdialogue, hafter, ?_⟩
      rw [hframe]
      exact text_sceneFrame_eq_iff hafter
    | _ =>
      have hnone : e.currentScene = none := currentScene_eq_none (by rw [hs]; rfl)
      rw [tick, hnone]
      exact ⟨rfl, by simp [textComplete, dialogue?, hnone]⟩

end VisualNovel.Engine

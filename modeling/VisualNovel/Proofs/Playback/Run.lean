import VisualNovel.Playback.Frame
import VisualNovel.Proofs.Playback.Answer

/-!
# Runs

A run is a sequence of calls, each of which may ask the source. What every call keeps holds
after the whole run, whatever the source answers on the way.
-/

namespace VisualNovel

open MonadAttach LawfulMonadAttach

/-- What an effect with a state gives is among the results it can return. -/
theorem canReturn_fst_run {σ α : Type} (x : StateM σ α) (s : σ) : CanReturn x (x.run s).1 :=
  ⟨s, (x.run s).2, rfl⟩

/-- What an answer at once gives is what it can return. -/
theorem canReturn_run {α : Type} (x : Id α) : CanReturn x x.run := rfl

/-- What can be asked of an engine. -/
inductive Call where
  | handle (input : Input) (now : Nat)
  | tick (dt : Float32) (now : Nat)
  | rescan (ls : List Listing)
  | setCatalog (names : List String)
  | takeReports

namespace Engine

variable {τ : Type} {m : Type → Type} [Monad m]

/-- The engine after a call. -/
def call (source : Source m τ) (e : Engine τ) : Call → m (Engine τ)
  | .handle input now => Prod.fst <$> e.handle source now input
  | .tick dt now => pure (e.tick dt now).1
  | .rescan ls => pure (match e.rescanListed ls with
    | .ok e' => e'
    | .error _ => e)
  | .setCatalog names => pure (e.setCatalog names)
  | .takeReports => pure e.takeReports.2

/-- The engine after some calls, one after the other. -/
def run (source : Source m τ) (calls : List Call) (e : Engine τ) : m (Engine τ) :=
  calls.foldlM (call source) e

section Traced

variable {ε α β γ : Type}

/-- Some steps, one after the other, with what each of them tells. -/
def traced (step : ε → α → m (β × ε)) : List α → ε → m (List β × ε)
  | [], e => pure ([], e)
  | a :: as, e => do
    let (b, e) ← step e a
    let (bs, e) ← traced step as e
    return (b :: bs, e)

variable [LawfulMonad m]

/-- What is told does not change where the steps lead. -/
theorem snd_traced {step : ε → α → m (β × ε)} {plain : ε → γ → m ε} {f : α → γ}
    (hstep : ∀ e a, Prod.snd <$> step e a = plain e (f a)) (as : List α) (e : ε) :
    Prod.snd <$> traced step as e = (as.map f).foldlM plain e := by
  induction as generalizing e with
  | nil => simp only [traced, List.map_nil, List.foldlM_nil, map_pure]
  | cons a as ih =>
    have htail : ∀ e, (as.map f).foldlM plain e = Prod.snd <$> traced step as e :=
      fun e => (ih e).symm
    simp only [traced, List.map_cons, List.foldlM_cons, ← hstep, bind_map_left, map_bind,
      Functor.map_map, htail, bind_pure_comp]

/-- What every step keeps, together with all that was told so far, holds after all steps. -/
theorem of_canReturn_traced [MonadAttach m] [LawfulMonadAttach m] {step : ε → α → m (β × ε)}
    {P : ε → List β → Prop} {as : List α} {e e' : ε} {told bs : List β}
    (hstep : ∀ a e e' told b, P e told → CanReturn (step e a) (b, e') → P e' (told ++ [b]))
    (he : P e told) (h : CanReturn (traced step as e) (bs, e')) : P e' (told ++ bs) := by
  induction as generalizing e told bs with
  | nil =>
    cases eq_of_canReturn_pure h
    rwa [List.append_nil]
  | cons a as ih =>
    obtain ⟨⟨b, e₁⟩, hone, h⟩ := canReturn_bind_imp' h
    obtain ⟨⟨rest, e₂⟩, hrest, h⟩ := canReturn_bind_imp' h
    cases eq_of_canReturn_pure h
    rw [← List.singleton_append, ← List.append_assoc]
    exact ih (hstep a e e₁ told b he hone) hrest

end Traced

/-- A text that appears changes nothing else of the engine. -/
theorem exists_revealText (e : Engine τ) (dt : Float32) (d : Dialogue) :
    ∃ reveal, e.revealText dt d = { e with reveal } := by
  rw [revealText]
  split
  · exact ⟨_, rfl⟩
  · exact ⟨e.reveal, rfl⟩

/-- A dialogue that is recorded changes the history, and whether it was recorded. -/
theorem exists_recordDialogue (e : Engine τ) (now : Nat) (d : Dialogue) :
    ∃ history recorded, e.recordDialogue now d = { e with history, recorded } := by
  rw [recordDialogue]
  split
  · exact ⟨_, _, rfl⟩
  · exact ⟨e.history, e.recorded, rfl⟩

/-- A tick moves the text on and may write down what is said, and that is all. -/
theorem exists_fst_tick (e : Engine τ) (dt : Float32) (now : Nat) :
    ∃ reveal history recorded, (e.tick dt now).1 = { e with reveal, history, recorded } := by
  rw [tick]
  split
  · exact ⟨e.reveal, e.history, e.recorded, rfl⟩
  · next scene _ =>
    obtain ⟨reveal, hreveal⟩ := e.exists_revealText dt (Dialogue.ofScene scene e.player)
    obtain ⟨history, recorded, hrecord⟩ := exists_recordDialogue { e with reveal } now
      (Dialogue.ofScene scene e.player)
    exact ⟨reveal, history, recorded, by simp only [hreveal, hrecord]⟩

/-- The frame of a tick is that of the scene, as the engine is after the tick. -/
theorem snd_tick {e : Engine τ} {s : Scene} (hscene : e.currentScene = some s) (dt : Float32)
    (now : Nat) :
    (e.tick dt now).2 = (e.tick dt now).1.sceneFrame s (Dialogue.ofScene s e.player) := by
  rw [tick, hscene]

section Keep

variable [LawfulMonad m] [MonadAttach m] [LawfulMonadAttach m] {source : Source m τ}
  {e e' : Engine τ} {P : Engine τ → Prop}

/-- What every call keeps is kept by a run. -/
theorem of_canReturn_run {calls : List Call}
    (hcall : ∀ c ∈ calls, ∀ e e', P e → CanReturn (e.call source c) e' → P e')
    (he : P e) (h : CanReturn (e.run source calls) e') : P e' := by
  induction calls generalizing e with
  | nil =>
    obtain rfl := eq_of_canReturn_pure h
    exact he
  | cons c calls ih =>
    rw [run, List.foldlM_cons] at h
    obtain ⟨e₁, hone, h⟩ := canReturn_bind_imp' h
    rw [List.forall_mem_cons] at hcall
    exact ih hcall.2 (hcall.1 e e₁ he hone) h

/-- An input that is called for is answered. -/
theorem exists_answers_of_canReturn_call {input : Input} {now : Nat}
    (h : CanReturn (e.call source (.handle input now)) e') :
    ∃ result, Answers e input now (e', result) := by
  obtain ⟨⟨e₁, result⟩, hhandle, rfl⟩ := canReturn_map_imp' h
  exact ⟨result, answers_of_canReturn_handle hhandle⟩

end Keep

end Engine

end VisualNovel

import VisualNovel.Proofs.Playback.Run

/-!
# Refused inputs

A refused input leaves the game as it was. Only the status line says why, and a scenario
that was loaded in order to be entered stays loaded although it could not be. An edit that
is refused has not even loaded anything.
-/

namespace VisualNovel.Engine

open MonadAttach LawfulMonadAttach

variable {τ : Type} {e e' : Engine τ} {input : Input} {reason : Refusal}

/-- What a refused input leaves of an engine. -/
structure Refused (e : Engine τ) (input : Input) (reason : Refusal) (e' : Engine τ) : Prop where
  rest : e' = { e with
    store := e'.store
    reports := e'.reports
    status := some reason.message }
  kept : ∀ i entry, e.store.get? i = some entry → entry.loaded = true →
    e'.store.get? i = some entry
  loads : Loads e { e with store := e'.store, reports := e'.reports }
  whole : ∀ op, input = .editor op → e'.store = e.store ∧ e'.reports = e.reports

/-- A refusal changes nothing but the status. -/
theorem refused_refuse (e : Engine τ) (input : Input) (reason : Refusal) :
    Refused e input reason (e.refuse reason).1 where
  rest := rfl
  kept _ _ h _ := h
  loads := .refl
  whole _ _ := ⟨rfl, rfl⟩

/-- A refusal behind some loads keeps what they have loaded. -/
theorem Loads.refused_refuse (h : Loads e e') (hinput : ∀ op, input ≠ .editor op)
    (reason : Refusal) : Refused e input reason (e'.refuse reason).1 where
  rest := by
    rw [h.rest]
    rfl
  kept _ _ := h.get?_eq
  loads := by
    change Loads e { e with store := e'.store, reports := e'.reports }
    rw [← h.rest]
    exact h
  whole op hop := absurd hop (hinput op)

/-- No edit asks for a scenario to be entered. -/
theorem Accepts.ne_editor {entrance : Entrance} (h : Accepts e input (.enter entrance)) :
    ∀ op, input ≠ .editor op := by
  cases h <;> simp

/-- An input that is answered with a refusal is refused. -/
theorem Answers.refused_of_error {now : Nat} (h : Answers e input now (e', .error reason)) :
    Refused e input reason e' := by
  cases h with
  | refused _ => exact refused_refuse e input reason
  | unplayable haccepts hloads _ => exact hloads.refused_refuse haccepts.ne_editor reason

/-- Whatever the source answers, a refused input changes nothing but the status line, and
at most loads scenarios that were not loaded. -/
theorem handle_refused {σ : Type} (source : Source (StateM σ) τ) (e : Engine τ) (now : Nat)
    (input : Input) (s : σ) (reason : Refusal)
    (h : ((e.handle source now input).run s).1.2 = .error reason) :
    Refused e input reason ((e.handle source now input).run s).1.1 := by
  have hanswers := answers_of_canReturn_handle (canReturn_fst_run (e.handle source now input) s)
  generalize ((e.handle source now input).run s).1 = answer at h hanswers ⊢
  obtain ⟨e', result⟩ := answer
  obtain rfl : result = .error reason := h
  exact hanswers.refused_of_error

/-- A game whose only scenario is about to be chosen. -/
def chosenGame : Engine Unit :=
  (startListed ⟨.simple, .perScenario, false, true, Settings.defaultSpeed⟩
    [.found ⟨"a.sc", "a.sc", "textures", "sounds"⟩]).goToMenu .scenarioSelect

/-- A source that counts its questions and knows no scenes. -/
def emptySource : Source (StateM Nat) Unit where
  text _ := do
    modify (· + 1)
    return .ok ""
  textures _ := do
    modify (· + 1)
    return .error "missing"

/-- A scenario without scenes is loaded and then refused. -/
theorem handle_refused_emptyScenario :
    ((chosenGame.handle emptySource 0 (.startNewGame (some "a.sc") "Ann")).run 0).1.2 =
        .error (.emptyScenario "a.sc") ∧
      Refused chosenGame (.startNewGame (some "a.sc") "Ann") (.emptyScenario "a.sc")
        ((chosenGame.handle emptySource 0 (.startNewGame (some "a.sc") "Ann")).run 0).1.1 :=
  ⟨rfl, handle_refused emptySource chosenGame 0 (.startNewGame (some "a.sc") "Ann") 0
    (.emptyScenario "a.sc") rfl⟩

end VisualNovel.Engine

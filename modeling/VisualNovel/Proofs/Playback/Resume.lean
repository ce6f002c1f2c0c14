import VisualNovel.Proofs.Playback.Steady
import VisualNovel.Proofs.Playback.Transition
import VisualNovel.Proofs.Save

/-!
# Saving and resuming

Who saves in a scene, and opens the save in the same or another game over the same scenarios,
is in the scene again and sees and hears the same. The save names the scenario, and the name
finds the same scenario in both games; it gives the scene, which the scenario still has when
it is loaded anew; and it gives the player, whose name may have any characters.
-/

namespace VisualNovel

/-- What is seen and heard, whichever visit it is and whatever the status line says. -/
def Frame.content (f : Frame) : Frame :=
  { f with serial := 0, sound := f.sound.map fun cue => { cue with serial := 0 }, status := none }

namespace Engine

variable {τ : Type} {e e₁ e₂ : Engine τ}

/-- Without animation the frame of a tick has the content of a frame before it. -/
theorem content_snd_tick {s : Scene} (hscene : e.currentScene = some s)
    (hanimated : e.settings.animated = false) (dt : Float32) (now : Nat) :
    (e.tick dt now).2.content = (e.sceneFrame s (Dialogue.ofScene s e.player)).content := by
  obtain ⟨reveal, history, recorded, htick⟩ := e.exists_fst_tick dt now
  rw [snd_tick hscene, htick]
  simp only [sceneFrame, hanimated, Bool.false_eq_true, if_false]
  rfl

/-- What engines show that are in the same scene, with the same player, both paused or not. -/
theorem content_sceneFrame_congr (hsettings : e₁.settings = e₂.settings)
    (hstate : e₁.state = e₂.state) (hscene : e₁.currentScene = e₂.currentScene)
    (hpaused : e₁.paused = e₂.paused) (hanimated : e₂.settings.animated = false) (s : Scene)
    (d : Dialogue) : (e₁.sceneFrame s d).content = (e₂.sceneFrame s d).content := by
  have hopen : e₁.choicesOpen = e₂.choicesOpen := by
    rw [choicesOpen, choicesOpen, hpaused, hscene]
  simp [Frame.content, sceneFrame, hsettings, hstate, hpaused, hanimated, hopen,
    Function.comp_def]

/-- A position is that of the scene which is being played. -/
theorem position?_eq_some_iff {p : Position} :
    e.position? = some p ↔ e.state = .playing p.scenario p.scene ∧ e.player = p.player := by
  rw [position?]
  cases e.state with
  | playing scenario scene =>
    obtain ⟨scenario', player', scene'⟩ := p
    simp only [Option.some.injEq, Position.mk.injEq, State.playing.injEq]
    constructor
    · rintro ⟨rfl, rfl, rfl⟩
      exact ⟨⟨rfl, rfl⟩, rfl⟩
    · rintro ⟨⟨rfl, rfl⟩, rfl⟩
      exact ⟨rfl, rfl, rfl⟩
  | _ => simp

/-- A save is accepted in the menu of saves, if its scenario is listed. -/
theorem plan_loadSave {r : SaveRecord} {p : Position} {k : Nat} (hmenu : e.state = .saveSelect)
    (hr : r.toPosition = .ok p) (hlisted : e.store.findIndex? p.scenario = some k) :
    e.plan (.loadSave r) = .ok (.enter (.savedGame k p)) := by
  simp only [plan, planSavedGame, expect, if_pos hmenu, hr, hlisted]
  rfl

/-- What asks for a scenario loads it first. -/
theorem run_handle_of_plan {input : Input} {entrance : Entrance}
    (hplan : e.plan input = .ok (.enter entrance)) (source : Source Id τ) (now : Nat) :
    (e.handle source now input).run =
      (e.load source entrance.index).run.settle
        ((e.load source entrance.index).run.enterLoaded now entrance) := by
  rw [handle, hplan]
  rfl

/-- A saved game is entered at any scene that its scenario has. -/
theorem enterLoaded_savedGame {p : Position} {k now : Nat} {entry : Entry τ}
    (hentry : e.store.get? k = some entry) (hscene : p.scene < entry.scenes.length) :
    e.enterLoaded now (.savedGame k p) =
      .ok (({ e with player := p.player } : Engine τ).enter k p.scene) := by
  rw [enterLoaded_eq, Entrance.index, hentry, Entrance.scene, grantEntry_eq_ok_iff.mpr hscene]
  rfl

section Resume

variable {source : Source Id τ} {settings : Settings} {ds : List Descriptor} {p : Position}

/-- Everything in a position that was saved is there. -/
theorem Steady.toPosition (h : Steady source settings ds e) (hnamed : ∀ d ∈ ds, d.fileName ≠ "")
    (hp : e.position? = some p) : (SaveRecord.ofPosition p).toPosition = .ok p := by
  obtain ⟨hs, hplayer⟩ := position?_eq_some_iff.mp hp
  obtain ⟨k, entry, hheld⟩ := h.coherent.held hs
  obtain ⟨entry, hentry, hname⟩ := Store.exists_of_findIndex?_eq hheld.listed
  have hmem : entry.descriptor ∈ ds := by
    rw [← h.descriptors_eq]
    exact List.mem_map_of_mem (List.mem_of_getElem? hentry)
  exact SaveRecord.toPosition_ofPosition (hname ▸ hnamed _ hmem) (hplayer ▸ hheld.named)

/-- A game in which the save of another one is opened goes on where that one was. -/
theorem Steady.handle_loadSave (h₁ : Steady source settings ds e₁)
    (h₂ : Steady source settings ds e₂) (hp : e₁.position? = some p)
    (hmenu : e₂.state = .saveSelect) {r : SaveRecord} (hr : r.toPosition = .ok p) (now : Nat) :
    ∃ e, (e₂.handle source now (.loadSave r)).run = (e, .ok ()) ∧ e.settings = settings ∧
      e.position? = some p ∧ e.paused = false ∧ e.currentScene = e₁.currentScene := by
  obtain ⟨hs, _⟩ := position?_eq_some_iff.mp hp
  obtain ⟨k, entry, hheld⟩ := h₁.coherent.held hs
  -- the name stands for the same scenario in both games, which is then loaded in both
  have hlisted : e₂.store.findIndex? p.scenario = some k := by
    rw [← hheld.listed]
    exact Store.findIndex?_congr (h₂.descriptors_eq.trans h₁.descriptors_eq.symm) _
  have hhandle := run_handle_of_plan (plan_loadSave hmenu hr hlisted) source now
  obtain ⟨hloads, hready⟩ := loads_load source k e₂
  have hload : Steady source settings ds (e₂.load source k).run := h₂.load k
  obtain ⟨e', he'⟩ : ∃ e', (e₂.load source k).run = e' := ⟨_, rfl⟩
  rw [Entrance.index, he'] at hhandle
  rw [he'] at hloads hready hload
  have hentry : e'.store.get? k = some entry :=
    h₁.get?_eq hload hheld.present hheld.loaded hready
  rw [enterLoaded_savedGame hentry hheld.scene_lt] at hhandle
  have hstate : (({ e' with player := p.player } : Engine τ).enter k p.scene).state =
      .playing p.scenario p.scene :=
    state_enter ((hloads.findIndex?_eq p.scenario).trans hlisted)
  refine ⟨({ e' with player := p.player } : Engine τ).enter k p.scene, hhandle, hload.settings_eq,
    position?_eq_some_iff.mpr ⟨hstate, rfl⟩, rfl, ?_⟩
  rw [currentScene_eq hstate rfl hentry, hheld.currentScene_eq hs]

/-- A position whose scene is an index of 64 bits is read from the text of its save; and a
game over the same scenarios in which the save is opened goes on at this position, where it
shows what was shown, unless the text is still to appear or the game was paused. -/
theorem resume (source : Source Id τ) (settings : Settings) (hediting : settings.editing = false)
    (ds : List Descriptor) (hnamed : ∀ d ∈ ds, d.fileName ≠ "") (calls₁ calls₂ : List Call)
    (hlisted₁ : ∀ ls, .rescan ls ∉ calls₁) (hlisted₂ : ∀ ls, .rescan ls ∉ calls₂)
    (p : Position) (hp : ((start settings ds).run source calls₁).run.position? = some p)
    (hindex : p.scene ≤ Text.maxIndex) :
    let e₁ := ((start settings ds).run source calls₁).run
    let e₂ := ((start settings ds).run source calls₂).run
    ∃ r, SaveRecord.ofText (SaveRecord.ofPosition p).toText = .ok r ∧ r.toPosition = .ok p ∧
      (e₂.state = .saveSelect → ∀ now, ∃ e,
        (e₂.handle source now (.loadSave r)).run = (e, .ok ()) ∧ e.position? = some p ∧
          (settings.animated = false → e₁.paused = false → ∀ dt dt₁ now' now₁,
            (e.tick dt now').2.content = (e₁.tick dt₁ now₁).2.content)) := by
  intro e₁ e₂
  have h₁ : Steady source settings ds e₁ := (Steady.start source settings ds).run hediting hlisted₁
  have h₂ : Steady source settings ds e₂ := (Steady.start source settings ds).run hediting hlisted₂
  have hposition : (SaveRecord.ofPosition p).toPosition = .ok p := h₁.toPosition hnamed hp
  have hread : SaveRecord.ofText (SaveRecord.ofPosition p).toText = .ok (.ofPosition p) := by
    apply SaveRecord.ofText_toText rfl
    rintro scene ⟨⟩
    exact hindex
  refine ⟨.ofPosition p, hread, hposition, fun hmenu now => ?_⟩
  obtain ⟨e, hhandle, hsettings, hpe, hpaused, hscene⟩ :=
    h₁.handle_loadSave h₂ hp hmenu hposition now
  refine ⟨e, hhandle, hpe, fun hanimated hpaused₁ dt dt₁ now' now₁ => ?_⟩
  obtain ⟨hs, hplayer⟩ := position?_eq_some_iff.mp hpe
  obtain ⟨hs₁, hplayer₁⟩ := position?_eq_some_iff.mp hp
  obtain ⟨k, entry, hheld⟩ := h₁.coherent.held hs₁
  obtain ⟨s, hs', _⟩ := hheld.exists_snd_tick hs₁ dt₁ now₁
  rw [content_snd_tick (hscene.trans hs') (hsettings ▸ hanimated),
    content_snd_tick hs' (h₁.settings_eq ▸ hanimated), hplayer, ← hplayer₁]
  exact content_sceneFrame_congr (hsettings.trans h₁.settings_eq.symm) (hs.trans hs₁.symm) hscene
    (hpaused.trans hpaused₁.symm) (h₁.settings_eq ▸ hanimated) s _

end Resume

/-- A source whose every scenario has two scenes. -/
def twoSceneSource : Source Id Unit where
  text _ := pure (.ok "[scene_start]\n[scene_end]\n[scene_start]\na:b:c\n[scene_end]")
  textures _ := pure (.ok [])

/-- The calls of a game that is in its second scene, played by someone with quotes in the name. -/
def secondSceneCalls : List Call :=
  [.handle .openScenarioSelect 0, .handle (.startNewGame (some "a.sc") "\"Ann\"") 0, .tick 0 1,
    .handle .advance 1]

/-- A game with one scenario, after some calls. -/
def twoSceneGame (calls : List Call) : Engine Unit :=
  ((start ⟨.simple, .perScenario, false, false, Settings.defaultSpeed⟩
    [⟨"a.sc", "a.sc", "textures", "sounds"⟩]).run twoSceneSource calls).run

/-- A save of the second scene can be opened in another game, even by someone with quotes in
the name. -/
theorem resume_secondScene :
    (twoSceneGame secondSceneCalls).position? = some ⟨"a.sc", "\"Ann\"", 1⟩ ∧
      ∃ r, SaveRecord.ofText (SaveRecord.ofPosition ⟨"a.sc", "\"Ann\"", 1⟩).toText = .ok r ∧
        ∃ e, ((twoSceneGame [.handle .openSaveSelect 2]).handle twoSceneSource 3
            (.loadSave r)).run = (e, .ok ()) ∧ e.position? = some ⟨"a.sc", "\"Ann\"", 1⟩ ∧
          (e.tick 0 4).2.content = ((twoSceneGame secondSceneCalls).tick 0 4).2.content := by
  have hposition : (twoSceneGame secondSceneCalls).position? = some ⟨"a.sc", "\"Ann\"", 1⟩ := rfl
  have hpaused : (twoSceneGame secondSceneCalls).paused = false := rfl
  obtain ⟨r, hread, _, hresume⟩ := resume twoSceneSource
    ⟨.simple, .perScenario, false, false, Settings.defaultSpeed⟩ rfl
    [⟨"a.sc", "a.sc", "textures", "sounds"⟩] (by simp) secondSceneCalls [.handle .openSaveSelect 2]
    (by simp [secondSceneCalls]) (by simp) ⟨"a.sc", "\"Ann\"", 1⟩ hposition (by decide)
  obtain ⟨e, hhandle, hpositionAgain, hcontent⟩ := hresume rfl 3
  exact ⟨hposition, r, hread, e, hhandle, hpositionAgain, hcontent rfl hpaused 0 0 4 4⟩

end Engine

end VisualNovel

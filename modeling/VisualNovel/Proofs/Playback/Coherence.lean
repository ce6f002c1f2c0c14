import VisualNovel.Proofs.Playback.Run
import VisualNovel.Proofs.Text.Blank

/-!
# Coherent engines

While a scenario is being played, the engine holds it loaded, the scene exists, the player
has a name, and the scenario whose textures count is loaded as well. Outside a scenario
nothing is left of it. Every call keeps this, and so it holds of every engine that a run
leads to. In particular a tick never falls back to the frame of a menu while a scenario is
being played.
-/

namespace VisualNovel

open MonadAttach LawfulMonadAttach

/-- A position that is read from a save has a name for the player. -/
theorem SaveRecord.player_ne_of_toPosition {r : SaveRecord} {p : Position}
    (h : r.toPosition = .ok p) : p.player ≠ "" := by
  rw [toPosition] at h
  split at h
  · cases h
  · split at h
    · cases h
    · next hplayer =>
      split at h
      · cases h
      · cases h
        exact hplayer

namespace Engine

variable {τ : Type} {e e' : Engine τ}

/-- A scene of a scenario is being played, and all that this needs is there. -/
structure Held (e : Engine τ) (scenario : String) (scene k : Nat) (entry : Entry τ) : Prop where
  active : e.active = some k
  listed : e.store.findIndex? scenario = some k
  present : e.store.get? k = some entry
  loaded : entry.loaded = true
  scene_lt : scene < entry.scenes.length
  named : e.player ≠ ""
  shared : e.settings.lookup = .shared →
    ∀ i ∈ e.store.findIndex? sharedScenario, e.store.Ready i
  visited : 0 < e.serial

/-- No scenario is being played, and nothing is left of one. -/
structure Idle (e : Engine τ) : Prop where
  inactive : e.active = none
  unpaused : e.paused = false
  forgotten : e.history.events = []
  unrevealed : e.reveal = .start

/-- Whether the parts of an engine fit its state. -/
def Coherent (e : Engine τ) : Prop :=
  match e.state with
  | .playing scenario scene => ∃ k entry, e.Held scenario scene k entry
  | _ => e.Idle

/-- A coherent engine that plays holds what it plays. -/
theorem Coherent.held (h : e.Coherent) {scenario : String} {scene : Nat}
    (hs : e.state = .playing scenario scene) : ∃ k entry, e.Held scenario scene k entry := by
  rwa [Coherent, hs] at h

/-- A coherent engine that does not play has nothing left of a scenario. -/
theorem Coherent.idle (h : e.Coherent) (hs : e.state.isPlaying = false) : e.Idle := by
  rw [Coherent] at h
  cases hstate : e.state with
  | playing scenario scene => simp [hstate, State.isPlaying] at hs
  | _ => rwa [hstate] at h

/-- An engine that holds what it plays is coherent. -/
theorem Held.coherent {scenario : String} {scene k : Nat} {entry : Entry τ}
    (h : e.Held scenario scene k entry) (hs : e.state = .playing scenario scene) :
    e.Coherent := by
  rw [Coherent, hs]
  exact ⟨k, entry, h⟩

/-- An engine that does not play and has nothing left of a scenario is coherent. -/
theorem Idle.coherent (h : e.Idle) (hs : e.state.isPlaying = false) : e.Coherent := by
  rw [Coherent]
  cases hstate : e.state with
  | playing scenario scene => simp [hstate, State.isPlaying] at hs
  | _ => exact h

/-- An engine that plays is in a scene of a scenario. -/
theorem exists_playing (h : e.state.isPlaying = true) :
    ∃ scenario scene, e.state = .playing scenario scene := by
  cases hs : e.state with
  | playing scenario scene => exact ⟨scenario, scene, rfl⟩
  | _ => simp [hs, State.isPlaying] at h

section Moves

variable {scenario : String} {scene k : Nat} {entry : Entry τ}

/-- The active scenes are those of the entry that is played. -/
theorem Held.activeScenes (h : e.Held scenario scene k entry) : e.activeScenes = entry.scenes :=
  activeScenes_eq h.active h.present

/-- A jump within the scenario. -/
theorem Held.coherent_moveTo (h : e.Held scenario scene k entry)
    (hs : e.state = .playing scenario scene) {target : Nat}
    (htarget : target < entry.scenes.length) : (e.moveTo target).Coherent := by
  have hstate : (e.moveTo target).state = .playing scenario target := by
    simp only [moveTo, hs]
    rfl
  have hheld : (e.moveTo target).Held scenario target k entry :=
    ⟨h.active, h.listed, h.present, h.loaded, htarget, h.named, h.shared, Nat.succ_pos _⟩
  exact hheld.coherent hstate

/-- A step forward, if there is a scene to go to. -/
theorem Coherent.stepForward (h : e.Coherent) : e.stepForward.Coherent := by
  rw [Engine.stepForward]
  split
  · next i hi =>
    split
    · next hlength =>
      cases hs : e.state with
      | playing scenario scene =>
        obtain ⟨k, entry, hheld⟩ := h.held hs
        rw [hheld.activeScenes] at hlength
        exact hheld.coherent_moveTo hs hlength
      | _ => simp [hs, State.scene?] at hi
    · exact h
  · exact h

/-- From one menu to another an engine stays coherent. -/
theorem Coherent.goToMenu (h : e.Coherent) (he : e.state.isPlaying = false) {state : State}
    (hstate : state.isPlaying = false) : (e.goToMenu state).Coherent := by
  obtain ⟨hactive, hpaused, hhistory, hreveal⟩ := h.idle he
  exact Idle.coherent ⟨hactive, hpaused, hhistory, hreveal⟩ hstate

/-- An engine that has left its game is coherent. -/
theorem coherent_exit (e : Engine τ) : e.exit.Coherent :=
  Idle.coherent ⟨rfl, rfl, rfl, rfl⟩ rfl

/-- A pause leaves an engine coherent. -/
theorem Coherent.togglePause (h : e.Coherent) (hplaying : e.state.isPlaying = true) :
    ({ e with paused := !e.paused } : Engine τ).Coherent := by
  obtain ⟨scenario, scene, hs⟩ := exists_playing hplaying
  obtain ⟨k, entry, hheld⟩ := h.held hs
  exact Held.coherent { hheld with } hs

/-- Neither the status line nor the reports nor the catalog matter. -/
theorem Coherent.aside (h : e.Coherent) (status : Option String)
    (reports : List (String × LoadReport)) (catalog : List String) :
    ({ e with status, reports, catalog } : Engine τ).Coherent := by
  cases hplaying : e.state.isPlaying with
  | true =>
    obtain ⟨scenario, scene, hs⟩ := exists_playing hplaying
    obtain ⟨k, entry, hheld⟩ := h.held hs
    exact Held.coherent { hheld with } hs
  | false =>
    obtain ⟨hactive, hpaused, hhistory, hreveal⟩ := h.idle hplaying
    exact Idle.coherent ⟨hactive, hpaused, hhistory, hreveal⟩ hplaying

/-- Loads take nothing away from a scenario that is being played. -/
theorem Held.loads (h : e.Held scenario scene k entry) (hl : Loads e e') :
    e'.Held scenario scene k entry where
  active := hl.active_eq.trans h.active
  listed := (hl.findIndex?_eq scenario).trans h.listed
  present := hl.get?_eq h.present h.loaded
  loaded := h.loaded
  scene_lt := h.scene_lt
  named := hl.player_eq ▸ h.named
  shared := by
    rw [hl.findIndex?_eq, hl.settings_eq]
    exact fun hlookup i hi => hl.ready (h.shared hlookup i hi)
  visited := hl.serial_eq ▸ h.visited

/-- Loads leave an engine coherent. -/
theorem Coherent.loads (h : e.Coherent) (hl : Loads e e') : e'.Coherent := by
  cases hplaying : e.state.isPlaying with
  | true =>
    obtain ⟨scenario, scene, hs⟩ := exists_playing hplaying
    obtain ⟨k, entry, hheld⟩ := h.held hs
    exact (hheld.loads hl).coherent (hl.state_eq.trans hs)
  | false =>
    have hidle := h.idle hplaying
    rw [hl.rest]
    exact Idle.coherent { hidle with } hplaying

/-- A scenario that is entered after everything it needs was loaded. -/
theorem coherent_enter {name : String} (hlisted : e.store.findIndex? name = some k)
    (hentry : e.store.get? k = some entry) (hready : e.store.Ready k)
    (hscene : scene < entry.scenes.length) (hnamed : e.player ≠ "")
    (hshared : e.settings.lookup = .shared →
      ∀ i ∈ e.store.findIndex? sharedScenario, e.store.Ready i) :
    (e.enter k scene).Coherent := by
  obtain ⟨_, hother, rfl⟩ := Store.exists_of_findIndex?_eq hlisted
  obtain rfl := Option.some.inj (hentry.symm.trans hother)
  have hstate : (e.enter k scene).state = .playing entry.descriptor.fileName scene := by
    simp only [enter, hentry]
    rfl
  exact Held.coherent ⟨rfl, hlisted, hentry, hready entry hentry, hscene, hnamed, hshared,
    Nat.succ_pos _⟩ hstate

/-- A change of the scenes that leaves one to be played. -/
theorem Held.modifyScenes (h : e.Held scenario scene k entry) {f : List Scene → List Scene}
    {target : Nat} (htarget : target < (f entry.scenes).length) :
    ({ e with store := e.store.modifyScenes k f } : Engine τ).Held scenario target k
      { entry with scenes := f entry.scenes } where
  active := h.active
  listed := (Store.findIndex?_congr (Store.descriptors_modifyScenes h.present f) _).trans h.listed
  present := Store.get?_modifyScenes_self h.present f
  loaded := h.loaded
  scene_lt := htarget
  named := h.named
  shared hlookup i hi := by
    rw [Store.findIndex?_congr (Store.descriptors_modifyScenes h.present f)] at hi
    exact (h.shared hlookup i hi).modifyScenes h.present f
  visited := h.visited

/-- An accepted edit leaves an engine coherent. -/
theorem Coherent.edited (h : e.Coherent) (hs : e.state = .playing scenario scene)
    {input : EditorInput} (he : Edited e scene input e') : e'.Coherent := by
  obtain ⟨k, entry, hheld⟩ := h.held hs
  have hscene := hheld.scene_lt
  have hsame {j : Nat} {other : Entry τ} (hactive : e.active = some j)
      (hother : e.store.get? j = some other) : j = k ∧ other = entry := by
    obtain rfl := Option.some.inj (hactive.symm.trans hheld.active)
    exact ⟨rfl, Option.some.inj (hother.symm.trans hheld.present)⟩
  cases he with
  | jump htarget => exact hheld.coherent_moveTo hs (hheld.activeScenes ▸ htarget)
  | append hactive hother =>
    obtain ⟨rfl, rfl⟩ := hsame hactive hother
    exact (hheld.modifyScenes (by simp; omega)).coherent hs
  | duplicate hactive hother =>
    obtain ⟨rfl, rfl⟩ := hsame hactive hother
    exact (hheld.modifyScenes (by simp; omega)).coherent hs
  | remove hactive hother hlast =>
    obtain ⟨rfl, hentry⟩ := hsame hactive hother
    rw [hentry] at hlast
    have hlength : scene < (entry.scenes.eraseIdx scene).length := by
      rw [List.length_eraseIdx_of_lt hscene]
      omega
    exact (hheld.modifyScenes hlength).coherent_moveTo hs hlength
  | change hactive hother _ _ =>
    obtain ⟨rfl, rfl⟩ := hsame hactive hother
    exact (hheld.modifyScenes (by simpa using hscene)).coherent hs

end Moves

/-- An input that is accepted and enters nothing leaves an engine coherent. -/
theorem Coherent.accepts (h : e.Coherent) {input : Input} (ha : Accepts e input (.done e')) :
    e'.Coherent := by
  cases ha with
  | openScenarioSelect hs => exact h.goToMenu (by simp [hs, State.isPlaying]) rfl
  | openSaveSelect hs => exact h.goToMenu (by simp [hs, State.isPlaying]) rfl
  | back hs => exact h.goToMenu (by rcases hs with hs | hs <;> simp [hs, State.isPlaying]) rfl
  | wait _ _ => exact h
  | advance _ _ => exact h.stepForward
  | choose _ _ _ _ =>
    split
    · exact h
    · exact h.stepForward
  | togglePause hplaying => exact h.togglePause hplaying
  | exitToMainMenu => exact coherent_exit e
  | editor hedit =>
    obtain ⟨_, scenario, scene, hs, hedited⟩ := edited_of_edit hedit
    exact h.edited hs hedited

/-- A player who enters a scenario has a name. -/
theorem Coherent.player_ne (h : e.Coherent) {input : Input} {entrance : Entrance}
    (ha : Accepts e input (.enter entrance)) : entrance.player e ≠ "" := by
  cases ha with
  | startNewGame _ htrim _ _ => exact Text.ne_empty_of_trimmedNonBlank htrim
  | loadSave _ hposition _ => exact SaveRecord.player_ne_of_toPosition hposition
  | follow hplaying _ _ _ _ =>
    obtain ⟨scenario, scene, hs⟩ := exists_playing hplaying
    obtain ⟨k, entry, hheld⟩ := h.held hs
    exact hheld.named

/-- A scenario that is entered was found by its name. -/
theorem exists_listed {input : Input} {entrance : Entrance}
    (ha : Accepts e input (.enter entrance)) :
    ∃ name, e.store.findIndex? name = some entrance.index := by
  cases ha with
  | startNewGame _ _ _ hlisted => exact ⟨_, hlisted⟩
  | loadSave _ _ hlisted => exact ⟨_, hlisted⟩
  | follow _ _ _ _ hlisted => exact ⟨_, hlisted⟩

/-- Every answer leaves an engine coherent. -/
theorem Coherent.answers (h : e.Coherent) {input : Input} {now : Nat}
    {result : Except Refusal Unit} (ha : Answers e input now (e', result)) : e'.Coherent := by
  cases ha with
  | refused _ => exact h.aside _ _ _
  | done haccepts => exact h.accepts haccepts
  | unplayable _ hloads _ => exact (h.loads hloads).aside _ _ _
  | @entered entrance e₁ _ haccepts hloads hready hshared hentered =>
    obtain ⟨entry, hentry, hscene, rfl⟩ := enterLoaded_eq_ok hentered
    obtain ⟨name, hlisted⟩ := exists_listed haccepts
    refine coherent_enter ((hloads.findIndex?_eq name).trans hlisted) hentry hready hscene ?_ ?_
    · have hplayer : entrance.player e₁ = entrance.player e := by
        cases entrance with
        | choice _ _ => exact hloads.player_eq
        | _ => rfl
      exact hplayer ▸ h.player_ne haccepts
    · intro hlookup i hi
      apply hshared
      change e₁.settings.lookup = .shared at hlookup
      rw [← hloads.settings_eq, hlookup]
      exact (hloads.findIndex?_eq sharedScenario).symm.trans hi

/-- Where nothing is played there is no current scene. -/
theorem currentScene_eq_none (h : e.state.isPlaying = false) : e.currentScene = none := by
  rw [currentScene]
  cases hs : e.state with
  | playing scenario scene => simp [hs, State.isPlaying] at h
  | _ => rfl

/-- A tick leaves an engine coherent. -/
theorem Coherent.tick (h : e.Coherent) (dt : Float32) (now : Nat) : (e.tick dt now).1.Coherent := by
  cases hplaying : e.state.isPlaying with
  | true =>
    obtain ⟨scenario, scene, hs⟩ := exists_playing hplaying
    obtain ⟨k, entry, hheld⟩ := h.held hs
    obtain ⟨reveal, history, recorded, htick⟩ := e.exists_fst_tick dt now
    rw [htick]
    exact Held.coherent { hheld with } hs
  | false =>
    rw [Engine.tick, currentScene_eq_none hplaying]
    exact h

/-- Looking for scenarios again leaves an engine coherent. -/
theorem Coherent.rescanListed (h : e.Coherent) {ls : List Listing}
    (hrescan : e.rescanListed ls = .ok e') : e'.Coherent := by
  rw [Engine.rescanListed] at hrescan
  split at hrescan
  · cases hrescan
  · next hplaying =>
    cases hrescan
    rw [Bool.not_eq_true] at hplaying
    obtain ⟨hactive, hpaused, hhistory, hreveal⟩ := h.idle hplaying
    exact Idle.coherent ⟨hactive, hpaused, hhistory, hreveal⟩ hplaying

section Run

variable {m : Type → Type} [Monad m] [LawfulMonad m] [MonadAttach m] [LawfulMonadAttach m]
  {source : Source m τ}

/-- Every call keeps an engine coherent. -/
theorem Coherent.call (h : e.Coherent) {c : Call} (hc : CanReturn (e.call source c) e') :
    e'.Coherent := by
  cases c with
  | handle input now =>
    obtain ⟨result, hanswers⟩ := exists_answers_of_canReturn_call hc
    exact h.answers hanswers
  | tick dt now =>
    obtain rfl := eq_of_canReturn_pure hc
    exact h.tick dt now
  | rescan ls =>
    obtain rfl := eq_of_canReturn_pure hc
    split
    · next hrescan => exact h.rescanListed hrescan
    · exact h
  | setCatalog names =>
    obtain rfl := eq_of_canReturn_pure hc
    exact h.aside _ _ _
  | takeReports =>
    obtain rfl := eq_of_canReturn_pure hc
    exact h.aside _ _ _

/-- An engine is coherent when it is started. -/
theorem coherent_startListed (settings : Settings) (ls : List Listing) :
    (startListed settings ls : Engine τ).Coherent :=
  Idle.coherent ⟨rfl, rfl, rfl, rfl⟩ rfl

/-- Every engine that a run leads to is coherent. -/
theorem coherent_of_canReturn_run {settings : Settings} {ls : List Listing} {calls : List Call}
    (h : CanReturn ((startListed settings ls).run source calls) e) : e.Coherent :=
  of_canReturn_run (fun _ _ _ _ he hc => he.call hc) (coherent_startListed settings ls) h

end Run

section Frames

variable {scenario : String} {scene k : Nat} {entry : Entry τ}

/-- The current scene is found in the active entry. -/
theorem currentScene_eq (hs : e.state = .playing scenario scene) (hactive : e.active = some k)
    (hentry : e.store.get? k = some entry) : e.currentScene = entry.scenes[scene]? := by
  simp [currentScene, hs, State.scene?, activeEntry, hactive, hentry]

/-- The current scene is found in the entry that is played. -/
theorem Held.currentScene_eq (h : e.Held scenario scene k entry)
    (hs : e.state = .playing scenario scene) : e.currentScene = entry.scenes[scene]? :=
  Engine.currentScene_eq hs h.active h.present

/-- Loads leave the scene that is being played alone. -/
theorem Coherent.currentScene_loads (h : e.Coherent) (hl : Loads e e') :
    e'.currentScene = e.currentScene := by
  cases hplaying : e.state.isPlaying with
  | true =>
    obtain ⟨scenario, scene, hs⟩ := exists_playing hplaying
    obtain ⟨k, entry, hheld⟩ := h.held hs
    rw [(hheld.loads hl).currentScene_eq (hl.state_eq.trans hs), hheld.currentScene_eq hs]
  | false =>
    rw [currentScene_eq_none hplaying, currentScene_eq_none (hl.state_eq ▸ hplaying)]

/-- While a scenario is being played, a tick shows the scene that is being played. -/
theorem Held.exists_snd_tick (h : e.Held scenario scene k entry)
    (hs : e.state = .playing scenario scene) (dt : Float32) (now : Nat) :
    ∃ s, e.currentScene = some s ∧
      (e.tick dt now).2 = (e.tick dt now).1.sceneFrame s (Dialogue.ofScene s e.player) := by
  obtain ⟨s, hscene⟩ : ∃ s, e.currentScene = some s :=
    ⟨_, (h.currentScene_eq hs).trans (List.getElem?_eq_getElem h.scene_lt)⟩
  exact ⟨s, hscene, snd_tick hscene dt now⟩

/-- A frame of a scene has the serial of its visit. -/
theorem serial_sceneFrame_tick (e : Engine τ) (dt : Float32) (now : Nat) (s : Scene)
    (d : Dialogue) : ((e.tick dt now).1.sceneFrame s d).serial = e.serial := by
  obtain ⟨reveal, history, recorded, htick⟩ := e.exists_fst_tick dt now
  rw [htick]
  rfl

/-- The frame of a menu has no serial. -/
theorem ne_menu_of_serial_pos {f : Frame} (h : 0 < f.serial) (state : State)
    (status : Option String) (editing : Bool) : f ≠ .menu state status editing := by
  rintro rfl
  exact absurd h (Nat.lt_irrefl 0)

end Frames

/-- Whatever is asked of an engine and whatever its source answers, it is coherent: while a
scenario is being played, this scenario is the one that its name finds, it is loaded and
has the scene, the player has a name, and a tick shows the scene; otherwise nothing is left
of a scenario. -/
theorem coherent_run {σ τ : Type} (source : Source (StateM σ) τ) (settings : Settings)
    (ls : List Listing) (calls : List Call) (s : σ) :
    let e := (((startListed settings ls).run source calls).run s).1
    match e.state with
    | .playing scenario scene =>
      (∃ k entry, e.Held scenario scene k entry) ∧
        ∀ dt now, ∃ shown, e.currentScene = some shown ∧
          (e.tick dt now).2 =
            (e.tick dt now).1.sceneFrame shown (Dialogue.ofScene shown e.player) ∧
          (e.tick dt now).2.serial = e.serial ∧
          ∀ state status editing, (e.tick dt now).2 ≠ .menu state status editing
    | _ => e.Idle ∧ e.position? = none := by
  intro e
  have hcoherent : e.Coherent := coherent_of_canReturn_run (canReturn_fst_run _ s)
  cases hs : e.state with
  | playing scenario scene =>
    obtain ⟨k, entry, hheld⟩ := hcoherent.held hs
    refine ⟨⟨k, entry, hheld⟩, fun dt now => ?_⟩
    obtain ⟨shown, hscene, hframe⟩ := hheld.exists_snd_tick hs dt now
    have hserial : (e.tick dt now).2.serial = e.serial := by
      rw [hframe, serial_sceneFrame_tick]
    exact ⟨shown, hscene, hframe, hserial, ne_menu_of_serial_pos (hserial ▸ hheld.visited)⟩
  | _ => exact ⟨hcoherent.idle (by rw [hs]; rfl), by rw [position?, hs]⟩

end Engine

end VisualNovel

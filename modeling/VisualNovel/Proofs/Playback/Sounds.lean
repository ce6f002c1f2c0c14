import VisualNovel.Proofs.Playback.Log
import VisualNovel.Proofs.Presentation.Sound

/-!
# A sound is played once for each visit

The frames of a game are presented now and then. However the clock ticks and whichever frames
are presented, the sound of a scene is played once for each visit of the scene from which a
frame is presented, namely for the first such frame, if it is registered then. What makes
this so is the serial of a visit: it is larger than that of every frame presented before.
-/

namespace VisualNovel.Engine

open MonadAttach LawfulMonadAttach

/-- What is asked of an engine some of whose frames are presented. -/
inductive Act where
  | call (c : Call)
  | present (dt : Float32) (now : Nat) (registry : Registry String)

/-- The clock ticks before a frame is presented. -/
def Act.toCall : Act → Call
  | .call c => c
  | .present dt now _ => .tick dt now

/-- What is seen and heard of an act. -/
inductive Moment where
  | left
  | entered (sound : Option String)
  | presented (shown : Showing)
  | nothing

/-- The frame that is presented at a moment. -/
def Moment.shown? : Moment → Option Showing
  | .presented s => some s
  | _ => none

/-- The time from the entry of a scene to the next one, or from leaving a game: the sound of
the scene, and the tracks that were registered whenever a frame was presented. -/
structure Stay where
  sound : Option String
  shown : List (Registry String)

/-- What is played in a stay: its sound, if it is registered when the first frame is presented. -/
def Stay.played (s : Stay) : Option (String × String) :=
  s.shown.head?.bind fun registry => s.sound.bind (playedFor registry)

/-- The stays that are over, and the one that is not. -/
structure Stays where
  past : List Stay
  current : Stay

namespace Stays

/-- A game has not been entered. -/
def start : Stays := ⟨[], ⟨none, []⟩⟩

/-- All stays in order. -/
def all (v : Stays) : List Stay := v.past ++ [v.current]

/-- Another stay begins. -/
def begin (v : Stays) (sound : Option String) : Stays := ⟨v.all, ⟨sound, []⟩⟩

/-- A frame is presented. -/
def present (v : Stays) (registry : Registry String) : Stays :=
  { v with current := { v.current with shown := v.current.shown ++ [registry] } }

/-- The stays after a moment. -/
def after (v : Stays) : Moment → Stays
  | .left => v.begin none
  | .entered sound => v.begin sound
  | .presented s => v.present s.registry
  | .nothing => v

/-- The stays of some moments. -/
def ofMoments (moments : List Moment) : Stays := moments.foldl after start

/-- The last moment comes after the others. -/
theorem ofMoments_concat (moments : List Moment) (m : Moment) :
    ofMoments (moments ++ [m]) = (ofMoments moments).after m := by
  rw [ofMoments, List.foldl_append]
  rfl

end Stays

variable {τ : Type}

/-- The sound of the scene that is being played. -/
def sceneSound (e : Engine τ) : Option String := e.currentScene.bind (·.sound)

/-- What is seen of a call, and the sound of the scene after it. -/
def Happening.toMoment (sound : Option String) : Happening → Moment
  | .left => .left
  | .entered _ _ => .entered sound
  | .ticked => .nothing
  | .nothing => .nothing

section Attend

variable {m : Type → Type} [Monad m]

/-- An act, with what is seen and heard of it. -/
def attendAct (source : Source m τ) (e : Engine τ) : Act → m (Moment × Engine τ)
  | .call (.handle input now) =>
      (fun answer => ((e.answerSeen input answer).toMoment answer.1.sceneSound, answer.1)) <$>
        e.handle source now input
  | .call c => (fun e' => (.nothing, e')) <$> e.call source c
  | .present dt now registry =>
    pure (.presented ⟨registry, (e.tick dt now).2⟩, (e.tick dt now).1)

/-- Some acts, one after the other, with what is seen and heard of each. -/
def attend (source : Source m τ) (acts : List Act) (e : Engine τ) :
    m (List Moment × Engine τ) :=
  traced (attendAct source) acts e

variable [LawfulMonad m]

/-- Attending does not change what an act does. -/
theorem snd_attendAct (source : Source m τ) (e : Engine τ) (act : Act) :
    Prod.snd <$> e.attendAct source act = e.call source act.toCall := by
  cases act with
  | call c =>
    cases c with
    | handle input now => simp only [attendAct, Act.toCall, call, Functor.map_map]
    | _ => simp only [attendAct, Act.toCall, Functor.map_map, id_map']
  | present dt now registry => simp only [attendAct, Act.toCall, call, map_pure]

/-- Presenting frames does not change the run. -/
theorem snd_attend (source : Source m τ) (acts : List Act) (e : Engine τ) :
    Prod.snd <$> e.attend source acts = e.run source (acts.map Act.toCall) :=
  snd_traced (snd_attendAct source) acts e

end Attend

/-- The serial grows with each visit that begins, and the scene is another one only then. -/
inductive Passes (e e' : Engine τ) : Happening → Prop where
  | left (menu : e'.state.isPlaying = false) (serial : e'.serial = e.serial + 1) :
      Passes e e' .left
  | entered {via : Option String} {view : Option Dialogue} (serial : e'.serial = e.serial + 1) :
      Passes e e' (.entered via view)
  | nothing (serial : e'.serial = e.serial) (scene : e'.currentScene = e.currentScene) :
      Passes e e' .nothing

/-- A tick leaves the visit alone. -/
theorem sameVisit_tick (e : Engine τ) (dt : Float32) (now : Nat) :
    (e.tick dt now).1.settings = e.settings ∧ (e.tick dt now).1.serial = e.serial ∧
      (e.tick dt now).1.currentScene = e.currentScene := by
  obtain ⟨reveal, history, recorded, htick⟩ := e.exists_fst_tick dt now
  rw [htick]
  exact ⟨rfl, rfl, rfl⟩

/-- A call that is no input leaves the visit alone. -/
theorem sameVisit_of_canReturn_call {m : Type → Type} [Monad m] [LawfulMonad m] [MonadAttach m]
    [LawfulMonadAttach m] {source : Source m τ} {e e' : Engine τ} {c : Call}
    (hquiet : ∀ input now, c ≠ .handle input now) (hc : CanReturn (e.call source c) e') :
    e'.settings = e.settings ∧ e'.serial = e.serial ∧ e'.currentScene = e.currentScene := by
  cases c with
  | handle input now => exact absurd rfl (hquiet input now)
  | tick dt now =>
    obtain rfl := eq_of_canReturn_pure hc
    exact e.sameVisit_tick dt now
  | rescan ls =>
    obtain rfl := eq_of_canReturn_pure hc
    split
    · next hrescan =>
      rw [rescanListed] at hrescan
      split at hrescan
      · cases hrescan
      · next hplaying =>
        cases hrescan
        rw [Bool.not_eq_true] at hplaying
        rw [currentScene_eq_none hplaying]
        exact ⟨rfl, rfl, currentScene_eq_none hplaying⟩
    · exact ⟨rfl, rfl, rfl⟩
  | setCatalog names =>
    obtain rfl := eq_of_canReturn_pure hc
    exact ⟨rfl, rfl, rfl⟩
  | takeReports =>
    obtain rfl := eq_of_canReturn_pure hc
    exact ⟨rfl, rfl, rfl⟩

section Passes

variable {e e' : Engine τ} {input : Input} {now : Nat}

/-- A step begins a visit just if it is seen to. -/
theorem passes_stepForward (hplaying : e.state.isPlaying = true) :
    Passes e e.stepForward (e.stepSeen e.stepForward) := by
  obtain ⟨scenario, scene, hs⟩ := exists_playing hplaying
  rw [stepForward_eq hs]
  split
  · rw [stepSeen_moveTo hs]
    exact .entered rfl
  · rw [stepSeen, if_pos rfl]
    exact .nothing rfl rfl

/-- An accepted input begins a visit just if it is seen to. -/
theorem passes_of_accepts (hediting : e.settings.editing = false)
    (ha : Accepts e input (.done e')) : Passes e e' (e.inputSeen input e') := by
  have hmenus {s : State} (hs : e.state = s) (hmenu : s.isPlaying = false) (s' : State)
      (hmenu' : s'.isPlaying = false) : Passes e (e.goToMenu s') .nothing := by
    rw [← hs] at hmenu
    exact .nothing rfl ((currentScene_eq_none hmenu').trans (currentScene_eq_none hmenu).symm)
  cases ha with
  | openScenarioSelect hs => exact hmenus hs rfl _ rfl
  | openSaveSelect hs => exact hmenus hs rfl _ rfl
  | back hs =>
    rcases hs with hs | hs
    · exact hmenus hs rfl _ rfl
    · exact hmenus hs rfl _ rfl
  | wait _ _ =>
    rw [inputSeen, stepSeen, if_pos rfl]
    exact .nothing rfl rfl
  | advance hplaying _ => exact passes_stepForward hplaying
  | choose hplaying _ hoffered huntargeted =>
    simp only [inputSeen, hoffered, Option.bind_some, huntargeted, hediting, Bool.false_eq_true,
      if_false]
    exact passes_stepForward hplaying
  | togglePause _ => exact .nothing rfl rfl
  | exitToMainMenu => exact .left rfl rfl
  | editor hedit =>
    obtain ⟨hediting', _⟩ := edited_of_edit hedit
    rw [hediting] at hediting'
    cases hediting'

/-- Whatever becomes of an input, the serial tells visits apart. -/
theorem passes_of_answers (hcoherent : e.Coherent) (hediting : e.settings.editing = false)
    {result : Except Refusal Unit} (ha : Answers e input now (e', result)) :
    Passes e e' (e.answerSeen input (e', result)) := by
  cases ha with
  | refused _ => exact .nothing rfl rfl
  | done haccepts => exact passes_of_accepts hediting haccepts
  | unplayable _ hloads _ =>
    have hscene := hcoherent.currentScene_loads hloads
    exact .nothing hloads.serial_eq hscene
  | entered haccepts hloads _ _ hentered =>
    obtain ⟨entry, _, _, rfl⟩ := enterLoaded_eq_ok hentered
    have hserial := congrArg (· + 1) hloads.serial_eq
    cases haccepts with
    | startNewGame _ _ _ _ => exact .entered hserial
    | loadSave _ _ _ => exact .entered hserial
    | follow _ _ hoffered htargeted _ =>
      simp only [answerSeen, inputSeen, hoffered, Option.bind_some, htargeted]
      exact .entered hserial

end Passes

/-- The sound of a frame is that of the scene, and it has the serial of the visit. -/
theorem sound_snd_tick (e : Engine τ) (dt : Float32) (now : Nat) :
    (e.tick dt now).2.sound = e.sceneSound.map (SoundCue.mk · e.serial) := by
  cases hscene : e.currentScene with
  | none => rw [tick, sceneSound, hscene]; rfl
  | some s =>
    obtain ⟨reveal, history, recorded, htick⟩ := e.exists_fst_tick dt now
    rw [snd_tick hscene, htick, sceneSound, hscene]
    rfl

namespace Stays

variable (v : Stays)

/-- What all stays play is what the past ones play and then the current one. -/
theorem filterMap_all :
    v.all.filterMap Stay.played = v.past.filterMap Stay.played ++ v.current.played.toList := by
  rw [all, List.filterMap_append]
  cases h : v.current.played <;> simp [h]

/-- A stay that begins plays nothing yet. -/
theorem filterMap_all_begin (sound : Option String) :
    (v.begin sound).all.filterMap Stay.played = v.all.filterMap Stay.played := by
  rw [filterMap_all, begin, Stay.played]
  exact List.append_nil _

/-- The first frame of a stay decides what it plays. -/
theorem filterMap_all_present_of_eq (h : v.current.shown = []) (registry : Registry String) :
    (v.present registry).all.filterMap Stay.played = v.all.filterMap Stay.played ++
      (v.current.sound.bind (playedFor registry)).toList := by
  have hbefore : v.current.played = none := by rw [Stay.played, h]; rfl
  have hafter : (v.present registry).current.played =
      v.current.sound.bind (playedFor registry) := by
    rw [Stay.played, present, h]
    rfl
  rw [filterMap_all, filterMap_all, hbefore, hafter, Option.toList_none, List.append_nil, present]

/-- Other frames of a stay do not change what it plays. -/
theorem filterMap_all_present_of_ne (h : v.current.shown ≠ []) (registry : Registry String) :
    (v.present registry).all.filterMap Stay.played = v.all.filterMap Stay.played := by
  have hsame : (v.present registry).current.played = v.current.played := by
    rw [Stay.played, present, Stay.played]
    dsimp only
    rw [List.head?_append_of_ne_nil _ h]
  rw [filterMap_all, filterMap_all, hsame, present]

end Stays

/-- What has been played is what the stays play. The cue of a frame of the current stay is
remembered, if one was presented, and otherwise any cue that is remembered is an older one. -/
structure Attuned (e : Engine τ) (heard : Audio × List AudioCall) (v : Stays) : Prop where
  told : heard.2.filterMap AudioCall.played? = v.all.filterMap Stay.played
  current : v.current.sound = e.sceneSound
  unshown : v.current.shown = [] → ∀ cue ∈ heard.1.sound, cue.serial < e.serial
  shown : v.current.shown ≠ [] → heard.1.sound = e.sceneSound.map (SoundCue.mk · e.serial)

namespace Attuned

variable {e e' : Engine τ} {heard : Audio × List AudioCall} {v : Stays}

/-- No cue is from a later visit. -/
theorem serial_le (h : e.Attuned heard v) : ∀ cue ∈ heard.1.sound, cue.serial ≤ e.serial := by
  intro cue hcue
  by_cases hshown : v.current.shown = []
  · exact (h.unshown hshown cue hcue).le
  · rw [h.shown hshown, Option.mem_def, Option.map_eq_some_iff] at hcue
    obtain ⟨_, _, rfl⟩ := hcue
    exact le_rfl

/-- What leaves the visit alone. -/
theorem congr (h : e.Attuned heard v) (hserial : e'.serial = e.serial)
    (hscene : e'.currentScene = e.currentScene) : e'.Attuned heard v := by
  have hsound : e'.sceneSound = e.sceneSound := by rw [sceneSound, hscene, sceneSound]
  refine ⟨h.told, h.current.trans hsound.symm, ?_, ?_⟩
  · rw [hserial]
    exact h.unshown
  · rw [hserial, hsound]
    exact h.shown

/-- Another stay begins, and its serial is new. -/
theorem begin (h : e.Attuned heard v) (hserial : e'.serial = e.serial + 1) :
    e'.Attuned heard (v.begin e'.sceneSound) where
  told := h.told.trans (v.filterMap_all_begin _).symm
  current := rfl
  unshown _ cue hcue := hserial ▸ Nat.lt_succ_of_le (h.serial_le cue hcue)
  shown hshown := absurd rfl hshown

/-- What is seen of a call keeps what was played in tune with the stays. -/
theorem passes (h : e.Attuned heard v) {happening : Happening} (hp : Passes e e' happening) :
    e'.Attuned heard (v.after (happening.toMoment e'.sceneSound)) := by
  cases hp with
  | left hmenu hserial =>
    have hsilent : e'.sceneSound = none := by rw [sceneSound, currentScene_eq_none hmenu]; rfl
    have hbegin := h.begin hserial
    rwa [hsilent] at hbegin
  | entered hserial => exact h.begin hserial
  | nothing hserial hscene => exact h.congr hserial hscene

/-- Only silence is remembered before a stay is shown: a cue of the stay would be an older one. -/
theorem sceneSound_eq_none (h : e.Attuned heard v) (hshown : v.current.shown = [])
    (hsame : e.sceneSound.map (SoundCue.mk · e.serial) = heard.1.sound) :
    e.sceneSound = none := by
  rw [Option.eq_none_iff_forall_not_mem]
  intro name hname
  have hcue : ⟨name, e.serial⟩ ∈ heard.1.sound := by
    rw [← hsame, Option.mem_def, Option.map_eq_some_iff]
    exact ⟨name, hname, rfl⟩
  exact lt_irrefl _ (h.unshown hshown _ hcue)

/-- A frame is presented: it is heard if it is the first one of its stay. -/
theorem present (h : e.Attuned heard v) (dt : Float32) (now : Nat) (registry : Registry String) :
    e.Attuned ((heard.1.present registry (e.tick dt now).2).1,
      heard.2 ++ (heard.1.present registry (e.tick dt now).2).2) (v.present registry) := by
  have hsound := e.sound_snd_tick dt now
  refine ⟨?_, h.current, fun hshown => ?_, fun _ => ?_⟩
  · rw [List.filterMap_append, h.told]
    by_cases hshown : v.current.shown = []
    · rw [v.filterMap_all_present_of_eq hshown, h.current]
      by_cases hsame : (e.tick dt now).2.sound = heard.1.sound
      · have hsilent := h.sceneSound_eq_none hshown (hsound.symm.trans hsame)
        rw [played?_present_of_eq hsame, hsilent]
        rfl
      · rw [played?_present_of_ne hsame, hsound, Option.bind_map]
        rfl
    · rw [v.filterMap_all_present_of_ne hshown,
        played?_present_of_eq (hsound.trans (h.shown hshown).symm), List.append_nil]
  · exact absurd hshown (List.append_ne_nil_of_right_ne_nil _ (List.cons_ne_nil _ _))
  · rw [Audio.present_eq, hsound]

end Attuned

/-- What is heard of the frames that are presented at some moments. -/
def heardAt (a : Audio) (moments : List Moment) : Audio × List AudioCall :=
  a.presentAll (moments.filterMap Moment.shown?)

/-- Nothing is heard of a moment without a frame. -/
theorem heardAt_concat_of_none {m : Moment} (h : m.shown? = none) (a : Audio)
    (moments : List Moment) : heardAt a (moments ++ [m]) = heardAt a moments := by
  rw [heardAt, List.filterMap_append, List.filterMap_cons_none h, List.filterMap_nil,
    List.append_nil, heardAt]

/-- What is heard of a frame comes after what was heard before. -/
theorem heardAt_concat_presented (a : Audio) (moments : List Moment) (s : Showing) :
    heardAt a (moments ++ [.presented s]) =
      (((heardAt a moments).1.present s.registry s.frame).1,
        (heardAt a moments).2 ++ ((heardAt a moments).1.present s.registry s.frame).2) := by
  rw [heardAt, List.filterMap_append, heardAt]
  exact a.presentAll_concat _ s

section Runs

variable {m : Type → Type} [Monad m] [LawfulMonad m] [MonadAttach m] [LawfulMonadAttach m]
  {source : Source m τ} {e e' : Engine τ} {a : Audio} {moments : List Moment}

/-- What holds of an engine that is played while some of its frames are presented. -/
structure Attended (a : Audio) (e : Engine τ) (moments : List Moment) : Prop where
  coherent : e.Coherent
  unedited : e.settings.editing = false
  attuned : e.Attuned (heardAt a moments) (.ofMoments moments)

namespace Attended

/-- Where nothing is presented. -/
theorem passes (h : Attended a e moments) {happening : Happening} (hcoherent : e'.Coherent)
    (hsettings : e'.settings = e.settings) (hp : Passes e e' happening) :
    Attended a e' (moments ++ [happening.toMoment e'.sceneSound]) := by
  refine ⟨hcoherent, hsettings ▸ h.unedited, ?_⟩
  rw [Stays.ofMoments_concat, heardAt_concat_of_none (by cases happening <;> rfl)]
  exact h.attuned.passes hp

/-- Where nothing is asked of a player. -/
theorem call (h : Attended a e moments) {c : Call} (hquiet : ∀ input now, c ≠ .handle input now)
    (hc : CanReturn (e.call source c) e') : Attended a e' (moments ++ [.nothing]) := by
  obtain ⟨hsettings, hserial, hscene⟩ := sameVisit_of_canReturn_call hquiet hc
  exact h.passes (h.coherent.call hc) hsettings (.nothing hserial hscene)

/-- A frame is presented. -/
theorem present (h : Attended a e moments) (dt : Float32) (now : Nat)
    (registry : Registry String) :
    Attended a (e.tick dt now).1 (moments ++ [.presented ⟨registry, (e.tick dt now).2⟩]) := by
  have hpresented := h.attuned.present dt now registry
  obtain ⟨hsettings, hserial, hscene⟩ := e.sameVisit_tick dt now
  refine ⟨h.coherent.tick dt now, hsettings ▸ h.unedited, ?_⟩
  rw [Stays.ofMoments_concat, heardAt_concat_presented]
  exact hpresented.congr hserial hscene

/-- Another act keeps what was played in tune with the stays. -/
theorem act (h : Attended a e moments) {act : Act} {moment : Moment}
    (hact : CanReturn (e.attendAct source act) (moment, e')) :
    Attended a e' (moments ++ [moment]) := by
  cases act with
  | present dt now registry =>
    cases eq_of_canReturn_pure hact
    exact h.present dt now registry
  | call c =>
    cases c with
    | handle input now =>
      obtain ⟨⟨e₁, result⟩, hhandle, hseen⟩ := canReturn_map_imp' hact
      cases hseen
      have hanswers : Answers e input now (e₁, result) := answers_of_canReturn_handle hhandle
      exact h.passes (h.coherent.answers hanswers) hanswers.settings_eq
        (passes_of_answers h.coherent h.unedited hanswers)
    | _ =>
      obtain ⟨e₁, hcall, hseen⟩ := canReturn_map_imp' hact
      cases hseen
      refine h.call (fun _ _ hhandle => ?_) hcall
      cases hhandle

/-- Some more acts keep what was played in tune with the stays. -/
theorem attend (h : Attended a e moments) {acts : List Act} {more : List Moment}
    (hmore : CanReturn (e.attend source acts) (more, e')) : Attended a e' (moments ++ more) :=
  of_canReturn_traced (P := Attended a) (fun _ _ _ _ _ h hact => h.act hact) h hmore

end Attended

/-- Nothing has been played when an engine is started. -/
theorem attended_startListed (music sound : Float32) {settings : Settings}
    (hediting : settings.editing = false) (ls : List Listing) :
    Attended (.fresh music sound) (startListed settings ls : Engine τ) [] :=
  ⟨coherent_startListed settings ls, hediting, rfl, rfl, nofun, fun hshown => absurd rfl hshown⟩

end Runs

/-- In a game that is not edited, whatever is asked of the engine and whatever its source
answers, if some of the frames of its ticks are presented, one sound is played for each stay
in a scene with a sound that is registered when the first frame of the stay is presented,
and no other sounds are. -/
theorem sounds_attend {σ τ : Type} (source : Source (StateM σ) τ) (settings : Settings)
    (hediting : settings.editing = false) (ls : List Listing) (acts : List Act) (s : σ)
    (music sound : Float32) :
    let seen := (((startListed settings ls).attend source acts).run s).1
    seen.2 = (((startListed settings ls).run source (acts.map Act.toCall)).run s).1 ∧
      (heardAt (.fresh music sound) seen.1).2.filterMap AudioCall.played? =
        (Stays.ofMoments seen.1).all.filterMap Stay.played := by
  intro seen
  have hsame : seen.2 = (((startListed settings ls).run source (acts.map Act.toCall)).run s).1 := by
    rw [← snd_attend]
    rfl
  have hattended : Attended (.fresh music sound) seen.2 ([] ++ seen.1) :=
    (attended_startListed music sound hediting ls).attend
      (canReturn_fst_run ((startListed settings ls).attend source acts) s)
  exact ⟨hsame, hattended.attuned.told⟩

/-- A source whose every scenario has two scenes with the sound of a door, the last of which
has a choice that leads back to the scenario. -/
def doorSource : Source (StateM Unit) Unit where
  text _ := return .ok ("[scene_start]\na:b:door\nBo::Hi\n[scene_end]\n" ++
    "[scene_start]\na:b:door\nBo::Hi\n\n\n\n\nAgain:a.sc\n[scene_end]")
  textures _ := return .ok []

/-- A game with five visits: the first two and the last are presented, the third is not, and
the fourth is presented before the sound is registered and then again. The way to the last
one goes through the main menu. -/
def doorActs : List Act :=
  [.present 0 0 doorRegistry, .call (.handle .openScenarioSelect 0),
    .call (.handle (.startNewGame (some "a.sc") "Ann") 0), .call (.tick 0 1),
    .present 0 2 doorRegistry, .call (.handle .togglePause 3), .present 0 3 doorRegistry,
    .call (.handle .togglePause 3), .call (.handle .advance 4), .present 0 4 doorRegistry,
    .call (.handle (.activateChoice 0) 5), .call (.tick 0 5), .call (.handle .advance 6),
    .present 0 6 .empty, .present 0 7 doorRegistry, .call (.handle .exitToMainMenu 8),
    .present 0 8 doorRegistry, .call (.handle .openScenarioSelect 9),
    .call (.handle (.startNewGame (some "a.sc") "Ann") 9), .present 0 9 doorRegistry]

/-- The door is heard in three of the five visits. -/
theorem sounds_attend_doorSource :
    let seen := (((startListed ⟨.simple, .perScenario, false, false, 30⟩
      [.found ⟨"a.sc", "a.sc", "textures", "sounds"⟩]).attend doorSource doorActs).run ()).1
    (heardAt (.fresh 1 1) seen.1).2.filterMap AudioCall.played? =
      [("door", "door.ogg"), ("door", "door.ogg"), ("door", "door.ogg")] := by
  intro seen
  obtain ⟨_, hplayed⟩ := sounds_attend doorSource ⟨.simple, .perScenario, false, false, 30⟩ rfl
    [.found ⟨"a.sc", "a.sc", "textures", "sounds"⟩] doorActs () 1 1
  exact hplayed.trans (by decide +kernel)

end VisualNovel.Engine

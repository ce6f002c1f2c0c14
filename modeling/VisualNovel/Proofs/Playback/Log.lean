import VisualNovel.Proofs.History
import VisualNovel.Proofs.Playback.Transition

/-!
# The log of a game

Whoever watches a game from outside can keep a log of it: a visit begins whenever a scene is
entered and ends with the next one or when the game is left; a visit that saw a tick tells
what its scene says, if it says anything, and a switch to another scenario is told between
two visits. The history of the engine has the last remarks of this log, however often the
clock ticks in a visit and whatever is refused on the way.
-/

namespace VisualNovel

/-- Whether anyone is named to say something. -/
def Dialogue.isAudible (d : Dialogue) : Bool := d.banner != "" && d.text != ""

namespace Engine

open MonadAttach LawfulMonadAttach

/-- What a watcher sees of a call. -/
inductive Happening where
  | left
  | entered (via : Option String) (view : Option Dialogue)
  | ticked
  | nothing
deriving DecidableEq, Repr

/-- The time from one entry of a scene to the next: the scenario that a choice led to if this
began it, what the scene says, and whether the clock has ticked. -/
structure Visit where
  via : Option String
  view : Option Dialogue
  ticked : Bool
deriving DecidableEq, Repr

namespace Visit

/-- What is said in a visit, once it has been seen. -/
def said (v : Visit) : List Remark :=
  match v.view with
  | some d => if v.ticked && d.isAudible then [.said d.banner d.text] else []
  | none => []

/-- What a visit adds to the log. -/
def remarks (v : Visit) : List Remark := (v.via.map Remark.went).toList ++ v.said

end Visit

/-- The visits after something has happened, the latest first. -/
def visitsAfter (visits : List Visit) : Happening → List Visit
  | .left => []
  | .entered via view => ⟨via, view, false⟩ :: visits
  | .ticked =>
    match visits with
    | v :: rest => { v with ticked := true } :: rest
    | [] => []
  | .nothing => visits

/-- The log of visits of which the latest is the first. -/
def logOf (visits : List Visit) : List Remark := visits.reverse.flatMap Visit.remarks

/-- The log since the game was last left. -/
def log (happenings : List Happening) : List Remark := logOf (happenings.foldl visitsAfter [])

variable {τ : Type}

/-- A signal to go on enters a scene if another one is being played after it. -/
def stepSeen (e e' : Engine τ) : Happening :=
  if e'.state = e.state then .nothing else .entered none e'.dialogue?

/-- The next scene is another one. -/
theorem stepSeen_moveTo {e : Engine τ} {scenario : String} {scene : Nat}
    (hs : e.state = .playing scenario scene) :
    e.stepSeen (e.moveTo (scene + 1)) = .entered none (e.moveTo (scene + 1)).dialogue? := by
  rw [stepSeen, if_neg]
  rw [state_moveTo hs, hs]
  intro hsame
  injection hsame with _ hscene
  omega

/-- What is seen of an input that was accepted. -/
def inputSeen (e : Engine τ) (input : Input) (e' : Engine τ) : Happening :=
  match input with
  | .exitToMainMenu => .left
  | .startNewGame _ _ | .loadSave _ => .entered none e'.dialogue?
  | .activateChoice index =>
    match (e.offered? index).bind (·.target) with
    | some target => .entered (some target) e'.dialogue?
    | none => e.stepSeen e'
  | .advance => e.stepSeen e'
  | _ => .nothing

/-- What is seen of an input; of one that is refused nothing is. -/
def answerSeen (e : Engine τ) (input : Input) : Engine τ × Except Refusal Unit → Happening
  | (e', .ok ()) => e.inputSeen input e'
  | (_, .error _) => .nothing

section Watch

variable {m : Type → Type} [Monad m]

/-- A call, with what is seen of it. -/
def watchCall (source : Source m τ) (e : Engine τ) : Call → m (Happening × Engine τ)
  | .handle input now => (fun answer => (e.answerSeen input answer, answer.1)) <$>
      e.handle source now input
  | .tick dt now => pure (.ticked, (e.tick dt now).1)
  | c => (fun e' => (.nothing, e')) <$> e.call source c

/-- Some calls, one after the other, with what is seen of each. -/
def watch (source : Source m τ) : List Call → Engine τ → m (List Happening × Engine τ)
  | [], e => pure ([], e)
  | c :: calls, e => do
    let (happening, e) ← e.watchCall source c
    let (happenings, e) ← watch source calls e
    return (happening :: happenings, e)

/-- Watching traces the steps that are watched. -/
theorem watch_eq_traced (source : Source m τ) (calls : List Call) (e : Engine τ) :
    e.watch source calls = traced (watchCall source) calls e := by
  induction calls generalizing e with
  | nil => rfl
  | cons c calls ih => simp only [watch, traced, ih]

variable [LawfulMonad m] (source : Source m τ)

/-- A watcher does not change what a call does. -/
theorem snd_watchCall (e : Engine τ) (c : Call) :
    Prod.snd <$> e.watchCall source c = e.call source c := by
  cases c with
  | handle input now =>
    simp only [watchCall, call, Functor.map_map]
  | tick dt now => simp only [watchCall, call, map_pure]
  | _ => simp only [watchCall, Functor.map_map, id_map']

/-- Watching does not change the run. -/
theorem snd_watch (calls : List Call) (e : Engine τ) :
    Prod.snd <$> e.watch source calls = e.run source calls := by
  rw [watch_eq_traced, snd_traced (f := id) (snd_watchCall source), List.map_id]
  rfl

end Watch

/-- The latest visit adds its remarks at the end of the log. -/
theorem logOf_cons (v : Visit) (visits : List Visit) :
    logOf (v :: visits) = logOf visits ++ v.remarks := by
  simp only [logOf, List.reverse_cons, List.flatMap_append, List.flatMap_cons, List.flatMap_nil,
    List.append_nil]

/-- A dialogue is recorded once, if anyone is named to say something. -/
theorem recordDialogue_eq (e : Engine τ) (now : Nat) (d : Dialogue) :
    e.recordDialogue now d = if !e.recorded && d.isAudible then
      { e with history := e.history.push (.dialogue d.banner d.text now), recorded := true }
    else e := by
  rw [recordDialogue, Dialogue.isAudible, Bool.and_assoc]

/-- The history of an engine has the last remarks of a watcher's log, and the engine knows
whether the remark of the visit is among them. -/
structure Logged (e : Engine τ) (visits : List Visit) : Prop where
  limit : e.history.limit = History.defaultLimit
  told : e.history.remarks = (logOf visits).rtake e.history.limit
  visiting : e.state.isPlaying = true → ∃ v rest, visits = v :: rest ∧ v.view = e.dialogue? ∧
    e.recorded = !v.said.isEmpty
  unvisited : e.state.isPlaying = false → visits = []

namespace Logged

variable {e e' : Engine τ} {visits : List Visit}

/-- What leaves the visit and the history alone needs no remark. -/
theorem congr (h : e.Logged visits) (hhistory : e'.history = e.history)
    (hstate : e'.state.isPlaying = e.state.isPlaying)
    (hvisit : e.state.isPlaying = true → e'.recorded = e.recorded ∧ e'.dialogue? = e.dialogue?) :
    e'.Logged visits where
  limit := hhistory ▸ h.limit
  told := hhistory ▸ h.told
  visiting hplaying := by
    rw [hstate] at hplaying
    obtain ⟨hrecorded, hdialogue⟩ := hvisit hplaying
    rw [hrecorded, hdialogue]
    exact h.visiting hplaying
  unvisited hplaying := h.unvisited (hstate ▸ hplaying)

/-- An entry that no choice led to has nothing to tell yet. -/
theorem told_unled (h : e.Logged visits) : e.history.remarks =
    (logOf visits ++ (none.map Remark.went).toList).rtake e.history.limit := by
  rw [Option.map_none, Option.toList_none, List.append_nil]
  exact h.told

/-- An entry begins a visit, and tells of a switch. -/
theorem entered (h : e.Logged visits) {via : Option String} (hplaying : e'.state.isPlaying = true)
    (hlimit : e'.history.limit = e.history.limit)
    (hremarks : e'.history.remarks =
      (logOf visits ++ (via.map Remark.went).toList).rtake e.history.limit)
    (hrecorded : e'.recorded = false) :
    e'.Logged (visitsAfter visits (.entered via e'.dialogue?)) := by
  have hsaid : (⟨via, e'.dialogue?, false⟩ : Visit).said = [] := by
    rw [Visit.said]
    split <;> rfl
  refine ⟨hlimit ▸ h.limit, ?_, fun _ => ?_, fun hmenu => ?_⟩
  · rw [hlimit, hremarks, visitsAfter, logOf_cons, Visit.remarks, hsaid, List.append_nil]
  · exact ⟨_, visits, rfl, rfl, by rw [hrecorded, hsaid]; rfl⟩
  · rw [hplaying] at hmenu
    cases hmenu

/-- A step forward begins a visit, unless there is no scene to go to. -/
theorem stepForward (h : e.Logged visits) (hplaying : e.state.isPlaying = true) :
    e.stepForward.Logged (visitsAfter visits (e.stepSeen e.stepForward)) := by
  obtain ⟨scenario, scene, hs⟩ := exists_playing hplaying
  rw [stepForward_eq hs]
  split
  · rw [stepSeen_moveTo hs]
    exact h.entered (by rw [state_moveTo hs]; rfl) rfl h.told_unled rfl
  · rw [stepSeen, if_pos rfl]
    exact h

/-- Nothing is told of a game that was left. -/
theorem exit (h : e.Logged visits) : e.exit.Logged [] where
  limit := h.limit
  told := by simp [Engine.exit, resetVisit, History.clear, History.remarks, logOf]
  visiting hplaying := by cases hplaying
  unvisited _ := rfl

/-- A tick that adds no remark to those of the visit. -/
theorem ticked {v : Visit} {rest : List Visit} (h : e.Logged (v :: rest))
    (hsaid : ({ v with ticked := true } : Visit).said = v.said) :
    e.Logged ({ v with ticked := true } :: rest) := by
  refine ⟨h.limit, ?_, fun hplaying => ?_, fun hmenu => ?_⟩
  · rw [h.told, logOf_cons, logOf_cons, Visit.remarks, Visit.remarks, hsaid]
  · obtain ⟨v, rest, hv, hview, hrecorded⟩ := h.visiting hplaying
    cases hv
    exact ⟨_, _, rfl, hview, hsaid ▸ hrecorded⟩
  · cases h.unvisited hmenu

/-- A tick tells what the scene says, unless this was told in the same visit before. -/
theorem recordDialogue (h : e.Logged visits) (hplaying : e.state.isPlaying = true)
    {d : Dialogue} (hd : e.dialogue? = some d) (now : Nat) :
    (e.recordDialogue now d).Logged (visitsAfter visits .ticked) := by
  obtain ⟨⟨via, view, ticked⟩, rest, rfl, hview, hrecorded⟩ := h.visiting hplaying
  obtain rfl : view = some d := hview.trans hd
  have hsaid (t : Bool) : (⟨via, some d, t⟩ : Visit).said =
      if t && d.isAudible then [.said d.banner d.text] else [] := rfl
  rw [hsaid] at hrecorded
  rw [recordDialogue_eq]
  -- nothing is said at all, or it was said at an earlier tick of the visit, or it is said now
  cases haudible : d.isAudible with
  | false =>
    rw [Bool.and_false, if_neg Bool.false_ne_true]
    exact h.ticked (by simp [hsaid, haudible])
  | true =>
    cases ticked with
    | true =>
      have htold : e.recorded = true := by simpa [haudible] using hrecorded
      rw [htold, Bool.not_true, Bool.false_and, if_neg Bool.false_ne_true]
      exact h.ticked rfl
    | false =>
      have huntold : e.recorded = false := by simpa using hrecorded
      rw [huntold, Bool.not_false, Bool.true_and, if_pos rfl]
      have hlog : logOf (⟨via, some d, true⟩ :: rest) =
          logOf (⟨via, some d, false⟩ :: rest) ++ [.said d.banner d.text] := by
        simp [logOf_cons, Visit.remarks, hsaid, haudible]
      refine ⟨h.limit, ?_, fun _ => ⟨_, rest, rfl, hview, ?_⟩, fun hmenu => ?_⟩
      · rw [visitsAfter, hlog]
        exact History.remarks_push_of_eq h.told _
      · simp [hsaid, haudible]
      · exact absurd (hplaying.symm.trans hmenu) (by decide)

/-- A tick of the clock. -/
theorem tick (h : e.Logged visits) (hcoherent : e.Coherent) (dt : Float32) (now : Nat) :
    (e.tick dt now).1.Logged (visitsAfter visits .ticked) := by
  cases hplaying : e.state.isPlaying with
  | true =>
    obtain ⟨scenario, scene, hs⟩ := exists_playing hplaying
    obtain ⟨k, entry, hheld⟩ := hcoherent.held hs
    obtain ⟨s, hscene, _⟩ := hheld.exists_snd_tick hs dt now
    obtain ⟨reveal, hreveal⟩ := e.exists_revealText dt (Dialogue.ofScene s e.player)
    have hdialogue : e.dialogue? = some (Dialogue.ofScene s e.player) := by
      rw [dialogue?, hscene]
      rfl
    have hrevealed : ({ e with reveal } : Engine τ).Logged visits :=
      h.congr rfl rfl fun _ => ⟨rfl, rfl⟩
    simp only [Engine.tick, hscene, hreveal]
    exact hrevealed.recordDialogue hplaying hdialogue now
  | false =>
    obtain rfl := h.unvisited hplaying
    rw [Engine.tick, currentScene_eq_none hplaying]
    exact h

section Inputs

variable {input : Input} {now : Nat}

/-- An input that is answered at once. -/
theorem accepts (h : e.Logged visits) (hediting : e.settings.editing = false)
    (ha : Accepts e input (.done e')) :
    e'.Logged (visitsAfter visits (e.inputSeen input e')) := by
  have hmenus {s s' : State} (hs : e.state = s) (hmenu : s.isPlaying = false)
      (hmenu' : s'.isPlaying = false) : (e.goToMenu s').Logged visits := by
    rw [← hs] at hmenu
    refine h.congr rfl (hmenu'.trans hmenu.symm) fun hplaying => ?_
    rw [hmenu] at hplaying
    cases hplaying
  cases ha with
  | openScenarioSelect hs => exact hmenus hs rfl rfl
  | openSaveSelect hs => exact hmenus hs rfl rfl
  | back hs =>
    rcases hs with hs | hs
    · exact hmenus hs rfl rfl
    · exact hmenus hs rfl rfl
  | wait _ _ =>
    rw [inputSeen, stepSeen, if_pos rfl]
    exact h
  | advance hplaying _ => exact h.stepForward hplaying
  | choose hplaying _ hoffered huntargeted =>
    simp only [inputSeen, hoffered, Option.bind_some, huntargeted, hediting, Bool.false_eq_true,
      if_false]
    exact h.stepForward hplaying
  | togglePause _ => exact h.congr rfl rfl fun _ => ⟨rfl, rfl⟩
  | exitToMainMenu => exact h.exit
  | editor hedit =>
    obtain ⟨hediting', _⟩ := edited_of_edit hedit
    rw [hediting] at hediting'
    cases hediting'

/-- Loads leave what a scene says alone. -/
theorem loads (h : e.Logged visits) (hcoherent : e.Coherent) (hl : Loads e e') :
    e'.Logged visits := by
  refine h.congr hl.history_eq (by rw [hl.state_eq]) fun _ => ⟨hl.recorded_eq, ?_⟩
  rw [dialogue?, dialogue?, hcoherent.currentScene_loads hl, hl.player_eq]

/-- An input that enters a scenario which has been loaded. -/
theorem enterLoaded {e₁ : Engine τ} (h : e₁.Logged visits) {entrance : Entrance}
    (ha : Accepts e input (.enter entrance)) (hentered : e₁.enterLoaded now entrance = .ok e') :
    e'.Logged (visitsAfter visits (e.inputSeen input e')) := by
  obtain ⟨entry, _, _, rfl⟩ := enterLoaded_eq_ok hentered
  cases ha with
  | startNewGame _ _ _ _ => exact h.entered rfl rfl h.told_unled rfl
  | loadSave _ _ _ => exact h.entered rfl rfl h.told_unled rfl
  | @follow _ k c target _ _ hoffered htargeted _ =>
    simp only [inputSeen, hoffered, Option.bind_some, htargeted]
    exact h.entered rfl rfl (History.remarks_push_of_eq h.told _) rfl

/-- Whatever becomes of an input, the history keeps up with the log. -/
theorem answers (h : e.Logged visits) (hcoherent : e.Coherent)
    (hediting : e.settings.editing = false) {result : Except Refusal Unit}
    (ha : Answers e input now (e', result)) :
    e'.Logged (visitsAfter visits (e.answerSeen input (e', result))) := by
  cases ha with
  | refused _ => exact h.congr rfl rfl fun _ => ⟨rfl, rfl⟩
  | done haccepts => exact h.accepts hediting haccepts
  | unplayable _ hloads _ =>
    exact (h.loads hcoherent hloads).congr rfl rfl fun _ => ⟨rfl, rfl⟩
  | entered haccepts hloads _ _ hentered =>
    exact (h.loads hcoherent hloads).enterLoaded haccepts hentered

end Inputs

end Logged

section Runs

variable {m : Type → Type} [Monad m] [LawfulMonad m] [MonadAttach m] [LawfulMonadAttach m]
  {source : Source m τ} {e e' : Engine τ} {visits : List Visit}

/-- What holds of an engine that is played and watched. -/
structure Watched (e : Engine τ) (visits : List Visit) : Prop where
  coherent : e.Coherent
  unedited : e.settings.editing = false
  logged : e.Logged visits

/-- Reports and the catalog are no part of what is watched. -/
theorem Watched.aside (h : e.Watched visits) (reports : List (String × LoadReport))
    (catalog : List String) : ({ e with reports, catalog } : Engine τ).Watched visits :=
  ⟨h.coherent.aside e.status reports catalog, h.unedited,
    h.logged.congr rfl rfl fun _ => ⟨rfl, rfl⟩⟩

/-- Looking for scenarios again adds nothing to the log. -/
theorem Watched.rescanListed (h : e.Watched visits) {ls : List Listing}
    (hrescan : e.rescanListed ls = .ok e') : e'.Watched visits := by
  have hcoherent : e'.Coherent := h.coherent.rescanListed hrescan
  rw [Engine.rescanListed] at hrescan
  split at hrescan
  · cases hrescan
  · next hplaying =>
    cases hrescan
    exact ⟨hcoherent, h.unedited, h.logged.congr rfl rfl fun hplaying' => absurd hplaying' hplaying⟩

/-- A call adds to the log what is seen of it. -/
theorem Watched.call (h : e.Watched visits) {c : Call} {happening : Happening}
    (hc : CanReturn (e.watchCall source c) (happening, e')) :
    e'.Watched (visitsAfter visits happening) := by
  cases c with
  | handle input now =>
    obtain ⟨⟨e₁, result⟩, hhandle, hseen⟩ := canReturn_map_imp' hc
    cases hseen
    have hanswers : Answers e input now (e₁, result) := answers_of_canReturn_handle hhandle
    exact ⟨h.coherent.answers hanswers, hanswers.settings_eq ▸ h.unedited,
      h.logged.answers h.coherent h.unedited hanswers⟩
  | tick dt now =>
    cases eq_of_canReturn_pure hc
    have hsettings : (e.tick dt now).1.settings = e.settings := by
      obtain ⟨reveal, history, recorded, htick⟩ := e.exists_fst_tick dt now
      rw [htick]
    exact ⟨h.coherent.tick dt now, hsettings ▸ h.unedited, h.logged.tick h.coherent dt now⟩
  | rescan ls =>
    obtain ⟨e₁, hcall, hseen⟩ := canReturn_map_imp' hc
    cases hseen
    obtain rfl := eq_of_canReturn_pure hcall
    split
    · next hrescan => exact h.rescanListed hrescan
    · exact h
  | setCatalog names =>
    obtain ⟨e₁, hcall, hseen⟩ := canReturn_map_imp' hc
    cases hseen
    obtain rfl := eq_of_canReturn_pure hcall
    exact h.aside e.reports names
  | takeReports =>
    obtain ⟨e₁, hcall, hseen⟩ := canReturn_map_imp' hc
    cases hseen
    obtain rfl := eq_of_canReturn_pure hcall
    exact h.aside [] e.catalog

/-- Some calls add to the log what is seen of them. -/
theorem Watched.watch (h : e.Watched visits) {calls : List Call} {happenings : List Happening}
    (hw : CanReturn (e.watch source calls) (happenings, e')) :
    e'.Watched (happenings.foldl visitsAfter visits) := by
  have hstart : e.Watched (([] : List Happening).foldl visitsAfter visits) := h
  rw [watch_eq_traced] at hw
  rw [← List.nil_append happenings]
  refine of_canReturn_traced (P := fun e told => e.Watched (told.foldl visitsAfter visits))
    (fun c e e' told happening h hc => ?_) hstart hw
  rw [List.foldl_append]
  exact h.call hc

/-- Nothing has been seen of an engine when it is started. -/
theorem watched_startListed {settings : Settings} (hediting : settings.editing = false)
    (ls : List Listing) : (startListed settings ls : Engine τ).Watched [] :=
  ⟨coherent_startListed settings ls, hediting, ⟨rfl, rfl, nofun, fun _ => rfl⟩⟩

end Runs

/-- In a game that is not edited, whatever is asked of the engine and whatever its source
answers, its history tells the last remarks of the log of a watcher. -/
theorem remarks_watch {σ τ : Type} (source : Source (StateM σ) τ) (settings : Settings)
    (hediting : settings.editing = false) (ls : List Listing) (calls : List Call) (s : σ) :
    let seen := (((startListed settings ls).watch source calls).run s).1
    seen.2 = (((startListed settings ls).run source calls).run s).1 ∧
      seen.2.history.events.map Event.remark = (log seen.1).rtake 1000 := by
  intro seen
  have hsame : seen.2 = (((startListed settings ls).run source calls).run s).1 := by
    rw [← snd_watch]
    rfl
  have hwatched : seen.2.Watched (seen.1.foldl visitsAfter []) :=
    (watched_startListed hediting ls).watch
      (canReturn_fst_run ((startListed settings ls).watch source calls) s)
  have htold := hwatched.logged.told
  rw [hwatched.logged.limit] at htold
  exact ⟨hsame, htold⟩

/-- A source whose every scenario is one scene, in which Bo speaks and a choice leads back to
the scenario. -/
def returningSource : Source (StateM Unit) Unit where
  text _ := return .ok "[scene_start]\na:b\nBo::Hi\n\n\n\n\nAgain:a.sc\n[scene_end]"
  textures _ := return .ok []

/-- A game in which the same scene is visited twice, with several ticks and a pause. -/
def returningCalls : List Call :=
  [.handle .openScenarioSelect 0, .handle (.startNewGame (some "a.sc") "Ann") 0, .tick 0 1,
    .tick 0 2, .handle .advance 3, .handle .togglePause 3, .tick 0 4, .handle .togglePause 4,
    .handle (.activateChoice 0) 5, .handle .back 5, .tick 0 6, .tick 0 7]

/-- The history of a game in which a choice was followed. -/
theorem remarks_watch_returningSource :
    let e : Engine Unit := (((startListed ⟨.simple, .perScenario, false, false, 30⟩
      [.found ⟨"a.sc", "a.sc", "textures", "sounds"⟩]).run returningSource returningCalls).run ()).1
    e.history.events.map Event.remark = [.said "Bo" "Hi", .went "a.sc", .said "Bo" "Hi"] := by
  intro e
  obtain ⟨hsame, hremarks⟩ := remarks_watch returningSource
    ⟨.simple, .perScenario, false, false, 30⟩ rfl [.found ⟨"a.sc", "a.sc", "textures", "sounds"⟩]
    returningCalls ()
  rw [hsame] at hremarks
  exact hremarks.trans rfl

end Engine

end VisualNovel

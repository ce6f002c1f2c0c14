import VisualNovel.Proofs.Folder.Saves
import VisualNovel.Proofs.Playback.Resume
import VisualNovel.Proofs.Session.Settled

/-!
# The automatic save

Whenever a session has settled while a scenario is being played, the automatic save holds the
position of the game. A new save is written only if the frame has another serial than the one
before; but the serial of the engine never falls, and where it has not grown, the position has
not changed. The position may also be saved by hand under the name of the automatic save, and
other saves may be written and deleted. Only in a scene with the largest index of 64 bits does a
session not settle: the program breaks off before the save.
-/

namespace VisualNovel

open MonadAttach LawfulMonadAttach

namespace Engine

variable {τ : Type} {e e₁ e₂ : Engine τ}

/-- The serial has grown, or the position is where it was if there still is one. -/
def Follows (e e' : Engine τ) : Prop :=
  e.serial < e'.serial ∨ e'.serial = e.serial ∧ ∀ p ∈ e'.position?, p ∈ e.position?

namespace Follows

/-- An engine whose visit, state and player are the same follows. -/
theorem of_eq (hserial : e₁.serial = e.serial) (hstate : e₁.state = e.state)
    (hplayer : e₁.player = e.player) : e.Follows e₁ := by
  refine Or.inr ⟨hserial, fun p hp => ?_⟩
  rw [Option.mem_def, position?_eq_some_iff] at hp ⊢
  rwa [← hstate, ← hplayer]

/-- An engine that has gone to a menu follows. -/
theorem of_menu (hserial : e₁.serial = e.serial) (hmenu : e₁.state.isPlaying = false) :
    e.Follows e₁ := by
  refine Or.inr ⟨hserial, fun p hp => ?_⟩
  rw [Option.mem_def, position?_eq_some_iff] at hp
  rw [hp.1] at hmenu
  cases hmenu

/-- An engine that has begun another visit follows. -/
theorem of_succ (hserial : e₁.serial = e.serial + 1) : e.Follows e₁ :=
  Or.inl (hserial ▸ Nat.lt_succ_self _)

theorem refl (e : Engine τ) : e.Follows e := of_eq rfl rfl rfl

/-- What follows an engine that follows follows the first one. -/
theorem trans (h : e.Follows e₁) (h' : e₁.Follows e₂) : e.Follows e₂ := by
  rcases h with hless | ⟨hsame, hpositions⟩
  · rcases h' with hless' | ⟨hsame', _⟩
    · exact Or.inl (Nat.lt_trans hless hless')
    · exact Or.inl (hsame' ▸ hless)
  · rcases h' with hless' | ⟨hsame', hpositions'⟩
    · exact Or.inl (hsame ▸ hless')
    · exact Or.inr ⟨hsame'.trans hsame, fun p hp => hpositions p (hpositions' p hp)⟩

/-- The serial does not become smaller. -/
theorem serial_le (h : e.Follows e₁) : e.serial ≤ e₁.serial := by
  rcases h with hless | ⟨hsame, _⟩
  · exact Nat.le_of_lt hless
  · exact Nat.le_of_eq hsame.symm

/-- An engine follows when it goes on. -/
theorem stepForward (e : Engine τ) : e.Follows e.stepForward := by
  rcases e.exists_stepForward with hstay | ⟨scene, hmove⟩
  · rw [hstay]
    exact refl e
  · rw [hmove]
    exact of_succ rfl

/-- An engine follows when it accepts an input. -/
theorem of_accepts (hediting : e.settings.editing = false) {input : Input}
    (ha : Accepts e input (.done e₁)) : e.Follows e₁ := by
  cases ha with
  | openScenarioSelect _ => exact of_menu rfl rfl
  | openSaveSelect _ => exact of_menu rfl rfl
  | back _ => exact of_menu rfl rfl
  | wait _ _ => exact refl e
  | advance _ _ => exact stepForward e
  | choose _ _ _ _ =>
    split
    · exact refl e
    · exact stepForward e
  | togglePause _ => exact of_eq rfl rfl rfl
  | exitToMainMenu => exact of_succ rfl
  | editor hedit =>
    obtain ⟨hediting', _⟩ := edited_of_edit hedit
    rw [hediting] at hediting'
    cases hediting'

/-- An engine follows when it answers an input. -/
theorem of_answers (hediting : e.settings.editing = false) {input : Input} {now : Nat}
    {result : Except Refusal Unit} (ha : Answers e input now (e₁, result)) : e.Follows e₁ := by
  cases ha with
  | refused _ => exact of_eq rfl rfl rfl
  | done haccepts => exact of_accepts hediting haccepts
  | unplayable _ hloads _ => exact of_eq hloads.serial_eq hloads.state_eq hloads.player_eq
  | entered _ hloads _ _ hentered =>
    obtain ⟨_, _, _, rfl⟩ := enterLoaded_eq_ok hentered
    exact of_succ (congrArg (· + 1) hloads.serial_eq)

end Follows

/-- Whatever is asked of an engine without the editor, the serial tells whether the position may
have changed. -/
theorem follows_call {m : Type → Type} [Monad m] [LawfulMonad m] [MonadAttach m]
    [LawfulMonadAttach m] {source : Source m τ} (hediting : e.settings.editing = false) {c : Call}
    (hc : CanReturn (e.call source c) e₁) : e₁.settings = e.settings ∧ e.Follows e₁ := by
  cases c with
  | handle input now =>
    obtain ⟨result, hanswers⟩ := exists_answers_of_canReturn_call hc
    exact ⟨hanswers.settings_eq, .of_answers hediting hanswers⟩
  | tick dt now =>
    obtain rfl := eq_of_canReturn_pure hc
    obtain ⟨reveal, history, recorded, htick⟩ := e.exists_fst_tick dt now
    rw [htick]
    exact ⟨rfl, .of_eq rfl rfl rfl⟩
  | rescan ls =>
    obtain rfl := eq_of_canReturn_pure hc
    split
    · next hrescan =>
      rw [rescanListed] at hrescan
      split at hrescan
      · cases hrescan
      · cases hrescan
        exact ⟨rfl, .of_eq rfl rfl rfl⟩
    · exact ⟨rfl, .refl e⟩
  | setCatalog names =>
    obtain rfl := eq_of_canReturn_pure hc
    exact ⟨rfl, .of_eq rfl rfl rfl⟩
  | takeReports =>
    obtain rfl := eq_of_canReturn_pure hc
    exact ⟨rfl, .of_eq rfl rfl rfl⟩

/-- The frames of a scene that is being played have its serial. -/
theorem Coherent.shownSerial_eq (h : e.Coherent) {p : Position} (hp : e.position? = some p) :
    e.shownSerial = e.serial := by
  obtain ⟨hs, _⟩ := position?_eq_some_iff.mp hp
  obtain ⟨k, entry, hheld⟩ := h.held hs
  rw [shownSerial, hheld.currentScene_eq hs, List.getElem?_eq_getElem hheld.scene_lt,
    Option.isSome_some, if_pos rfl]

/-- Where there is no position the frame that is shown has no serial. -/
theorem shownSerial_eq_zero (h : e.position? = none) : e.shownSerial = 0 := by
  have hmenu : e.state.isPlaying = false := by
    rw [position?] at h
    split at h
    · cases h
    · next hs =>
      cases hstate : e.state with
      | playing scenario scene => exact absurd hstate (hs scenario scene)
      | _ => rfl
  rw [shownSerial, currentScene_eq_none hmenu, Option.isSome_none]
  rfl

end Engine

namespace Session

variable {s s' : Session} {a : Act} {p : Position}

open SaveFolder (keyOf autosaveName readText_of_save readText_save_of_eq readText_save_of_ne
  readText_delete_of_ne)

/-- The automatic save is the save of a position. -/
def Holds (s : Session) (p : Position) : Prop :=
  s.disk.readText (s.saves.path autosaveName) = .ok (SaveRecord.ofPosition p).toText

/-- A session that saves automatically, in which the automatic save holds the position if the
last frame had the serial of the engine. -/
structure Current (s : Session) : Prop where
  unedited : s.editing = false
  saving : s.config.game.autoSave = true
  engine_unedited : s.engine.settings.editing = false
  coherent : s.engine.Coherent
  behind : s.lastSerial ≤ s.engine.serial
  saved : s.lastSerial = s.engine.serial → ∀ p ∈ s.engine.position?, s.Holds p

/-- The automatic save can be written if one is due once the session has settled. -/
def Writable (s : Session) : Prop :=
  s.shown.2.serial ≠ s.lastSerial →
    ∀ p ∈ s.engine.position?, ∃ path, (s.saves.autosave s.disk (.ofPosition p)).2 = .ok path

/-- Every automatic save that is due while some things are done can be written. -/
def WritableAlong (s : Session) : List Act → Prop
  | [] => True
  | a :: as => (a = .settle → s.Writable) ∧ (s.act a).WritableAlong as

/-- Whatever the engine is asked, the automatic save holds the position. -/
theorem Current.asked (h : Current s) (hasked : Asked s s') : Current s' := by
  obtain ⟨calls, hengine, _⟩ := hasked.engine
  have hrun : CanReturn (s.engine.run s.disk.source calls) s'.engine := by
    rw [hengine]
    exact canReturn_run _
  obtain ⟨hsettings, hcoherent, hfollows⟩ : s'.engine.settings = s.engine.settings ∧
      s'.engine.Coherent ∧ s.engine.Follows s'.engine := by
    refine Engine.of_canReturn_run (P := fun e => e.settings = s.engine.settings ∧ e.Coherent ∧
      s.engine.Follows e) ?_ ⟨rfl, h.coherent, .refl _⟩ hrun
    rintro c _ e e' ⟨hsettings, hcoherent, hfollows⟩ hcall
    have hediting : e.settings.editing = false := by
      rw [hsettings]
      exact h.engine_unedited
    obtain ⟨hsettings', hfollows'⟩ := Engine.follows_call hediting hcall
    exact ⟨hsettings'.trans hsettings, hcoherent.call hcall, hfollows.trans hfollows'⟩
  have hunedited : s'.editing = false := hasked.kept.editing.trans h.unedited
  have hsaving : s'.config.game.autoSave = true := by
    rw [hasked.kept.config]
    exact h.saving
  have hengine_unedited : s'.engine.settings.editing = false := by
    rw [hsettings]
    exact h.engine_unedited
  have hbehind : s'.lastSerial ≤ s'.engine.serial := by
    rw [hasked.lastSerial]
    exact Nat.le_trans h.behind hfollows.serial_le
  refine ⟨hunedited, hsaving, hengine_unedited, hcoherent, hbehind, fun hserial p hp => ?_⟩
  rw [hasked.lastSerial] at hserial
  rw [Holds, hasked.disk, hasked.kept.saves]
  rcases hfollows with hless | ⟨hsame, hpositions⟩
  · have hless' : s.lastSerial < s'.engine.serial := Nat.lt_of_le_of_lt h.behind hless
    exact absurd hserial (Nat.ne_of_lt hless')
  · exact h.saved (hserial.trans hsame) p (hpositions p hp)

/-- A position that is saved by hand is the one that the automatic save would hold. -/
theorem Current.saved_by_hand (h : Current s) (hp : s.engine.position? = some p) (name : String) :
    Current { s with disk := (s.saves.save s.disk name (.ofPosition p)).1 } := by
  refine ⟨h.unedited, h.saving, h.engine_unedited, h.coherent, h.behind, fun hserial p' hp' => ?_⟩
  obtain rfl : p = p' := Option.some.inj (hp.symm.trans hp')
  have hheld : s.Holds p := h.saved hserial p hp
  by_cases hkey : keyOf name = keyOf autosaveName
  · exact readText_save_of_eq hkey hheld
  · exact readText_save_of_ne hkey hheld _

/-- Deleting another save leaves the automatic one. -/
theorem Current.deleted (h : Current s) {name : String} {disk : Disk}
    (hkey : keyOf name ≠ keyOf autosaveName) (hdelete : s.saves.delete s.disk name = .ok disk) :
    Current { s with disk } := by
  refine ⟨h.unedited, h.saving, h.engine_unedited, h.coherent, h.behind, fun hserial p hp => ?_⟩
  exact readText_delete_of_ne hkey (h.saved hserial p hp) hdelete

/-- A frame of the visit that was saved is not saved again. -/
theorem autosave_of_eq {f : Frame} (h : f.serial = s.lastSerial) : s.autosave f = s := by
  unfold autosave
  exact if_pos h

/-- Where there is no position nothing is saved. -/
theorem autosave_of_none (h : s.engine.position? = none) (f : Frame) :
    s.autosave f = { s with lastSerial := f.serial } := by
  unfold autosave
  split
  · next hsame => rw [hsame]
  · dsimp only
    split
    · rfl
    · rw [h]

/-- The first frame of a visit is saved with its position. -/
theorem Current.autosave_of_ne (h : Current s) {f : Frame} (hne : f.serial ≠ s.lastSerial)
    (hp : s.engine.position? = some p) :
    s.autosave f = { s with
      lastSerial := f.serial
      disk := (s.saves.autosave s.disk (.ofPosition p)).1 } := by
  unfold autosave
  rw [if_neg hne]
  simp only [h.saving, h.unedited, hp, Bool.not_true, Bool.or_false, Bool.false_eq_true, if_false]

/-- The automatic save is written once the frame is presented, or holds the position already. -/
theorem Current.presented (h : Current s) (hwritable : s.Writable)
    (hpresented : s.presented? = some s') :
    Current (s'.autosave s.shown.2) ∧ ∀ p ∈ s.engine.position?,
      (s'.autosave s.shown.2).engine.position? = some p ∧ (s'.autosave s.shown.2).Holds p := by
  obtain ⟨hframe, _⟩ := s.exists_shown
  have hasked : Asked s s' := Asked.presented hpresented
  have hcurrent : Current s' := h.asked hasked
  obtain ⟨reveal, history, recorded, hshown⟩ := s.exists_engine_shown
  have hengine := engine_presented hpresented
  rw [hshown] at hengine
  have hserial : s'.engine.serial = s.engine.serial := by rw [hengine]
  have hposition : s'.engine.position? = s.engine.position? := by
    rw [hengine]
    rfl
  cases hp : s.engine.position? with
  | none =>
    rw [autosave_of_none (hposition.trans hp)]
    have hzero : s.shown.2.serial = 0 := hframe.trans (Engine.shownSerial_eq_zero hp)
    refine ⟨⟨hcurrent.unedited, hcurrent.saving, hcurrent.engine_unedited,
      hcurrent.coherent, hzero ▸ Nat.zero_le _, fun _ p hp' => ?_⟩, fun p hp' => nomatch hp'⟩
    cases hp'.symm.trans (hposition.trans hp)
  | some p =>
    have hnew : s.shown.2.serial = s'.engine.serial :=
      (hframe.trans (h.coherent.shownSerial_eq hp)).trans hserial.symm
    have hnow : s'.engine.position? = some p := hposition.trans hp
    by_cases hsame : s.shown.2.serial = s'.lastSerial
    · rw [autosave_of_eq hsame]
      have hheld : s'.Holds p := hcurrent.saved (hsame.symm.trans hnew) p hnow
      refine ⟨hcurrent, ?_⟩
      rintro _ ⟨⟩
      exact ⟨hnow, hheld⟩
    · rw [hcurrent.autosave_of_ne hsame hnow]
      obtain ⟨path, hpath⟩ := hwritable (hasked.lastSerial ▸ hsame) p hp
      rw [← hasked.kept.saves, ← hasked.disk] at hpath
      have hheld := readText_of_save (Prod.ext rfl hpath)
      refine ⟨⟨hcurrent.unedited, hcurrent.saving, hcurrent.engine_unedited,
        hcurrent.coherent, Nat.le_of_eq hnew, fun _ p' hp' => ?_⟩, ?_⟩
      · obtain rfl : p = p' := Option.some.inj (hnow.symm.trans hp')
        exact hheld
      · rintro _ ⟨⟩
        exact ⟨hnow, hheld⟩

/-- A session stays current while it settles, at its position, and has saved it if it settles to
its end. -/
theorem Current.settle (h : Current s) (hwritable : s.Writable) :
    Current (s.act .settle) ∧ ∀ p ∈ s.engine.position?,
      (s.act .settle).engine.position? = some p ∧
        (s.settle.2.isSome = true → (s.act .settle).Holds p) := by
  rw [Session.act]
  cases hpresented : s.presented? with
  | none =>
    rw [settle_of_none hpresented]
    refine ⟨h.asked (Asked.shown s), fun p hp =>
      ⟨?_, fun hended => absurd hended Bool.false_ne_true⟩⟩
    obtain ⟨reveal, history, recorded, hshown⟩ := s.exists_engine_shown
    rw [hshown]
    exact hp
  | some s' =>
    rw [settle_of_some hpresented]
    obtain ⟨hcurrent, hsaved⟩ := h.presented hwritable hpresented
    exact ⟨hcurrent, fun p hp => ⟨(hsaved p hp).1, fun _ => (hsaved p hp).2⟩⟩

/-- A session that is at a position settles to its end if the scene can be counted from one. -/
theorem isSome_settle_iff (hp : s.engine.position? = some p) :
    s.settle.2.isSome = true ↔ p.scene < Text.maxIndex := by
  obtain ⟨hstate, _⟩ := Engine.position?_eq_some_iff.mp hp
  rw [isSome_settle, hstate]
  exact decide_eq_true_iff

/-- The automatic save holds the position after an act that spares it, if it can be written. -/
theorem Current.act (h : Current s)
    (hspared : ∀ name, a = .execute (.delete name) → keyOf name ≠ keyOf autosaveName)
    (hwritable : a = .settle → s.Writable) : Current (s.act a) := by
  have hcourse := course_act h.unedited a
  generalize s.act a = s' at hcourse
  cases hcourse with
  | asked hasked => exact h.asked hasked
  | saved name hposition => exact h.saved_by_hand hposition name
  | deleted hdelete => exact h.deleted (hspared _ rfl) hdelete
  | settled hpresented => exact (h.presented (hwritable rfl) hpresented).1

/-- The automatic save holds the position after acts that spare it, if it can be written whenever it
is due. -/
theorem Current.acts {as : List Act} (h : Current s)
    (hspared : ∀ name, .execute (.delete name) ∈ as → keyOf name ≠ keyOf autosaveName)
    (hwritable : s.WritableAlong as) : Current (s.acts as) := by
  induction as generalizing s with
  | nil => exact h
  | cons a as ih =>
    obtain ⟨hnow, hthen⟩ := hwritable
    have hact : Current (s.act a) := by
      refine h.act (fun name hdelete => hspared name ?_) hnow
      exact hdelete ▸ List.mem_cons_self
    exact ih hact (fun name hname => hspared name (List.mem_cons_of_mem _ hname)) hthen

/-- What is due can be written along some acts and others if it can along each of them. -/
theorem writableAlong_append {as bs : List Act} :
    s.WritableAlong (as ++ bs) ↔ s.WritableAlong as ∧ (s.acts as).WritableAlong bs := by
  induction as generalizing s with
  | nil => exact ⟨fun h => ⟨trivial, h⟩, fun h => h.2⟩
  | cons a as ih =>
    rw [List.cons_append, WritableAlong, WritableAlong, ih, and_assoc]
    rfl

/-- A session that was opened has nothing to save yet. -/
theorem current_opened {config : Config} (hsaving : config.game.autoSave = true)
    (languages : Languages) (clock : Clock) (disk : Disk) (ds : List Descriptor)
    (music : Registry String) :
    Current (opened config false languages clock disk ds music) where
  unedited := rfl
  saving := hsaving
  engine_unedited := rfl
  coherent := (Engine.coherent_startListed _ _).aside _ _ _
  behind := Nat.zero_le _
  saved := fun _ _ hp => nomatch hp

/-- Where the game is saved automatically, and every automatic save that is due can be written
and none is deleted, the automatic save is that of the position whenever a session has settled
in a scenario. It settles to its end in every scene that can be counted from one. -/
theorem load_autosave {config : Config} {languages : Languages} {clock : Clock}
    {disk disk' : Disk} (hstart : start config false languages clock disk = (disk', .ok s))
    (hsaving : config.game.autoSave = true) (as : List Act)
    (hspared : ∀ name, .execute (.delete name) ∈ as → keyOf name ≠ keyOf autosaveName)
    (hwritable : s.WritableAlong (as ++ [.settle]))
    (hp : (s.acts as).engine.position? = some p) :
    let s' := s.acts (as ++ [.settle])
    s'.engine.position? = some p ∧
      ((s.acts as).settle.2.isSome = true ↔ p.scene < Text.maxIndex) ∧
      (p.scene < Text.maxIndex →
        s'.saves.load s'.disk autosaveName = .ok (.ofPosition p)) := by
  intro s'
  obtain ⟨hbefore, hlast, _⟩ := writableAlong_append.mp hwritable
  have hcurrent : Current (s.acts as) := by
    obtain ⟨_, rfl⟩ := start_eq_ok_iff.mp hstart
    exact (current_opened hsaving _ _ _ _ _).acts hspared hbefore
  have hs' : s' = (s.acts as).act .settle := List.foldl_append
  obtain ⟨hposition, hheld⟩ := (hcurrent.settle (hlast rfl)).2 p hp
  rw [← hs'] at hposition hheld
  refine ⟨hposition, isSome_settle_iff hp, fun hindex => ?_⟩
  rw [SaveFolder.load_of_readText (hheld ((isSome_settle_iff hp).mpr hindex))]
  apply SaveRecord.ofText_toText rfl
  rintro scene ⟨⟩
  exact Nat.le_of_lt hindex

/-- A scenario of two scenes. -/
def twoSceneText : String := "[scene_start]\n[scene_end]\n[scene_start]\n[scene_end]"

/-- A game of one scenario, all directories of which are there. -/
def twoSceneDisk : Disk :=
  ⟨⟨[("game", .directory ⟨[
    ("scenarios", .directory ⟨[("a.sc", .file (.text twoSceneText))]⟩),
    ("textures", .directory .empty), ("sounds", .directory .empty),
    ("saves", .directory .empty), ("translations", .directory .empty)]⟩)]⟩⟩

/-- The configuration of a game that is saved automatically. -/
def savingConfig : Config :=
  { Config.standard with game := ⟨false, Settings.defaultSpeed, true, none⟩ }

/-- The session in which this game begins. -/
def savingSession : Session :=
  opened savingConfig false .empty ⟨0, "now"⟩ twoSceneDisk
    [⟨"a.sc", "game/scenarios/a.sc", "game/textures/a", "game/sounds/a"⟩] .empty

theorem start_savingConfig : start savingConfig false .empty ⟨0, "now"⟩ twoSceneDisk =
    (twoSceneDisk, .ok savingSession) := by
  have hscenarios : twoSceneDisk.list "game/scenarios" =
      [("a.sc", .file (.text twoSceneText))] :=
    Disk.list_eq_of_sorted (l := ["game", "scenarios"])
      (s := ⟨⟨[("a.sc", .file (.text twoSceneText))]⟩⟩) rfl rfl (List.pairwise_singleton _ _)
  have hsounds : twoSceneDisk.list "game/sounds" = [] :=
    Disk.list_eq_of_sorted (l := ["game", "sounds"]) (s := .empty) rfl rfl .nil
  have hfolder : GameFolder.ofConfig savingConfig =
      ⟨"game/scenarios", "game/textures", "game/sounds", "game/saves", "game/translations"⟩ := rfl
  rw [start_eq_ok_iff, hfolder, GameFolder.scan, GameFolder.scanMusic, Disk.filesWith,
    Disk.filesWith, hscenarios, hsounds]
  exact ⟨rfl, rfl⟩

/-- The automatic save can be written if writing it goes well. -/
theorem writable_of_isOk (hp : s.engine.position? = some p)
    (h : (s.saves.autosave s.disk (.ofPosition p)).2.isOk = true) : s.Writable := by
  intro _ p' hp'
  obtain rfl : p = p' := Option.some.inj (hp.symm.trans hp')
  cases hresult : (s.saves.autosave s.disk (.ofPosition p)).2 with
  | ok path => exact ⟨path, rfl⟩
  | error reason =>
    rw [hresult] at h
    cases h

/-- A player comes to the second scene, and saves the first one under a name of points. -/
def secondSceneActs : List Act :=
  [.execute (.start (some "a.sc") "Ann"), .settle, .execute (.save (some "...")), .execute .next]

/-- The automatic save is that of the second scene. -/
theorem load_autosave_secondScene :
    let s := savingSession.acts (secondSceneActs ++ [.settle])
    s.engine.position? = some ⟨"a.sc", "Ann", 1⟩ ∧
      s.saves.load s.disk autosaveName = .ok (.ofPosition ⟨"a.sc", "Ann", 1⟩) := by
  have hfirst : (savingSession.acts [.execute (.start (some "a.sc") "Ann")]).Writable :=
    writable_of_isOk (p := ⟨"a.sc", "Ann", 0⟩) (by decide +kernel) (by decide +kernel)
  have hposition : (savingSession.acts secondSceneActs).engine.position? =
      some ⟨"a.sc", "Ann", 1⟩ := by decide +kernel
  have hsecond : (savingSession.acts secondSceneActs).Writable :=
    writable_of_isOk hposition (by decide +kernel)
  have hwritable : savingSession.WritableAlong (secondSceneActs ++ [.settle]) :=
    ⟨nofun, fun _ => hfirst, nofun, nofun, fun _ => hsecond, trivial⟩
  obtain ⟨hsame, _, hsaved⟩ := load_autosave start_savingConfig rfl secondSceneActs
    (by simp [secondSceneActs]) hwritable hposition
  exact ⟨hsame, hsaved (by decide)⟩

end Session

end VisualNovel

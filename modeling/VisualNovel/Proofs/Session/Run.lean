import VisualNovel.Proofs.Playback.Coherence
import VisualNovel.Session

/-!
# Runs of a session

What can be done with a session, one thing after the other. Without the editor, whatever is
done asks the engine something, or writes or deletes a save, or lets the session settle, which
lets time pass and may write the automatic save. Everything else on the disk stays as it is. Where
the program breaks off, at a frame or at a list of saves, the engine was asked something and that
is all.
-/

namespace VisualNovel

/-- Whether a command is one for the editor. -/
def Command.isEditing : Command → Bool
  | .newScenario _ | .edit _ => true
  | _ => false

namespace Session

variable {s s₁ s₂ : Session}

/-- What can be done with a session, while time goes on. -/
inductive Act where
  | execute (command : Command)
  | settle
  | intro (skip : Bool)
  | wait (clock : Clock)

/-- The session after something was done with it. -/
def act (s : Session) : Act → Session
  | .execute command => (s.execute command).1
  | .settle => s.settle.1
  | .intro skip => s.runIntro skip
  | .wait clock => { s with clock }

/-- The session after some things were done with it. -/
def acts (s : Session) (as : List Act) : Session := as.foldl act s

/-- A session that begins with the scenarios and the music that were found on a disk. -/
def opened (config : Config) (editing : Bool) (languages : Languages) (clock : Clock) (disk : Disk)
    (ds : List Descriptor) (music : Registry String) : Session where
  config
  editing
  disk
  clock
  folder := .ofConfig config
  saves := ⟨(GameFolder.ofConfig config).saves⟩
  music
  engine := (Engine.start (config.settings editing) ds).setCatalog music.names
  console := .start languages config.game.menuLanguage
  audio := Audio.start.withVolumes config.audio.musicGain config.audio.soundGain
  intro := .start
  lastSerial := 0
  printed := []
  played := []

/-- A session begins once its directories were made. -/
theorem start_eq_ok_iff {config : Config} {editing : Bool} {languages : Languages} {clock : Clock}
    {disk disk' : Disk} : start config editing languages clock disk = (disk', .ok s) ↔
      (GameFolder.ofConfig config).ensure disk = (disk', .ok ()) ∧
        s = opened config editing languages clock disk' ((GameFolder.ofConfig config).scan disk')
          ((GameFolder.ofConfig config).scanMusic disk') := by
  unfold start
  dsimp only
  generalize (GameFolder.ofConfig config).ensure disk = result
  obtain ⟨made, reason | ⟨⟨⟩⟩⟩ := result
  · simp
  · simp only [Prod.mk.injEq, Except.ok.injEq, and_true]
    constructor
    · rintro ⟨rfl, rfl⟩
      exact ⟨rfl, rfl⟩
    · rintro ⟨rfl, rfl⟩
      exact ⟨rfl, rfl⟩

/-- What of a session never changes. -/
structure Kept (s s' : Session) : Prop where
  config : s'.config = s.config
  editing : s'.editing = s.editing
  folder : s'.folder = s.folder
  saves : s'.saves = s.saves

namespace Kept

theorem refl (s : Session) : Kept s s := ⟨rfl, rfl, rfl, rfl⟩

theorem trans (h : Kept s s₁) (h' : Kept s₁ s₂) : Kept s s₂ :=
  ⟨h'.config.trans h.config, h'.editing.trans h.editing, h'.folder.trans h.folder,
    h'.saves.trans h.saves⟩

end Kept

/-- A session of which only the engine is asked something, with the disk as its source. Other
scenarios are looked for on the disk alone. -/
structure Asked (s s' : Session) : Prop where
  kept : Kept s s'
  disk : s'.disk = s.disk
  lastSerial : s'.lastSerial = s.lastSerial
  engine : ∃ calls : List Call, s'.engine = (s.engine.run s.disk.source calls).run ∧
    ∀ ls, .rescan ls ∈ calls → ls = (s.folder.scan s.disk).map .found

namespace Asked

theorem refl (s : Session) : Asked s s := ⟨.refl s, rfl, rfl, [], rfl, by simp⟩

theorem trans (h : Asked s s₁) (h' : Asked s₁ s₂) : Asked s s₂ := by
  obtain ⟨calls, hengine, hlisted⟩ := h.engine
  obtain ⟨calls', hengine', hlisted'⟩ := h'.engine
  refine ⟨h.kept.trans h'.kept, h'.disk.trans h.disk, h'.lastSerial.trans h.lastSerial,
    calls ++ calls', ?_, ?_⟩
  · rw [hengine', hengine, h.disk, Engine.run, Engine.run, Engine.run, List.foldlM_append]
    rfl
  · intro ls hls
    rcases List.mem_append.mp hls with hls | hls
    · exact hlisted ls hls
    · rw [hlisted' ls hls, h.disk, h.kept.folder]

/-- What is shown and heard does not matter. -/
theorem of_eq (hkept : Kept s s₁) (hdisk : s₁.disk = s.disk)
    (hlast : s₁.lastSerial = s.lastSerial) (hengine : s₁.engine = s.engine) : Asked s s₁ :=
  ⟨hkept, hdisk, hlast, [], hengine, by simp⟩

/-- Printing asks the engine nothing. -/
theorem print (s : Session) (output : Console × List String) : Asked s (s.print output) :=
  of_eq ⟨rfl, rfl, rfl, rfl⟩ rfl rfl rfl

/-- Printing a list asks the engine nothing. -/
theorem showList (s : Session) (title : String) (items : List String) :
    Asked s (s.showList title items) :=
  print s _

/-- Sending an input asks the engine for its answer. -/
theorem send (s : Session) (input : Input) : Asked s (s.send input) :=
  ⟨⟨rfl, rfl, rfl, rfl⟩, rfl, rfl, [.handle input s.clock.seconds], rfl, by simp⟩

/-- On leaving the main menu the engine is asked for two inputs at most. -/
theorem leaveMainMenu (s : Session) (menu : Input) : Asked s (s.leaveMainMenu menu) := by
  rw [Session.leaveMainMenu]
  split
  · exact send s menu
  · exact refl s

/-- The scenarios are looked for again on the disk. -/
theorem rescan (s : Session) : Asked s s.rescan := by
  refine ⟨⟨rfl, rfl, rfl, rfl⟩, rfl, rfl,
    [.setCatalog (s.folder.scanMusic s.disk).names,
      .rescan ((s.folder.scan s.disk).map .found)], ?_, by simp⟩
  simp only [Session.rescan, Engine.rescan, Engine.run, Engine.call, List.foldlM_cons,
    List.foldlM_nil, pure_bind]
  cases (s.engine.setCatalog (s.folder.scanMusic s.disk).names).rescanListed
      ((s.folder.scan s.disk).map .found) with
  | ok e => rfl
  | error reason => rfl

/-- The frames of the intro are those of ticks. -/
theorem introFrames (n : Nat) (s : Session) : Asked s (Session.introFrames n s) := by
  induction n generalizing s with
  | zero => exact refl s
  | succ n ih =>
    rw [Session.introFrames]
    split
    · exact refl s
    · have hupdated : Asked s { s with intro := s.intro.update frameTime } :=
        of_eq ⟨rfl, rfl, rfl, rfl⟩ rfl rfl rfl
      exact hupdated.trans ((print _ _).trans (ih _))

/-- The intro asks the engine for ticks and for what skips it. -/
theorem runIntro (s : Session) (skip : Bool) : Asked s (s.runIntro skip) := by
  have hskip : Asked s (if skip then { s with intro := s.intro.skip } else s) := by
    cases skip with
    | true => exact of_eq ⟨rfl, rfl, rfl, rfl⟩ rfl rfl rfl
    | false => exact refl s
  exact hskip.trans (introFrames _ _)

/-- A list of saves changes nothing but the console, if the program does not break off at it. -/
theorem showSaves (s : Session) : Asked s s.showSaves.1 := by
  unfold Session.showSaves
  split
  · exact refl s
  · exact showList s _ _

/-- A frame that is presented is seen and heard, and that is all. -/
theorem present? {f : Frame} (h : s.present? f = some s₁) : Asked s s₁ := by
  rw [Session.present?] at h
  obtain ⟨output, _, hrest⟩ := Option.bind_eq_some_iff.mp h
  cases hrest
  exact of_eq ⟨rfl, rfl, rfl, rfl⟩ rfl rfl rfl

end Asked

end Session

namespace Engine

variable {τ : Type}

/-- The serial of the frame that is shown next; the menus have none. -/
def shownSerial (e : Engine τ) : Nat := if e.currentScene.isSome then e.serial else 0

/-- The frame of a tick has the serial that is shown next. -/
theorem serial_snd_tick (e : Engine τ) (dt : Float32) (now : Nat) :
    (e.tick dt now).2.serial = e.shownSerial := by
  rw [shownSerial]
  cases hscene : e.currentScene with
  | none =>
    rw [tick, hscene]
    rfl
  | some s => rw [snd_tick hscene, serial_sceneFrame_tick, Option.isSome_some, if_pos rfl]

/-- Ticks move the text on and may write down what is said, and that is all. -/
theorem exists_run_ticks (source : Source Id τ) (dt : Float32) (now k : Nat) (e : Engine τ) :
    ∃ reveal history recorded, (e.run source (List.replicate k (.tick dt now))).run =
      { e with reveal, history, recorded } := by
  induction k generalizing e with
  | zero => exact ⟨e.reveal, e.history, e.recorded, rfl⟩
  | succ k ih =>
    obtain ⟨reveal, history, recorded, htick⟩ := e.exists_fst_tick dt now
    obtain ⟨reveal', history', recorded', hrest⟩ := ih (e.tick dt now).1
    have hcons : (e.run source (List.replicate (k + 1) (.tick dt now))).run =
        ((e.tick dt now).1.run source (List.replicate k (.tick dt now))).run := rfl
    refine ⟨reveal', history', recorded', ?_⟩
    rw [hcons, hrest, htick]

end Engine

namespace Session

variable {s s₁ : Session}

/-- While the text appears, the clock ticks. -/
theorem exists_tickUntilShown (source : Source Id Texture) (now n : Nat) {e : Engine Texture}
    {f : Frame} (hf : f.serial = e.shownSerial) :
    (tickUntilShown now n e f).2.serial = e.shownSerial ∧
      ∃ k, (tickUntilShown now n e f).1 =
        (e.run source (List.replicate k (.tick frameTime now))).run := by
  induction n generalizing e f with
  | zero => exact ⟨hf, 0, rfl⟩
  | succ n ih =>
    rw [tickUntilShown]
    split
    · exact ⟨hf, 0, rfl⟩
    · have hsame : (e.tick frameTime now).1.shownSerial = e.shownSerial := by
        obtain ⟨reveal, history, recorded, htick⟩ := e.exists_fst_tick frameTime now
        rw [htick]
        rfl
      obtain ⟨hserial, k, hticks⟩ := ih ((e.serial_snd_tick frameTime now).trans hsame.symm)
      exact ⟨hserial.trans hsame, k + 1, hticks⟩

/-- The session once the frame is presented, if the program does not break off at it. -/
def presented? (s : Session) : Option Session :=
  (({ s with engine := s.shown.1 } : Session).present? s.shown.2).map fun s₁ =>
    { s₁ with engine := s₁.engine.takeReports.2 }

/-- A session that settles draws a frame, presents it, and saves automatically. -/
theorem settle_eq (s : Session) : s.settle =
    match ({ s with engine := s.shown.1 } : Session).present? s.shown.2 with
    | none => ({ s with engine := s.shown.1 }, none)
    | some s₁ => (({ s₁ with engine := s₁.engine.takeReports.2 } : Session).autosave s.shown.2,
        some s.shown.2) := rfl

/-- A session that settles saves automatically once its frame is presented. -/
theorem settle_of_some (h : s.presented? = some s₁) :
    s.settle = (s₁.autosave s.shown.2, some s.shown.2) := by
  obtain ⟨s₂, hpresent, rfl⟩ := Option.map_eq_some_iff.mp h
  rw [settle_eq, hpresent]

/-- Where the program breaks off at the frame, time has passed and that is all. -/
theorem settle_of_none (h : s.presented? = none) :
    s.settle = ({ s with engine := s.shown.1 }, none) := by
  have hpresent := Option.map_eq_none_iff.mp h
  rw [settle_eq, hpresent]

/-- The frame that is shown comes of some ticks. -/
theorem exists_shown (s : Session) :
    s.shown.2.serial = s.engine.shownSerial ∧
      ∃ k, s.shown.1 =
        (s.engine.run s.disk.source (List.replicate k (.tick frameTime s.clock.seconds))).run := by
  have hsame : (s.engine.tick frameTime s.clock.seconds).1.shownSerial = s.engine.shownSerial := by
    obtain ⟨reveal, history, recorded, htick⟩ := s.engine.exists_fst_tick frameTime s.clock.seconds
    rw [htick]
    rfl
  have hfirst := s.engine.serial_snd_tick frameTime s.clock.seconds
  obtain ⟨hserial, k, hticks⟩ := exists_tickUntilShown s.disk.source s.clock.seconds
    (maxFrames - 1) (hfirst.trans hsame.symm)
  exact ⟨hserial.trans hsame, k + 1, hticks⟩

/-- While time passes, the engine is asked for its frames. -/
theorem Asked.shown (s : Session) : Asked s { s with engine := s.shown.1 } := by
  obtain ⟨_, k, hticks⟩ := s.exists_shown
  exact ⟨⟨rfl, rfl, rfl, rfl⟩, rfl, rfl, _, hticks, by simp⟩

/-- Until a frame is presented, the engine is asked for its frames and its reports. -/
theorem Asked.presented (h : s.presented? = some s₁) : Asked s s₁ := by
  obtain ⟨s₂, hpresent, rfl⟩ := Option.map_eq_some_iff.mp h
  have hreports : Asked s₂ { s₂ with engine := s₂.engine.takeReports.2 } :=
    ⟨⟨rfl, rfl, rfl, rfl⟩, rfl, rfl, [.takeReports], rfl, by simp⟩
  exact (Asked.shown s).trans ((Asked.present? hpresent).trans hreports)

/-- Presenting a frame leaves the engine to itself but for its reports. -/
theorem engine_presented (h : s.presented? = some s₁) :
    s₁.engine = { s.shown.1 with reports := [] } := by
  obtain ⟨s₂, hpresent, rfl⟩ := Option.map_eq_some_iff.mp h
  obtain ⟨output, _, hrest⟩ := Option.bind_eq_some_iff.mp hpresent
  cases hrest
  rfl

/-- Nothing that a save would record changes while time passes. -/
theorem exists_engine_shown (s : Session) :
    ∃ reveal history recorded, s.shown.1 = { s.engine with reveal, history, recorded } := by
  obtain ⟨_, k, hticks⟩ := s.exists_shown
  obtain ⟨reveal, history, recorded, hrun⟩ :=
    s.engine.exists_run_ticks s.disk.source frameTime s.clock.seconds k
  exact ⟨reveal, history, recorded, hticks.trans hrun⟩

/-- What may become of a session without the editor. -/
inductive Course (s : Session) : Act → Session → Prop where
  | asked {a : Act} {s' : Session} (asked : Asked s s') : Course s a s'
  | saved {given : Option String} {p : Position} (name : String)
      (position : s.engine.position? = some p) :
      Course s (.execute (.save given))
        { s with disk := (s.saves.save s.disk name (.ofPosition p)).1 }
  | deleted {name : String} {disk : Disk} (deleted : s.saves.delete s.disk name = .ok disk) :
      Course s (.execute (.delete name)) { s with disk }
  | settled {s' : Session} (presented : s.presented? = some s') :
      Course s .settle (s'.autosave s.shown.2)

/-- Loading a game asks the engine, or does nothing. -/
theorem course_loadGame (s : Session) (name : String) :
    Course s (.execute (.load name)) (s.loadGame name).1 := by
  unfold loadGame
  cases s.saves.load s.disk name with
  | error e => exact .asked (.refl s)
  | ok record => exact .asked ((Asked.leaveMainMenu s _).trans (Asked.send _ _))

/-- Saving a game writes one save, or does nothing. -/
theorem course_saveGame (s : Session) (name : Option String) :
    Course s (.execute (.save name)) (s.saveGame name).1 := by
  unfold saveGame
  cases hposition : s.engine.position? with
  | none => exact .asked (.refl s)
  | some position =>
    have hsaved : Course s (.execute (.save name)) _ :=
      .saved (name.getD (SaveFolder.defaultName position.scenario s.clock.stamp)) hposition
    dsimp only
    generalize s.saves.save s.disk _ _ = result at hsaved ⊢
    obtain ⟨disk, _ | _⟩ := result
    · exact hsaved
    · exact hsaved

/-- Deleting a save removes one, or does nothing. -/
theorem course_deleteSave (s : Session) (name : String) :
    Course s (.execute (.delete name)) (s.deleteSave name).1 := by
  unfold deleteSave
  cases hdelete : s.saves.delete s.disk name with
  | error e => exact .asked (.refl s)
  | ok disk => exact .deleted hdelete

/-- Commands for the editor are refused without it. -/
theorem course_execute {command : Command} (h : command.isEditing = true → s.editing = false) :
    Course s (.execute command) (s.execute command).1 := by
  cases command with
  | list => exact .asked (Asked.showList s _ _)
  | openScenarioSelect => exact .asked (Asked.send s _)
  | openSaveSelect =>
    exact .asked ((Asked.send s .openSaveSelect).trans (Asked.showSaves (s.send .openSaveSelect)))
  | back => exact .asked (Asked.send s _)
  | start scenario player =>
    have hmenu : Asked s (s.leaveMainMenu .openScenarioSelect) := Asked.leaveMainMenu s _
    exact .asked (hmenu.trans (Asked.send _ (.startNewGame scenario player)))
  | load name =>
    rw [execute, fst_goOn]
    exact course_loadGame s name
  | save name =>
    rw [execute, fst_goOn]
    exact course_saveGame s name
  | delete name =>
    rw [execute, fst_goOn]
    exact course_deleteSave s name
  | next => exact .asked (Asked.send s _)
  | choose index => exact .asked (Asked.send s _)
  | pause => exact .asked (Asked.send s _)
  | exit => exact .asked (Asked.send s _)
  | history => exact .asked (Asked.showList s _ _)
  | rescan => exact .asked (Asked.rescan s)
  | newScenario name =>
    have hrefused : s.newScenario name = (s, .error .editorDisabled) := by
      unfold newScenario
      rw [h rfl]
      rfl
    have hasked : Asked s (s.newScenario name).1 := by
      rw [hrefused]
      exact .refl s
    exact .asked hasked
  | edit command =>
    have hrefused : s.edit command = (s, .error .editorDisabled) := by
      unfold Session.edit
      rw [h rfl]
      rfl
    have hasked : Asked s (s.edit command).1 := by
      rw [hrefused]
      exact .refl s
    exact .asked hasked
  | help => exact .asked (Asked.showList s _ _)
  | quit => exact .asked (.refl s)

/-- An automatic save changes the disk and what was saved last, and nothing else. -/
theorem exists_autosave_eq (s : Session) (f : Frame) :
    ∃ disk lastSerial, s.autosave f = { s with disk, lastSerial } := by
  unfold autosave
  split
  · exact ⟨s.disk, s.lastSerial, rfl⟩
  · dsimp only
    split
    · exact ⟨s.disk, f.serial, rfl⟩
    · split
      · exact ⟨s.disk, f.serial, rfl⟩
      · exact ⟨_, f.serial, rfl⟩

/-- Whatever is done, it is one of these. -/
theorem course_act (hediting : s.editing = false) (a : Act) : Course s a (s.act a) := by
  cases a with
  | execute command => exact course_execute fun _ => hediting
  | settle =>
    rw [act]
    cases hpresented : s.presented? with
    | none =>
      rw [settle_of_none hpresented]
      exact .asked (Asked.shown s)
    | some s₁ =>
      rw [settle_of_some hpresented]
      exact .settled hpresented
  | intro skip => exact .asked (Asked.runIntro s skip)
  | wait clock => exact .asked (.of_eq ⟨rfl, rfl, rfl, rfl⟩ rfl rfl rfl)

end Session

end VisualNovel

import VisualNovel.Proofs.Save
import VisualNovel.Proofs.Session.Choices
import VisualNovel.Proofs.Session.Settled

/-!
# Numbers that are printed

Scenes, portraits and choices are numbered from one on the screen. What a frame shows is numbered
below the number of scenes that are in memory and below the places of a quartet, whatever was done
with the session, and so its numbers are right. The scene of a save is any index of 64 bits, and it
is not looked at before the save is opened. A list of saves counts every index right but the
largest one: the program breaks off at it, and nothing of the list is printed.
-/

namespace VisualNovel

/-- The position of a save has its scene. -/
theorem SaveRecord.scene_le_of_toPosition {r : SaveRecord} {p : Position} {limit : Nat}
    (hr : ∀ scene ∈ r.scene, scene ≤ limit) (h : r.toPosition = .ok p) : p.scene ≤ limit := by
  rw [toPosition] at h
  split at h
  · cases h
  · split at h
    · cases h
    · split at h
      · cases h
      · next scene hscene =>
        cases h
        exact hr scene hscene

namespace Session

variable {s s₁ : Session}

/-- A scene that is being played is one of those in memory, of which there are not too many. -/
theorem isCountable_start (h : s.engine.Coherent)
    (hscenes : s.engine.activeScenes.length ≤ Text.maxIndex) :
    (DrawCall.start s.engine.state).isCountable = true := by
  cases hstate : s.engine.state with
  | playing scenario scene =>
    obtain ⟨k, entry, hheld⟩ := h.held hstate
    rw [hheld.activeScenes] at hscenes
    exact decide_eq_true (Nat.lt_of_lt_of_le hheld.scene_lt hscenes)
  | _ => rfl

/-- The lines of the frame that is presented next, counted without any limit. -/
def countedFrame (s : Session) : List String :=
  s.console.frameLines s.shown.2 fun name => s.shown.1.texture? (some name)

/-- An automatic save prints nothing. -/
theorem printed_autosave (s : Session) (f : Frame) : (s.autosave f).printed = s.printed := by
  obtain ⟨disk, lastSerial, heq⟩ := exists_autosave_eq s f
  rw [heq]

/-- What is printed of a frame comes from the console. -/
theorem printed_presented (h : s.presented? = some s₁) :
    ∃ output, s.console.present (s.shown.2.draw fun name => s.shown.1.texture? (some name)) =
      some output ∧ s₁.printed = s.printed ++ output.2 := by
  obtain ⟨s₂, hpresent, rfl⟩ := Option.map_eq_some_iff.mp h
  obtain ⟨output, houtput, hrest⟩ := Option.bind_eq_some_iff.mp hpresent
  cases hrest
  exact ⟨output, houtput, rfl⟩

/-- A session that settles prints the lines of its frame, unless they are on the screen. -/
theorem printed_settle (h : s.engine.Coherent)
    (hscenes : s.engine.activeScenes.length ≤ Text.maxIndex) :
    s.settle.2 = some s.shown.2 ∧ s.settle.1.printed = s.printed ++
      if s.countedFrame = s.console.last then [] else s.countedFrame := by
  obtain ⟨s₁, hpresented⟩ : ∃ s₁, s.presented? = some s₁ := by
    rw [← Option.isSome_iff_exists, isSome_presented?]
    exact isCountable_start h hscenes
  obtain ⟨output, houtput, hprinted⟩ := printed_presented hpresented
  rw [settle_of_some hpresented]
  refine ⟨rfl, ?_⟩
  rw [printed_autosave, hprinted]
  rw [Console.present_draw] at houtput
  split at houtput
  · cases houtput
    rw [countedFrame]
    split
    · rfl
    · rfl
  · cases houtput

/-- The line of a save, counted without any limit. -/
def countedSaveLine (s : Session) (name : String) : String :=
  match s.saves.info? s.disk name with
  | some info =>
    name ++ ": " ++ info.position.scenario ++ " #" ++ Text.showNat (info.position.scene + 1) ++
      " (" ++ info.position.player ++ ")"
  | none => name ++ ": ?"

/-- Whether the scene of a save can be counted from one; of a save that is not accepted, no scene is
shown. -/
def countsSave (s : Session) (name : String) : Bool :=
  (s.saves.info? s.disk name).all fun info => info.position.scene < Text.maxIndex

/-- The line of a save is a matter of the folder of saves and of the disk. -/
theorem countedSaveLine_congr (hsaves : s₁.saves = s.saves) (hdisk : s₁.disk = s.disk) :
    s₁.countedSaveLine = s.countedSaveLine ∧ s₁.countsSave = s.countsSave := by
  constructor
  · funext name
    unfold countedSaveLine
    rw [hsaves, hdisk]
  · funext name
    unfold countsSave
    rw [hsaves, hdisk]

/-- A save has its line if its scene can be counted, and no line otherwise. -/
theorem saveLine?_eq (s : Session) (name : String) : s.saveLine? name =
    if s.countsSave name then some (s.countedSaveLine name) else none := by
  unfold saveLine? countedSaveLine countsSave
  cases s.saves.info? s.disk name with
  | none => rfl
  | some info => exact Console.map_showOrdinal? _ info.position.scene

/-- The list of saves has a line for each of them, or the program breaks off before any of it is
printed. -/
theorem showSaves_eq (s : Session) : s.showSaves =
    if (s.saves.list s.disk).all s.countsSave then
      (s.showList "Saves" ((s.saves.list s.disk).map s.countedSaveLine), .goOn)
    else (s, .breakOff) := by
  rw [showSaves, Console.mapM_eq_ite s.saveLine?_eq]
  cases (s.saves.list s.disk).all s.countsSave with
  | false => rfl
  | true => rfl

/-- The engine is asked for the selection of saves before they are listed. -/
theorem execute_openSaveSelect (s : Session) : s.execute .openSaveSelect =
    if (s.saves.list s.disk).all s.countsSave then
      ((s.send .openSaveSelect).showList "Saves" ((s.saves.list s.disk).map s.countedSaveLine),
        .ok .goOn)
    else (s.send .openSaveSelect, .ok .breakOff) := by
  have hsaves : (s.send .openSaveSelect).saves = s.saves := rfl
  have hdisk : (s.send .openSaveSelect).disk = s.disk := rfl
  obtain ⟨hline, hcounts⟩ := countedSaveLine_congr hsaves hdisk
  rw [execute, showSaves_eq, hline, hcounts, hsaves, hdisk]
  cases (s.saves.list s.disk).all s.countsSave with
  | false => rfl
  | true => rfl

/-- A save that is read has an index of 64 bits. -/
theorem scene_le_of_load {f : SaveFolder} {disk : Disk} {name : String} {r : SaveRecord}
    (h : f.load disk name = .ok r) : ∀ scene ∈ r.scene, scene ≤ Text.maxIndex := by
  rw [SaveFolder.load] at h
  split at h
  · split at h
    · exact SaveRecord.scene_le_of_ofText h
    · cases h
  · cases h

/-- A save that is accepted could be read, and nothing is missing in it. -/
theorem exists_load_of_info? {f : SaveFolder} {disk : Disk} {name : String} {info : SaveInfo}
    (h : f.info? disk name = some info) :
    ∃ r, f.load disk name = .ok r ∧ r.toPosition = .ok info.position := by
  unfold SaveFolder.info? at h
  split at h
  · next position hposition =>
    cases h
    cases hload : f.load disk name with
    | error reason =>
      rw [hload] at hposition
      cases hposition
    | ok r =>
      rw [hload] at hposition
      exact ⟨r, rfl, hposition⟩
  · cases h

/-- The scene of a save that is accepted is an index of 64 bits. -/
theorem scene_le_of_info? {f : SaveFolder} {disk : Disk} {name : String} {info : SaveInfo}
    (h : f.info? disk name = some info) : info.position.scene ≤ Text.maxIndex := by
  obtain ⟨r, hload, hposition⟩ := exists_load_of_info? h
  exact SaveRecord.scene_le_of_toPosition (scene_le_of_load hload) hposition

/-- A session that can come about: it begins on some disk, something is done with it, what it has
printed and played is taken, or others change the disk. -/
inductive Reached : Session → Prop where
  | start {config : Config} {editing : Bool} {languages : Languages} {clock : Clock}
      {disk disk' : Disk} {s : Session}
      (started : Session.start config editing languages clock disk = (disk', .ok s)) : Reached s
  | act {s : Session} (before : Reached s) (a : Act) : Reached (s.act a)
  | taken {s : Session} (before : Reached s) : Reached s.takeOutput.2
  | changed {s : Session} (before : Reached s) (disk : Disk) : Reached { s with disk }

/-- The engine of a session after its engine was asked something, from some disk. -/
def Asks (s s' : Session) : Prop :=
  ∃ (disk : Disk) (calls : List Call), s'.engine = (s.engine.run disk.source calls).run

/-- Nothing was asked. -/
theorem Asks.of_eq {s' : Session} (h : s'.engine = s.engine) : Asks s s' := ⟨s.disk, [], h⟩

/-- What asks the engine with the disk of the session asks it with some disk. -/
theorem Asked.asks {s' : Session} (h : Asked s s') : Asks s s' := by
  obtain ⟨calls, hengine, _⟩ := h.engine
  exact ⟨s.disk, calls, hengine⟩

/-- A scenario is made on a disk before the engine is asked to look for it. -/
theorem asks_newScenario (s : Session) (name : String) : Asks s (s.newScenario name).1 := by
  unfold newScenario
  split
  · exact .of_eq rfl
  · generalize s.folder.create s.disk name s.engine.settings.layout = result
    obtain ⟨disk, _ | _⟩ := result
    · exact .of_eq rfl
    · exact (Asked.rescan ({ s with disk } : Session)).asks

/-- An edit asks the engine at most to carry it out. -/
theorem asks_edit (s : Session) (command : EditCommand) : Asks s (s.edit command).1 := by
  unfold Session.edit
  split
  · exact .of_eq rfl
  · split
    · unfold saveScenario
      split
      · exact .of_eq rfl
      · split
        · exact .of_eq rfl
        · exact .of_eq rfl
    · exact (Asked.send s _).asks

/-- An automatic save leaves the engine alone. -/
theorem engine_autosave (s : Session) (f : Frame) : (s.autosave f).engine = s.engine := by
  obtain ⟨disk, lastSerial, heq⟩ := exists_autosave_eq s f
  rw [heq]

/-- Whatever becomes of a session, its engine was asked something. -/
theorem Course.asks {a : Act} {s' : Session} (h : Course s a s') : Asks s s' := by
  cases h with
  | asked hasked => exact hasked.asks
  | saved _ _ => exact .of_eq rfl
  | deleted _ => exact .of_eq rfl
  | settled hpresented =>
    obtain ⟨disk, calls, hengine⟩ := (Asked.presented hpresented).asks
    exact ⟨disk, calls, (engine_autosave _ _).trans hengine⟩

/-- Whatever is done with a session asks its engine something. -/
theorem asks_act (s : Session) (a : Act) : Asks s (s.act a) := by
  cases a with
  | execute command =>
    by_cases hediting : command.isEditing = true → s.editing = false
    · exact (course_execute hediting).asks
    · cases command with
      | newScenario name =>
        rw [act, execute, fst_goOn]
        exact asks_newScenario s name
      | edit command =>
        rw [act, execute, fst_goOn]
        exact asks_edit s command
      | _ => simp [Command.isEditing] at hediting
  | settle =>
    rw [act]
    cases hpresented : s.presented? with
    | none =>
      rw [settle_of_none hpresented]
      exact (Asked.shown s).asks
    | some s₁ =>
      rw [settle_of_some hpresented]
      exact (Course.settled hpresented).asks
  | intro skip => exact (Asked.runIntro s skip).asks
  | wait clock => exact .of_eq rfl

/-- The engine of a session that can come about is coherent. -/
theorem Reached.coherent (h : s.Reached) : s.engine.Coherent := by
  induction h with
  | start started =>
    obtain ⟨_, rfl⟩ := start_eq_ok_iff.mp started
    exact (Engine.coherent_startListed _ _).aside _ _ _
  | act _ a ih =>
    obtain ⟨disk, calls, hengine⟩ := asks_act _ a
    rw [hengine]
    exact Engine.of_canReturn_run (fun _ _ _ _ he hc => he.call hc) ih (canReturn_run _)
  | taken _ ih => exact ih
  | changed _ disk ih => exact ih

/-- Whether a save at the largest index of 64 bits is to be listed. -/
def ListsLargest (s : Session) : Prop :=
  ∃ name ∈ s.saves.list s.disk, ∃ info, s.saves.info? s.disk name = some info ∧
    info.position.scene = Text.maxIndex

/-- The scenes of the saves are counted unless one of them has the largest index. -/
theorem all_countsSave_iff (s : Session) :
    (s.saves.list s.disk).all s.countsSave = true ↔ ¬ s.ListsLargest := by
  rw [List.all_eq_true]
  constructor
  · rintro hall ⟨name, hname, info, hinfo, hlargest⟩
    have hcounts := hall name hname
    rw [countsSave, hinfo, Option.all_some, hlargest] at hcounts
    exact Nat.lt_irrefl _ (of_decide_eq_true hcounts)
  · intro hnot name hname
    cases hinfo : s.saves.info? s.disk name with
    | none => rw [countsSave, hinfo, Option.all_none]
    | some info =>
      have hne : info.position.scene ≠ Text.maxIndex := fun hlargest =>
        hnot ⟨name, hname, info, hinfo, hlargest⟩
      rw [countsSave, hinfo, Option.all_some]
      exact decide_eq_true (Nat.lt_of_le_of_ne (scene_le_of_info? hinfo) hne)

/-- Whatever was done with a session whose scenes are counted by a machine word, the numbers of the
frame that it presents next are right, and so are those of its list of saves, unless one of them has
the largest index of 64 bits as its scene. Then the program breaks off, and nothing of the list is
printed. -/
theorem printed_numbers (h : s.Reached) (hscenes : s.engine.activeScenes.length ≤ Text.maxIndex) :
    (s.settle.2 = some s.shown.2 ∧ s.settle.1.printed = s.printed ++
      if s.countedFrame = s.console.last then [] else s.countedFrame) ∧
    (¬ s.ListsLargest → (s.execute .openSaveSelect).2 = .ok .goOn ∧
      (s.execute .openSaveSelect).1.printed = s.printed ++
        (s.console.showList "Saves" ((s.saves.list s.disk).map s.countedSaveLine)).2) ∧
    (s.ListsLargest → (s.execute .openSaveSelect).2 = .ok .breakOff ∧
      (s.execute .openSaveSelect).1.printed = s.printed) ∧
    ∀ name,
      (s.saves.info? s.disk name = none → s.saveLine? name = some (s.countedSaveLine name)) ∧
      ∀ info, s.saves.info? s.disk name = some info → info.position.scene ≤ Text.maxIndex ∧
        s.saveLine? name = if info.position.scene = Text.maxIndex then none
          else some (s.countedSaveLine name) := by
  refine ⟨printed_settle h.coherent hscenes, fun hnot => ?_, fun hlists => ?_,
    fun name => ⟨fun hnone => ?_, fun info hinfo => ⟨scene_le_of_info? hinfo, ?_⟩⟩⟩
  · rw [execute_openSaveSelect, if_pos (s.all_countsSave_iff.mpr hnot)]
    exact ⟨rfl, rfl⟩
  · rw [execute_openSaveSelect, if_neg fun hall => s.all_countsSave_iff.mp hall hlists]
    exact ⟨rfl, rfl⟩
  · rw [saveLine?_eq, countsSave, hnone]
    rfl
  · have hscene := scene_le_of_info? hinfo
    rw [saveLine?_eq, countsSave, hinfo, Option.all_some]
    split
    · next hlt => rw [if_neg (Nat.ne_of_lt (of_decide_eq_true hlt))]
    · next hnot => rw [if_pos (Nat.le_antisymm hscene (by simpa using hnot))]

/-- The save of a player who is at the last scene that an index can name. -/
def lastSave : SaveRecord := .ofPosition ⟨"a.sc", "Ann", Text.maxIndex⟩

/-- A game of one scenario with a choice, and this save. -/
def lastDisk : Disk :=
  ⟨⟨[("game", .directory ⟨[
    ("scenarios", .directory ⟨[("a.sc", .file (.text crossroadsText))]⟩),
    ("textures", .directory .empty), ("sounds", .directory .empty),
    ("saves", .directory ⟨[("x.savegame", .file (.text lastSave.toText))]⟩),
    ("translations", .directory .empty)]⟩)]⟩⟩

/-- The session in which this game begins. -/
def lastSession : Session :=
  opened quietConfig false .empty ⟨0, "now"⟩ lastDisk
    [⟨"a.sc", "game/scenarios/a.sc", "game/textures/a", "game/sounds/a"⟩] .empty

theorem start_lastDisk : start quietConfig false .empty ⟨0, "now"⟩ lastDisk =
    (lastDisk, .ok lastSession) := by
  have hscenarios : lastDisk.list "game/scenarios" = [("a.sc", .file (.text crossroadsText))] :=
    Disk.list_eq_of_sorted (l := ["game", "scenarios"])
      (s := ⟨⟨[("a.sc", .file (.text crossroadsText))]⟩⟩) rfl rfl (List.pairwise_singleton _ _)
  have hsounds : lastDisk.list "game/sounds" = [] :=
    Disk.list_eq_of_sorted (l := ["game", "sounds"]) (s := .empty) rfl rfl .nil
  have hfolder : GameFolder.ofConfig quietConfig =
      ⟨"game/scenarios", "game/textures", "game/sounds", "game/saves", "game/translations"⟩ := rfl
  rw [start_eq_ok_iff, hfolder, GameFolder.scan, GameFolder.scanMusic, Disk.filesWith,
    Disk.filesWith, hscenarios, hsounds]
  exact ⟨rfl, rfl⟩

/-- The save is found with the largest index. -/
theorem info?_lastDisk : (SaveFolder.mk "game/saves").info? lastDisk "x" =
    some ⟨"x", ⟨"a.sc", "Ann", Text.maxIndex⟩⟩ := by
  have hread : lastDisk.readText ((SaveFolder.mk "game/saves").path "x") = .ok lastSave.toText := by
    have hpath : (SaveFolder.mk "game/saves").path "x" = "game/saves/x.savegame" := by
      decide +kernel
    rw [hpath]
    rfl
  have hload : (SaveFolder.mk "game/saves").load lastDisk "x" = .ok lastSave := by
    rw [SaveFolder.load_of_readText hread]
    refine SaveRecord.ofText_toText rfl ?_
    rintro scene ⟨⟩
    exact Nat.le_refl _
  have hposition : lastSave.toPosition = .ok ⟨"a.sc", "Ann", Text.maxIndex⟩ :=
    SaveRecord.toPosition_ofPosition (by decide) (by decide)
  unfold SaveFolder.info?
  rw [hload]
  dsimp only [Except.bind]
  rw [hposition]

/-- The save is the only one. -/
theorem list_saves_lastDisk : (SaveFolder.mk "game/saves").list lastDisk = ["x"] := by
  have hlist : lastDisk.list "game/saves" = [("x.savegame", .file (.text lastSave.toText))] :=
    Disk.list_eq_of_sorted (l := ["game", "saves"])
      (s := ⟨⟨[("x.savegame", .file (.text lastSave.toText))]⟩⟩) rfl rfl
      (List.pairwise_singleton _ _)
  rw [SaveFolder.list, Disk.filesWith, hlist]
  rfl

/-- A session that lists the saves of this disk lists the largest index. -/
theorem listsLargest_of_lastDisk (hsaves : s.saves = ⟨"game/saves"⟩) (hdisk : s.disk = lastDisk) :
    s.ListsLargest := by
  rw [ListsLargest, hsaves, hdisk]
  exact ⟨"x", list_saves_lastDisk ▸ List.mem_singleton_self "x", _, info?_lastDisk, rfl⟩

/-- The list of saves breaks off at the last scene, although it has a number. -/
theorem openSaveSelect_breakOff :
    lastSession.Reached ∧
      (lastSession.execute .openSaveSelect).2 = .ok .breakOff ∧
      (lastSession.execute .openSaveSelect).1.printed = [] ∧
      lastSession.countedSaveLine "x" = "x: a.sc #18446744073709551616 (Ann)" := by
  have hinfo : lastSession.saves.info? lastSession.disk "x" =
      some ⟨"x", ⟨"a.sc", "Ann", Text.maxIndex⟩⟩ := info?_lastDisk
  have hall : ¬ (lastSession.saves.list lastSession.disk).all lastSession.countsSave = true :=
    fun hall => lastSession.all_countsSave_iff.mp hall (listsLargest_of_lastDisk rfl rfl)
  rw [execute_openSaveSelect, if_neg hall]
  refine ⟨.start start_lastDisk, rfl, rfl, ?_⟩
  unfold countedSaveLine
  rw [hinfo]
  decide +kernel

/-- A player begins, and the scene and its choice are counted from one; the list of saves breaks
off. -/
theorem printed_numbers_lastDisk :
    let s := lastSession.act (.execute (.start (some "a.sc") "Ann"))
    s.settle.1.printed = s.printed ++ ["== a.sc #1 ==", "  (1) Go"] ∧
      (s.execute .openSaveSelect).2 = .ok .breakOff := by
  intro s
  have hreached : s.Reached := .act (.start start_lastDisk) _
  obtain ⟨⟨_, hframe⟩, _, hbreaks, _⟩ := printed_numbers hreached (by decide +kernel)
  refine ⟨?_, (hbreaks (listsLargest_of_lastDisk rfl rfl)).1⟩
  rw [hframe]
  decide +kernel

end Session

end VisualNovel

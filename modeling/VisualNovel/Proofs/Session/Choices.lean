import VisualNovel.Proofs.Folder.Game
import VisualNovel.Proofs.Folder.Saves
import VisualNovel.Proofs.ScenarioCheck
import VisualNovel.Proofs.Session.Run

/-!
# Choices of a checked game

Without the editor, a session touches no scenario on the disk, so that it plays what was checked
before it began. A choice in a scenario that was checked, and of which nothing was found, leads
nowhere for one reason only: the check looks for scenarios below the whole directory, the game
in the directory itself. And a scenario whose name ends in capital letters is played, although
it is not checked.
-/

namespace VisualNovel

open ScenarioCheck (Buried Clean Faultless knownOf scenariosOf)

namespace Session

variable {config : Config} {disk : Disk} {r : Location} {s s' : Session} {a : Act}

/-- A game in directories of the usual names, on a disk with plain names, where there is
something at the place of the scenarios. -/
structure Placed (config : Config) (disk : Disk) (r : Location) : Prop where
  standard : config.directories = .standard
  plain : disk.Plain
  root : disk.DirectoryAt config.gameRoot r
  scenarios : disk.resolve (scenariosOf config.gameRoot) = .ok (r ++ ["scenarios"])
  present : disk.contains (scenariosOf config.gameRoot) = true

namespace Placed

/-- The scenarios have their usual place. -/
theorem scenarios_eq (h : Placed config disk r) :
    (GameFolder.ofConfig config).scenarios = scenariosOf config.gameRoot := by
  rw [GameFolder.ofConfig, h.standard]
  rfl

/-- The saves have their usual place. -/
theorem saves_eq (h : Placed config disk r) :
    (GameFolder.ofConfig config).saves = Path.join config.gameRoot "saves" := by
  rw [GameFolder.ofConfig, h.standard]
  rfl

/-- A check that goes well has found such a place. -/
theorem exists_of_passed (hstandard : config.directories = .standard) (hplain : disk.Plain)
    {layout : Layout} (h : (ScenarioCheck.check disk config.gameRoot none layout).passed = true) :
    ∃ r, Placed config disk r := by
  have hthere : ∃ item, disk.find? (scenariosOf config.gameRoot) = some item := by
    rw [scenariosOf]
    cases hfind : disk.find? (Path.join config.gameRoot "scenarios") with
    | some item => exact ⟨item, rfl⟩
    | none =>
      simp [ScenarioCheck.check, Disk.isFile, Disk.isDirectory, hfind, ScenarioCheck.fail] at h
  obtain ⟨item, hitem⟩ := hthere
  have hpresent : disk.contains (scenariosOf config.gameRoot) = true := by
    rw [Disk.contains, hitem]
    rfl
  rw [Disk.find?] at hitem
  split at hitem
  · next l hl =>
    obtain ⟨r, hroot, rfl⟩ := Disk.exists_of_resolve_join (by decide) hl
    exact ⟨r, hstandard, hplain, hroot, hl, hpresent⟩
  · cases hitem

/-- The other directories of the game are made beside that of the scenarios. -/
theorem spares_ensure (h : Placed config disk r) :
    Disk.Spares (r ++ ["scenarios"]) disk ((GameFolder.ofConfig config).ensure disk).1 := by
  have hlist : (GameFolder.ofConfig config).toList = scenariosOf config.gameRoot ::
      ["textures", "sounds", "saves", "translations"].map (Path.join config.gameRoot) := by
    rw [GameFolder.toList, GameFolder.ofConfig, h.standard]
    rfl
  rw [GameFolder.ensure, hlist, GameFolder.ensureEach, if_pos h.present]
  exact GameFolder.spares_ensureEach (by decide) h.root

end Placed

/-- A session in which the scenarios are those that were on a disk. -/
structure Unspoilt (config : Config) (disk : Disk) (r : Location) (s : Session) : Prop where
  unedited : s.editing = false
  folder_eq : s.folder = .ofConfig config
  saves_eq : s.saves = ⟨Path.join config.gameRoot "saves"⟩
  spared : disk.Spares (r ++ ["scenarios"]) s.disk
  informed : s.engine.Informed (config.settings false) ((GameFolder.ofConfig config).scan disk)
    (disk.source.scenes config.layout)

namespace Unspoilt

/-- The scenarios of an unspoilt session are those that were on the disk. -/
theorem alike (h : Unspoilt config disk r s) (hplaced : Placed config disk r) :
    Disk.Alike (GameFolder.ofConfig config).scenarios disk s.disk := by
  rw [hplaced.scenarios_eq]
  exact h.spared.alike hplaced.scenarios

/-- What a session reads of a scenario is what was on the disk. -/
theorem scenes_eq (h : Unspoilt config disk r s) (hplaced : Placed config disk r) :
    ∀ d ∈ (GameFolder.ofConfig config).scan disk,
      s.disk.source.scenes config.layout d = disk.source.scenes config.layout d :=
  fun _ hd => GameFolder.scenes_source_of_alike hplaced.plain (h.alike hplaced) hd config.layout

/-- Whatever the engine is asked, a session stays unspoilt. -/
theorem asked (h : Unspoilt config disk r s) (hplaced : Placed config disk r)
    (hasked : Asked s s') : Unspoilt config disk r s' := by
  obtain ⟨calls, hengine, hlisted⟩ := hasked.engine
  refine ⟨hasked.kept.editing.trans h.unedited, hasked.kept.folder.trans h.folder_eq,
    hasked.kept.saves.trans h.saves_eq, hasked.disk ▸ h.spared, ?_⟩
  rw [hengine]
  refine h.informed.run rfl (h.scenes_eq hplaced) fun ls hls => ?_
  rw [hlisted ls hls, h.folder_eq, GameFolder.scan_congr (h.alike hplaced)]

/-- Saves are written and deleted beside the scenarios. -/
theorem written (h : Unspoilt config disk r s) (hplaced : Placed config disk r) (name : String)
    (record : SaveRecord) (lastSerial : Nat) :
    Unspoilt config disk r { s with disk := (s.saves.save s.disk name record).1, lastSerial } := by
  have hdir : s.saves.dir = Path.join config.gameRoot "saves" := by rw [h.saves_eq]
  have hsave : Disk.Spares (r ++ ["scenarios"]) s.disk _ := SaveFolder.spares_save hdir (by decide)
    (by decide) (h.spared.directoryAt hplaced.root) name record
  exact ⟨h.unedited, h.folder_eq, h.saves_eq, h.spared.trans hsave, h.informed⟩

/-- Deleting a save leaves a session unspoilt. -/
theorem deleted (h : Unspoilt config disk r s) (hplaced : Placed config disk r) {name : String}
    {disk' : Disk} (hdelete : s.saves.delete s.disk name = .ok disk') :
    Unspoilt config disk r { s with disk := disk' } := by
  have hdir : s.saves.dir = Path.join config.gameRoot "saves" := by rw [h.saves_eq]
  have hremoved : Disk.Spares (r ++ ["scenarios"]) s.disk disk' := SaveFolder.spares_delete hdir
    (by decide) (by decide) (h.spared.directoryAt hplaced.root) hdelete
  exact ⟨h.unedited, h.folder_eq, h.saves_eq, h.spared.trans hremoved, h.informed⟩

/-- Saving automatically leaves a session unspoilt. -/
theorem autosave (h : Unspoilt config disk r s) (hplaced : Placed config disk r) (f : Frame) :
    Unspoilt config disk r (s.autosave f) := by
  unfold Session.autosave
  split
  · exact h
  · dsimp only
    split
    · exact ⟨h.unedited, h.folder_eq, h.saves_eq, h.spared, h.informed⟩
    · split
      · exact ⟨h.unedited, h.folder_eq, h.saves_eq, h.spared, h.informed⟩
      · exact h.written hplaced _ _ f.serial

/-- Every act leaves a session unspoilt. -/
theorem act (h : Unspoilt config disk r s) (hplaced : Placed config disk r) (a : Act) :
    Unspoilt config disk r (s.act a) := by
  have hcourse := course_act h.unedited a
  generalize s.act a = s' at hcourse
  cases hcourse with
  | asked hasked => exact h.asked hplaced hasked
  | saved name _ => exact h.written hplaced name _ s.lastSerial
  | deleted hdelete => exact h.deleted hplaced hdelete
  | settled hpresented => exact (h.asked hplaced (Asked.presented hpresented)).autosave hplaced _

/-- Some acts leave a session unspoilt. -/
theorem acts (h : Unspoilt config disk r s) (hplaced : Placed config disk r) (as : List Act) :
    Unspoilt config disk r (s.acts as) := by
  induction as generalizing s with
  | nil => exact h
  | cons a as ih => exact ih (h.act hplaced a)

end Unspoilt

/-- A session is unspoilt when it is started. -/
theorem unspoilt_of_start (hplaced : Placed config disk r) {languages : Languages} {clock : Clock}
    {disk' : Disk} (h : start config false languages clock disk = (disk', .ok s)) :
    Unspoilt config disk r s := by
  obtain ⟨hensure, rfl⟩ := start_eq_ok_iff.mp h
  have hspared := hplaced.spares_ensure
  rw [hensure] at hspared
  have halike : Disk.Alike (GameFolder.ofConfig config).scenarios disk disk' := by
    rw [hplaced.scenarios_eq]
    exact hspared.alike hplaced.scenarios
  have hstart := Engine.Informed.start (τ := Texture) (config.settings false)
    ((GameFolder.ofConfig config).scan disk) (disk.source.scenes config.layout)
  rw [← GameFolder.scan_congr halike] at hstart
  refine ⟨rfl, rfl, congrArg SaveFolder.mk hplaced.saves_eq, hspared, ?_⟩
  rw [← GameFolder.scan_congr halike]
  exact ⟨hstart.settings_eq, hstart.descriptors_eq, hstart.coherent.aside _ _ _, hstart.scenes_eq⟩

/-- A scenario with the ending in small letters was checked. -/
theorem faultless_of_mem_scan (hplaced : Placed config disk r)
    (hclean : Clean disk config.gameRoot config.layout) {d : Descriptor}
    (hd : d ∈ (GameFolder.ofConfig config).scan disk)
    (hextension : Path.extension? d.fileName = some "sc") :
    Faultless disk config.layout (knownOf disk config.gameRoot) d.filePath := by
  obtain ⟨content, hmem, hpath⟩ := GameFolder.exists_of_mem_scan hd
  rw [hplaced.scenarios_eq] at hmem hpath
  rw [hpath]
  exact hclean.faultless (Disk.isDirectory_of_mem_list hmem) _
    (ScenarioCheck.join_mem_scenariosBelow (hplaced.plain.of_mem_list hmem) hmem hextension)

/-- Where the check of a game found nothing, a choice of the game leads nowhere only if it
belongs to a scenario whose name does not end in small letters, or if its target lies deeper
than the game looks. -/
theorem exists_of_choice_leadsNowhere {languages : Languages} {clock : Clock} {disk' : Disk}
    (hstandard : config.directories = .standard) (hplain : disk.Plain)
    (hclean : Clean disk config.gameRoot config.layout)
    (hstart : start config false languages clock disk = (disk', .ok s)) (as : List Act)
    (index now : Nat) {reason : Refusal}
    (hrefused : ((s.acts as).engine.handle (s.acts as).disk.source now
      (.activateChoice index)).run.2 = .error reason)
    (hreason : reason.leadsNowhere = true) :
    ∃ scenario scene, (s.acts as).engine.state = .playing scenario scene ∧
      (Path.extension? scenario ≠ some "sc" ∨
        ∃ target, reason = .scenarioNotFound target ∧ Buried disk config.gameRoot target) := by
  obtain ⟨r, hplaced⟩ := Placed.exists_of_passed hstandard hplain hclean.passed
  have hunspoilt := (unspoilt_of_start hplaced hstart).acts hplaced as
  obtain ⟨d, hd, scene, hstate, played, hplayed, c, hc, target, htarget, hmissing⟩ :=
    hunspoilt.informed.exists_of_leadsNowhere (hunspoilt.scenes_eq hplaced) hrefused hreason
  refine ⟨d.fileName, scene, hstate, ?_⟩
  by_cases hextension : Path.extension? d.fileName = some "sc"
  case neg => exact Or.inl hextension
  obtain ⟨text, htext, _, htargets⟩ := faultless_of_mem_scan hplaced hclean hd hextension
  rw [Disk.scenes_source_of_readText htext] at hplayed
  have hknown : target ∈ knownOf disk config.gameRoot :=
    htargets played hplayed target (List.mem_filterMap.mpr ⟨c, hc, htarget⟩)
  have hextension' := ScenarioCheck.extension?_of_mem_knownOf hknown
  rcases hmissing with ⟨hreason, hunlisted⟩ | ⟨d', hd', rfl, hempty⟩
  · refine Or.inr ⟨target, hreason, hknown, fun content hmem => ?_⟩
    rw [← hplaced.scenarios_eq] at hmem
    obtain ⟨d', hd', hname⟩ := GameFolder.exists_mem_scan hmem hextension'
    exact hunlisted d' hd' hname
  · obtain ⟨text', htext', hscenes, _⟩ := faultless_of_mem_scan hplaced hclean hd' hextension'
    rw [Disk.scenes_source_of_readText htext'] at hempty
    exact absurd hempty hscenes

/-- A scenario of one scene with a choice. -/
def crossroadsText : String :=
  "[scene_start]\nNONE:NONE:NONE\nNONE:NONE:NONE\nNONE:NONE:NONE\nNONE:NONE:NONE\n" ++
    "NONE:NONE:NONE\nNONE\nGo:b.sc\n[scene_end]"

/-- A game in which a choice leads to a scenario in a directory of its own. -/
def buriedDisk : Disk :=
  ⟨⟨[("game", .directory ⟨[
    ("scenarios", .directory ⟨[
      ("a.sc", .file (.text crossroadsText)),
      ("deep", .directory ⟨[("b.sc", .file (.text "[scene_start]\n[scene_end]"))]⟩)]⟩),
    ("textures", .directory .empty), ("sounds", .directory .empty),
    ("saves", .directory .empty), ("translations", .directory .empty)]⟩)]⟩⟩

/-- A game without animated text, where nothing is saved automatically. -/
def quietConfig : Config :=
  { Config.standard with game := ⟨false, Settings.defaultSpeed, false, none⟩ }

/-- The session in which this game begins; the deeper scenario is not found. -/
def buriedSession : Session :=
  opened quietConfig false .empty ⟨0, "now"⟩ buriedDisk
    [⟨"a.sc", "game/scenarios/a.sc", "game/textures/a", "game/sounds/a"⟩] .empty

/-- The directory of scenarios has one scenario and one directory. -/
theorem list_buriedDisk : buriedDisk.list "game/scenarios" =
    [("a.sc", .file (.text crossroadsText)), ("deep", .directory)] :=
  Disk.list_eq_of_sorted (l := ["game", "scenarios"])
    (s := ⟨⟨[("a.sc", .file (.text crossroadsText)),
      ("deep", .directory ⟨[("b.sc", .file (.text "[scene_start]\n[scene_end]"))]⟩)]⟩⟩) rfl rfl
    (List.pairwise_pair.mpr (by decide))

/-- The check finds both scenarios, the second one in the directory below. -/
theorem scenariosBelow_buriedDisk : ScenarioCheck.scenariosBelow buriedDisk "game/scenarios" =
    ["game/scenarios/a.sc", "game/scenarios/deep/b.sc"] := by
  have hdeep : buriedDisk.list "game/scenarios/deep" =
      [("b.sc", .file (.text "[scene_start]\n[scene_end]"))] :=
    Disk.list_eq_of_sorted (l := ["game", "scenarios", "deep"])
      (s := ⟨⟨[("b.sc", .file (.text "[scene_start]\n[scene_end]"))]⟩⟩) rfl rfl
      (List.pairwise_singleton _ _)
  have hlength : buriedDisk.entries.length = 9 := by decide +kernel
  have hpath : Path.join "game/scenarios" "deep" = "game/scenarios/deep" := by decide
  rw [ScenarioCheck.scenariosBelow, hlength, ScenarioCheck.filesBelow, list_buriedDisk]
  simp only [List.flatMap_cons, List.flatMap_nil, hpath, ScenarioCheck.filesBelow, hdeep]
  decide +kernel

/-- The check has nothing to warn of. -/
theorem clean_buriedDisk : Clean buriedDisk "game" .simple := by
  have hroot : scenariosOf "game" = "game/scenarios" := by decide
  have hfound : ScenarioCheck.findings buriedDisk "game" .simple
      ["game/scenarios/a.sc", "game/scenarios/deep/b.sc"] =
        ⟨2, ["game/scenarios/a.sc: 1 个场景", "game/scenarios/deep/b.sc: 1 个场景"], [], []⟩ := by
    rw [ScenarioCheck.findings, ← scenariosOf, hroot, scenariosBelow_buriedDisk]
    decide +kernel
  have hfile : buriedDisk.isFile "game/scenarios" = false := by decide +kernel
  have hdirectory : buriedDisk.isDirectory "game/scenarios" = true := by decide +kernel
  constructor
  · rw [ScenarioCheck.check, Option.getD_none, ← scenariosOf, hroot]
    simp only [hfile, hdirectory, Bool.false_eq_true, if_false, if_true]
    rw [scenariosBelow_buriedDisk, ScenarioCheck.checkFiles, hfound]
    rfl
  · rw [hroot, scenariosBelow_buriedDisk, hfound]

theorem start_quietConfig : start quietConfig false .empty ⟨0, "now"⟩ buriedDisk =
    (buriedDisk, .ok buriedSession) := by
  have hsounds : buriedDisk.list "game/sounds" = [] :=
    Disk.list_eq_of_sorted (l := ["game", "sounds"]) (s := .empty) rfl rfl .nil
  have hfolder : GameFolder.ofConfig quietConfig =
      ⟨"game/scenarios", "game/textures", "game/sounds", "game/saves", "game/translations"⟩ := rfl
  rw [start_eq_ok_iff, hfolder, GameFolder.scan, GameFolder.scanMusic, Disk.filesWith,
    Disk.filesWith, list_buriedDisk, hsounds]
  exact ⟨rfl, rfl⟩

/-- A player begins at the crossroads. -/
def crossroadsActs : List Act := [.execute (.start (some "a.sc") "Ann"), .settle]

/-- The choice that leads to the second scenario is refused. -/
theorem handle_crossroads :
    ((buriedSession.acts crossroadsActs).engine.handle (buriedSession.acts crossroadsActs).disk.source
      0 (.activateChoice 0)).run.2 = .error (.scenarioNotFound "b.sc") := by
  decide +kernel

/-- The check finds nothing, and yet the choice that is shown next leads nowhere. -/
theorem choice_leadsNowhere_of_clean :
    Clean buriedDisk quietConfig.gameRoot quietConfig.layout ∧
      start quietConfig false .empty ⟨0, "now"⟩ buriedDisk = (buriedDisk, .ok buriedSession) ∧
      let s := buriedSession.acts crossroadsActs
      (s.engine.tick 0 0).2.choices = [⟨0, "Go"⟩] ∧
        (s.engine.handle s.disk.source 0 (.activateChoice 0)).run.2 =
          .error (.scenarioNotFound "b.sc") :=
  ⟨clean_buriedDisk, start_quietConfig, by decide +kernel, handle_crossroads⟩

/-- What the choice leads to is known to the check, but lies deeper than the game looks. -/
theorem exists_of_choice_leadsNowhere_crossroads :
    (buriedSession.acts crossroadsActs).engine.state = .playing "a.sc" 0 ∧
      Buried buriedDisk "game" "b.sc" := by
  have hplain : buriedDisk.Plain := by
    unfold Disk.Plain
    decide +kernel
  have hplaying : (buriedSession.acts crossroadsActs).engine.state = .playing "a.sc" 0 := by
    decide +kernel
  obtain ⟨scenario, scene, hstate, hextension | ⟨target, hreason, hburied⟩⟩ :=
    exists_of_choice_leadsNowhere rfl hplain clean_buriedDisk start_quietConfig crossroadsActs 0 0
      handle_crossroads rfl
  · cases hplaying.symm.trans hstate
    exact absurd (by decide) hextension
  · cases hreason
    exact ⟨hplaying, hburied⟩

end Session

end VisualNovel

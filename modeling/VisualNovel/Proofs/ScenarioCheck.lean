import VisualNovel.Proofs.Disk.Listing
import VisualNovel.ScenarioCheck

/-!
# Clean checks

What it means that the check of a game has found nothing. Every file that was checked can then
be read and has a scene, and every choice in it leads to a scenario that the check knows. The
check knows all that is below the directory of the scenarios, also what lies deeper.
-/

namespace VisualNovel

/-- A plain name is the last name of a path that ends in it. -/
theorem Path.fileName?_join {name : String} (h : IsPlain name) (dir : String) :
    fileName? (join dir name) = some name := by
  have hhere : name ≠ "." := h.ne_here
  have habove : name ≠ ".." := h.ne_above
  simp [fileName?, components_join h, hhere, habove]

namespace ScenarioCheck

variable {disk : Disk} {root dir file name : String} {layout : Layout} {known files : List String}
  {found : Findings}

/-- A file that can be read, in which there is a scene and all choices lead to known scenarios. -/
def Faultless (disk : Disk) (layout : Layout) (known : List String) (file : String) : Prop :=
  ∃ text, disk.readText file = .ok text ∧ (Scenario.read layout text).scenes ≠ [] ∧
    ∀ s ∈ (Scenario.read layout text).scenes, ∀ target ∈ targetsOf s, target ∈ known

/-- Nothing was found so far. -/
def Findings.Clean (found : Findings) : Prop := found.warnings = [] ∧ found.empty = []

/-- The choices of a scene without warnings lead to known scenarios. -/
theorem mem_known_of_sceneWarnings {env : Surroundings} {place : String} {s : Scene}
    (h : sceneWarnings env place s = []) {target : String} (htarget : target ∈ targetsOf s) :
    target ∈ env.known := by
  obtain ⟨_, htargets⟩ := List.append_eq_nil_iff.mp h
  have hall := List.filter_eq_nil_iff.mp (List.map_eq_nil_iff.mp htargets) target htarget
  simpa using hall

/-- The choices of a scenario without warnings lead to known scenarios. -/
theorem mem_known_of_readingWarnings {env : Surroundings} {r : Scenario.Reading}
    (h : readingWarnings env file r = []) {s : Scene} (hs : s ∈ r.scenes) {target : String}
    (htarget : target ∈ targetsOf s) : target ∈ env.known := by
  obtain ⟨_, hscenes⟩ := List.append_eq_nil_iff.mp h
  obtain ⟨i, hi⟩ := List.mem_iff_getElem?.mp hs
  have hmem : (s, i) ∈ r.scenes.zipIdx := List.mk_mem_zipIdx_iff_getElem?.mpr hi
  exact mem_known_of_sceneWarnings (List.flatMap_eq_nil_iff.mp hscenes (s, i) hmem) htarget

/-- A file of which nothing was found is faultless, and nothing was found before. -/
theorem faultless_of_checkFile (h : (checkFile disk root layout known found file).Clean) :
    found.Clean ∧ Faultless disk layout known file := by
  obtain ⟨hwarnings, hempty⟩ := h
  rw [checkFile] at hwarnings hempty
  cases htext : disk.readText file with
  | error reason => simp [htext] at hempty
  | ok text =>
    simp only [htext] at hwarnings hempty
    obtain ⟨hbefore, hreading⟩ := List.append_eq_nil_iff.mp hwarnings
    split at hempty
    · simp at hempty
    · next hscenes =>
      rw [List.isEmpty_iff] at hscenes
      exact ⟨⟨hbefore, hempty⟩, text, htext, hscenes, fun s hs target htarget =>
        mem_known_of_readingWarnings hreading hs htarget⟩

/-- Where nothing was found in the end all files are faultless, and nothing was found before. -/
theorem faultless_of_foldl (h : (files.foldl (checkFile disk root layout known) found).Clean) :
    found.Clean ∧ ∀ file ∈ files, Faultless disk layout known file := by
  induction files generalizing found with
  | nil => exact ⟨h, by simp⟩
  | cons file files ih =>
    obtain ⟨hfirst, hrest⟩ := ih h
    obtain ⟨hbefore, hfile⟩ := faultless_of_checkFile hfirst
    exact ⟨hbefore, List.forall_mem_cons.mpr ⟨hfile, hrest⟩⟩

/-- The directory of the scenarios of a game. -/
def scenariosOf (root : String) : String := Path.join root "scenarios"

/-- The names of all scenarios that the check of a game knows. -/
def knownOf (disk : Disk) (root : String) : List String :=
  (scenariosBelow disk (scenariosOf root)).filterMap Path.fileName?

/-- The check of a game goes well and has nothing to warn of. -/
structure Clean (disk : Disk) (root : String) (layout : Layout) : Prop where
  passed : (check disk root none layout).passed = true
  silent : (findings disk root layout (scenariosBelow disk (scenariosOf root))).warnings = []

/-- Every scenario that was checked is faultless, if there is a directory of scenarios. -/
theorem Clean.faultless (h : Clean disk root layout)
    (hdir : disk.isDirectory (scenariosOf root) = true) :
    ∀ file ∈ scenariosBelow disk (scenariosOf root),
      Faultless disk layout (knownOf disk root) file := by
  intro file hfile
  have hpassed := h.passed
  have hnot : disk.isFile (scenariosOf root) = false := by
    rw [Disk.isFile]
    rw [Disk.isDirectory, beq_iff_eq] at hdir
    rw [hdir]
  have hnonempty : (scenariosBelow disk (scenariosOf root)).isEmpty = false :=
    List.isEmpty_eq_false_iff_exists_mem.mpr ⟨file, hfile⟩
  rw [scenariosOf] at hdir hnot hnonempty
  simp only [check, Option.getD_none, hnot, hdir, checkFiles, hnonempty, Bool.false_eq_true,
    if_false, if_true] at hpassed
  have hempty :
      (findings disk root layout (scenariosBelow disk (scenariosOf root))).empty = [] := by
    split at hpassed
    · next hempty => exact List.isEmpty_iff.mp hempty
    · cases hpassed
  exact (faultless_of_foldl ⟨h.silent, hempty⟩).2 file hfile

/-- A scenario that is listed in the directory is checked. -/
theorem join_mem_scenariosBelow {content : Content} (hname : Path.IsPlain name)
    (hmem : (name, .file content) ∈ disk.list dir) (hextension : Path.extension? name = some "sc") :
    Path.join dir name ∈ scenariosBelow disk dir := by
  rw [scenariosBelow, List.mem_filter]
  constructor
  · rw [filesBelow, List.mem_flatMap]
    exact ⟨_, hmem, List.mem_singleton_self _⟩
  · rw [Path.fileName?_join hname, Option.bind_some, hextension]
    rfl

/-- What the check knows ends as the names of scenarios do, and not otherwise. -/
theorem extension?_of_mem_knownOf (h : name ∈ knownOf disk root) :
    Path.extension? name = some "sc" := by
  obtain ⟨path, hpath, hname⟩ := List.mem_filterMap.mp h
  obtain ⟨_, hextension⟩ := List.mem_filter.mp hpath
  rw [hname, Option.bind_some] at hextension
  exact beq_iff_eq.mp hextension

/-- A scenario that the check knows, although no file of the directory has its name. -/
def Buried (disk : Disk) (root name : String) : Prop :=
  name ∈ knownOf disk root ∧ ∀ content, (name, .file content) ∉ disk.list (scenariosOf root)

end ScenarioCheck

end VisualNovel

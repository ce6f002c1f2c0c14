import VisualNovel.Proofs.Folder.Game
import VisualNovel.Proofs.Folder.Scan
import VisualNovel.Proofs.Scenario.Parts
import VisualNovel.Proofs.Scenario.RoundTrip

/-!
# New scenarios

A scenario that is made adds its file, which holds one blank scene, and the directories that were
missing, and nothing else on the disk changes. Where it cannot be made nothing that was there
changes either, but what was added before something failed stays: directories on the way to the
scenarios, and the file itself if it is only the directory of its textures that cannot be made.

Only a way that goes up from a directory which is not there yet is left out. The file of the
scenario is looked for before that directory is made, and so it is overlooked.
-/

namespace VisualNovel

namespace Disk

variable {d d' : Disk} {l r : Location} {dir name : String}

/-- Nothing is under a name in a directory that lists nothing. -/
theorem item?_eq_none_of_children (hl : d.item? l = some .directory) (h : d.children l = [])
    (name : String) : d.item? (l ++ [name]) = none := by
  obtain ⟨sub, hsub⟩ := Option.isSome_iff_exists.mp ((isSome_below? d l).mpr hl)
  rw [children, hsub] at h
  have hentries : sub.items.entries = [] := by
    have hlength := congrArg List.length h
    simpa using hlength
  rw [item?_concat hsub, Table.get?, hentries]
  rfl

/-- What is contained has a location, and something is there. -/
theorem exists_of_contains (h : d.contains dir = true) :
    ∃ l, d.resolve dir = .ok l ∧ ∃ item, d.item? l = some item := by
  rw [contains, find?] at h
  split at h
  · next l hl => exact ⟨l, hl, Option.isSome_iff_exists.mp h⟩
  · cases h

/-- The path of something that is there is direct. -/
theorem direct_of_contains (h : d.contains dir = true) : d.Direct dir := by
  obtain ⟨l, hl, _⟩ := exists_of_contains h
  exact (leads_of_resolve hl).directFrom

/-- A file that was not there is not there either once its directory is made, unless the way to
the directory goes up from one that was missing. -/
theorem item?_eq_none_of_createDirectories (hname : Path.IsPlain name) (hway : d.Direct dir)
    (hfree : d.contains (Path.join dir name) = false)
    (hmade : d.createDirectories dir = (d', .ok ()))
    (hr : d'.resolve (Path.join dir name) = .ok r) : d'.item? r = none := by
  have hsame : d' = d → d'.item? r = none := by
    rintro rfl
    rw [contains, find?, hr] at hfree
    simpa using hfree
  by_cases hdir : dir = ""
  · rw [createDirectories, if_pos hdir] at hmade
    exact hsame (Prod.mk.inj hmade).1.symm
  · have hgrown := grown_createDirectories d dir
    rw [hmade] at hgrown
    obtain ⟨l, hl, hdirectory, rfl⟩ := exists_resolve_of_resolve_join hname hdir hr
    by_cases hthere : d.contains dir = true
    · -- What is there is a directory, for it is still there when the file is written.
      obtain ⟨m, hm, item, hitem⟩ := exists_of_contains hthere
      obtain rfl : l = m := Except.ok.inj (hl.symm.trans (hgrown.resolve hm))
      obtain rfl : item = .directory :=
        Option.some.inj ((hgrown.kept l item hitem).symm.trans hdirectory)
      have hself := createDirectories_eq_self hm hitem
      exact hsame (Prod.mk.inj (hmade.symm.trans hself)).1
    · have hempty := children_createDirectories (d := d) (l := l) hway
        (Bool.eq_false_iff.mpr hthere)
      rw [hmade] at hempty
      exact item?_eq_none_of_children hdirectory (hempty hl) name

end Disk

namespace GameFolder

open Disk

variable {f : GameFolder} {disk disk₁ disk₂ : Disk} {name file : String} {layout : Layout}
  {d : Descriptor}

/-- Only directories on the way of a path are new. -/
def DirectoryOnWay (path : String) (l : Location) (item : Item) : Prop :=
  item = .directory ∧ OnWay path l

/-- The file of a new scenario and the directories on its way are all that is new. -/
structure Written (f : GameFolder) (layout : Layout) (d : Descriptor) (disk disk' : Disk) :
    Prop where
  readText_eq : disk'.readText d.filePath = .ok (Scenario.blank layout)
  item?_eq_none (r : Location) (h : disk'.resolve d.filePath = .ok r) : disk.item? r = none
  grown : Grown (fun l item =>
    (disk'.resolve d.filePath = .ok l ∧ item = .file (.text (Scenario.blank layout))) ∨
      DirectoryOnWay f.scenarios l item ∨ DirectoryOnWay d.texturesDir l item) disk disk'
  scenarios_directory : disk'.item? (follow [] (Path.components f.scenarios)) = some .directory
  /-- The scenario is listed once, where the directory of scenarios has a path. -/
  count_scan (h : disk.Distinct) (hdir : f.scenarios ≠ "") :
    ((f.scan disk').map (·.fileName)).count d.fileName = 1

/-- A file of the directory of scenarios is listed once. -/
theorem count_scan_eq_one {stem text : String} (hfile : IsFileName file stem)
    (hdir : f.scenarios ≠ "") (hdistinct : disk.Distinct)
    (h : disk.readText (Path.join f.scenarios file) = .ok text) :
    ((f.scan disk).map (·.fileName)).count file = 1 := by
  obtain ⟨r, hr, hitem⟩ := readText_eq_ok_iff.mp h
  obtain ⟨l, hl, _, rfl⟩ := exists_resolve_of_resolve_join hfile.isPlain hdir hr
  have hname : IsScenarioName file stem :=
    isScenarioName_iff.mpr ⟨scenarioExtension, by decide, hfile.cutName_eq⟩
  refine List.count_eq_one_of_mem (nodup_scan hdistinct f) (List.mem_map.mpr ?_)
  exact (mem_scan_iff hdistinct).mpr ⟨l, _, stem, hl, hitem, hname⟩

/-- What is added once the file of a scenario is written, whether the directory of its textures
can be made or not. -/
theorem written_of_writeText (hway : disk.Direct f.scenarios) (hnamed : fileNameOf name = .ok file)
    (hfree : disk.contains (f.describe file).filePath = false)
    (hopened : disk.createDirectories f.scenarios = (disk₁, .ok ()))
    (hwritten : disk₁.writeText (f.describe file).filePath (Scenario.blank layout) = .ok disk₂) :
    f.Written layout (f.describe file) disk
      (disk₂.createDirectories (f.describe file).texturesDir).1 := by
  obtain ⟨stem, hfile⟩ := exists_isFileName hnamed
  obtain ⟨r, hr, hnot, hdisk₂⟩ := writeText_eq_ok_iff.mp hwritten
  have hnone : disk₁.item? r = none :=
    item?_eq_none_of_createDirectories hfile.isPlain hway hfree hopened hr
  have hscenarios := grown_createDirectories disk f.scenarios
  have hset := grown_set (t := .file (.text (Scenario.blank layout))) (fun items h => by cases h)
    (rooted_of_resolve hr) hnone
  have htextures := grown_createDirectories disk₂ (f.describe file).texturesDir
  rw [hopened] at hscenarios
  rw [← hdisk₂] at hset
  have hr₃ := htextures.resolve (hset.resolve hr)
  have hcontent : disk₂.item? r = some (.file (.text (Scenario.blank layout))) := by
    rw [hdisk₂]
    exact item?_set_file_self _ hnot (rooted_of_resolve hr)
  have htext := readText_eq_ok_iff.mpr ⟨r, hr₃, htextures.kept r _ hcontent⟩
  constructor
  case readText_eq => exact htext
  case item?_eq_none =>
    intro r' hr'
    obtain rfl : r = r' := Except.ok.inj (hr₃.symm.trans hr')
    cases hitem : disk.item? r with
    | none => rfl
    | some item => exact absurd ((hscenarios.kept r item hitem).symm.trans hnone) (by simp)
  case grown =>
    refine (hscenarios.mono ?_).trans ((hset.mono ?_).trans (htextures.mono ?_))
    · exact fun l item h => .inr (.inl h)
    · rintro l item ⟨rfl, rfl⟩
      exact .inl ⟨hr₃, rfl⟩
    · exact fun l item h => .inr (.inr h)
  case scenarios_directory =>
    exact htextures.kept _ _ (hset.kept _ _ (item?_follow_of_createDirectories hopened))
  case count_scan =>
    intro hdistinct hdir
    have hdistinct₁ := hdistinct.createDirectories f.scenarios
    rw [hopened] at hdistinct₁
    exact count_scan_eq_one hfile hdir
      ((hdistinct₁.writeText hwritten).createDirectories _) htext

/-- What is on the disk after a scenario was to be made, and the answer. -/
inductive Outcome (f : GameFolder) (disk : Disk) (name : String) (layout : Layout) :
    Disk × Except Failure Descriptor → Prop where
  | made {file : String} {disk' : Disk} (named : fileNameOf name = .ok file)
      (written : f.Written layout (f.describe file) disk disk')
      (textures_directory :
        disk'.item? (follow [] (Path.components (f.describe file).texturesDir)) =
          some .directory) :
      Outcome f disk name layout (disk', .ok (f.describe file))
  | unnamed {reason : Failure} (named : fileNameOf name = .error reason) :
      Outcome f disk name layout (disk, .error reason)
  | taken {file : String} (named : fileNameOf name = .ok file)
      (taken : disk.contains (f.describe file).filePath = true) :
      Outcome f disk name layout (disk, .error (.scenarioExists file))
  /-- Nothing is new where the directory of scenarios was there. -/
  | unwritten {file path : String} {disk' : Disk} (named : fileNameOf name = .ok file)
      (path_eq : path = f.scenarios ∨ path = (f.describe file).filePath)
      (grown : Grown (DirectoryOnWay f.scenarios) disk disk')
      (eq_self : disk.isDirectory f.scenarios = true → disk' = disk) :
      Outcome f disk name layout (disk', .error (.file path))
  | unfinished {file : String} {disk' : Disk} (named : fileNameOf name = .ok file)
      (written : f.Written layout (f.describe file) disk disk') :
      Outcome f disk name layout (disk', .error (.file (f.describe file).texturesDir))

/-- Where the directory is already there nothing is made. -/
theorem fst_createDirectories_eq_self {path : String} (h : disk.isDirectory path = true) :
    (disk.createDirectories path).1 = disk := by
  rw [isDirectory, beq_iff_eq, find?] at h
  split at h
  · next l hl => rw [createDirectories_eq_self hl h]
  · cases h

/-- A scenario that is made leaves everything that was on the disk, and adds its file with one
blank scene, which is listed from then on, and the directories that were missing on the way to the
scenarios and to its textures. Nothing changes if the name is refused or taken. If something on
the disk fails nothing that was there changes either; what was made before it failed stays, and
that is the file as well if only the directory of the textures fails. -/
theorem outcome_create (hway : disk.Direct f.scenarios) (name : String) (layout : Layout) :
    f.Outcome disk name layout (f.create disk name layout) ∧
      Scenario.read layout (Scenario.blank layout) = ⟨[.blank], [], 0⟩ := by
  refine ⟨?_, Scenario.read_write (by simpa using Scenario.storable_blank layout)⟩
  have hgrown := grown_createDirectories disk f.scenarios
  have hself : disk.isDirectory f.scenarios = true →
      (disk.createDirectories f.scenarios).1 = disk := fst_createDirectories_eq_self
  have hattempt := f.attempt_create disk name layout
  generalize f.create disk name layout = result at hattempt ⊢
  cases hattempt with
  | unnamed hnamed => exact .unnamed hnamed
  | taken hnamed htaken => exact .taken hnamed htaken
  | unopened hnamed _ hopened =>
    rw [hopened] at hgrown hself
    exact .unwritten hnamed (.inl rfl) hgrown hself
  | unwritten hnamed _ hopened _ =>
    rw [hopened] at hgrown hself
    exact .unwritten hnamed (.inr rfl) hgrown hself
  | unfinished hnamed hfree hopened hwritten hfinished =>
    have hadded := written_of_writeText hway hnamed hfree hopened hwritten
    rw [hfinished] at hadded
    exact .unfinished hnamed hadded
  | finished hnamed hfree hopened hwritten hfinished =>
    have hadded := written_of_writeText hway hnamed hfree hopened hwritten
    rw [hfinished] at hadded
    exact .made hnamed hadded (item?_follow_of_createDirectories hfinished)

/-- A disk on which nothing is there yet, one with a scenario of another name, and one on which the
way goes up from a directory that is there to the scenarios, which are missing. -/
theorem outcome_create_standard :
    let f : GameFolder := .ofConfig .standard
    let disk : Disk := ⟨.ofList [("game", .directory (.ofList
      [("scenarios", .directory (.ofList [("a.sc", .file (.text "mine"))]))]))]⟩
    let g : GameFolder := { f with scenarios := "game/new/../scenarios" }
    let started : Disk := ⟨.ofList [("game", .directory (.ofList
      [("new", .directory .empty)]))]⟩
    (Disk.empty.Direct f.scenarios ∧
      f.Outcome .empty " b " .simple (f.create .empty " b " .simple)) ∧
    (disk.Direct f.scenarios ∧ f.Outcome disk "a" .simple (f.create disk "a" .simple) ∧
      f.Outcome disk "b" .simple (f.create disk "b" .simple)) ∧
    started.contains g.scenarios = false ∧ started.Direct g.scenarios ∧
      g.Outcome started "a" .simple (g.create started "a" .simple) := by
  intro f disk g started
  have hempty : Disk.empty.Direct f.scenarios := by decide +kernel
  have hdisk : disk.Direct f.scenarios := by decide +kernel
  have hstarted : started.Direct g.scenarios := by decide +kernel
  exact ⟨⟨hempty, (outcome_create hempty _ _).1⟩,
    ⟨hdisk, (outcome_create hdisk _ _).1, (outcome_create hdisk _ _).1⟩,
    by decide +kernel, hstarted, (outcome_create hstarted _ _).1⟩

/-- Where a file is in the way of the textures a scenario cannot be made, but its file is there
afterwards. Where the way to the scenarios goes up from a directory that is missing, a scenario is
made and takes the place of one that was there. -/
theorem create_leaves_file_and_replaces_file :
    let blocked : Disk := ⟨.ofList [("game", .directory (.ofList
      [("textures", .directory (.ofList [("a", .file (.text ""))]))]))]⟩
    let held : Disk := ⟨.ofList [("game", .directory (.ofList
      [("scenarios", .directory (.ofList [("a.sc", .file (.text "mine"))]))]))]⟩
    let f : GameFolder := .ofConfig .standard
    let g : GameFolder := { f with scenarios := "game/new/../scenarios" }
    ((f.create blocked "a" .simple).2 = .error (.file "game/textures/a") ∧
      blocked.contains "game/scenarios/a.sc" = false ∧
      (f.create blocked "a" .simple).1.contains "game/scenarios/a.sc" = true) ∧
    ((g.create held "a" .simple).2 = .ok (g.describe "a.sc") ∧
      held.readText "game/scenarios/a.sc" = .ok "mine" ∧
      (g.create held "a" .simple).1.readText "game/scenarios/a.sc" =
        .ok (Scenario.blank .simple)) := by
  decide +kernel

end GameFolder

end VisualNovel

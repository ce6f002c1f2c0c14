import VisualNovel.Folder.Game
import VisualNovel.Proofs.Disk.Spared
import VisualNovel.Proofs.Playback.Reading

/-!
# The scenarios of a folder

What a game plays of a scenario are the scenes that its file holds. Disks that are alike at the
directory of the scenarios have the same scenarios with the same scenes, and the directories of
a game are made without touching each other.
-/

namespace VisualNovel

variable {disk disk' : Disk}

namespace Disk

variable {d : Descriptor} {text : String}

/-- The text of a scenario is what its file has in it. -/
theorem scenarioText_eq_ok_iff :
    disk.scenarioText d = .ok text ↔ disk.readText d.filePath = .ok text := by
  constructor
  · intro h
    rw [scenarioText] at h
    split at h
    · split at h
      · next hread =>
        cases h
        exact hread
      · cases h
    · cases h
  · intro h
    rw [scenarioText, if_pos (contains_of_readText h), h]

/-- The scenes of a scenario are those that its file holds. -/
theorem scenes_source_of_readText (h : disk.readText d.filePath = .ok text) (layout : Layout) :
    disk.source.scenes layout d = (Scenario.read layout text).scenes := by
  have htext : (disk.source.text d).run = .ok text := scenarioText_eq_ok_iff.mpr h
  rw [Source.scenes, htext]

/-- Disks with the same files at the path of a scenario give the same scenes. -/
theorem scenes_source_congr (h : ∀ text, disk'.readText d.filePath = .ok text ↔
    disk.readText d.filePath = .ok text) (layout : Layout) :
    disk'.source.scenes layout d = disk.source.scenes layout d := by
  cases htext : disk.readText d.filePath with
  | ok text =>
    rw [scenes_source_of_readText htext, scenes_source_of_readText ((h text).mpr htext)]
  | error reason =>
    have hnone (disk : Disk) (hread : ∀ text, disk.readText d.filePath ≠ .ok text) :
        disk.source.scenes layout d = [] := by
      rw [Source.scenes]
      split
      · next text hgiven => exact absurd (scenarioText_eq_ok_iff.mp hgiven) (hread text)
      · rfl
    rw [hnone disk (by simp [htext]), hnone disk' (by simp [h, htext])]

end Disk

namespace GameFolder

variable {f : GameFolder}

/-- A scenario is one of the files that the directory lists. -/
theorem exists_of_mem_scan {d : Descriptor} (h : d ∈ f.scan disk) :
    ∃ content, (d.fileName, .file content) ∈ disk.list f.scenarios ∧
      d.filePath = Path.join f.scenarios d.fileName := by
  obtain ⟨name, hname, rfl⟩ := List.mem_map.mp h
  obtain ⟨content, hmem, _⟩ := Disk.mem_filesWith.mp hname
  exact ⟨content, hmem, rfl⟩

/-- A file with the ending of scenarios is one. -/
theorem exists_mem_scan {name : String} {content : Content}
    (hmem : (name, .file content) ∈ disk.list f.scenarios)
    (hextension : Path.extension? name = some "sc") : ∃ d ∈ f.scan disk, d.fileName = name := by
  have hsc : Path.hasExtension [scenarioExtension] name = true := by
    rw [Path.hasExtension, hextension]
    decide
  exact ⟨f.describe name, List.mem_map_of_mem (Disk.mem_filesWith.mpr ⟨content, hmem, hsc⟩), rfl⟩

/-- Disks that are alike at the scenarios have the same ones. -/
theorem scan_congr (h : Disk.Alike f.scenarios disk disk') : f.scan disk' = f.scan disk := by
  rw [scan, scan, h.filesWith_eq]

/-- Disks that are alike at the scenarios have the same scenes in them. -/
theorem scenes_source_of_alike (hplain : disk.Plain) (h : Disk.Alike f.scenarios disk disk')
    {d : Descriptor} (hd : d ∈ f.scan disk) (layout : Layout) :
    disk'.source.scenes layout d = disk.source.scenes layout d := by
  obtain ⟨content, hmem, hpath⟩ := exists_of_mem_scan hd
  have hname : Path.IsPlain d.fileName := hplain.of_mem_list hmem
  refine Disk.scenes_source_congr (fun text => ?_) layout
  rw [hpath]
  exact ⟨h.symm.readText_join hname, h.readText_join hname⟩

/-- What is made beside a directory spares it. -/
theorem spares_ensureEach {root a : String} {r : Location} {names : List String}
    (hnames : ∀ b ∈ names, Path.IsPlain b ∧ b ≠ a) (hroot : disk.DirectoryAt root r) :
    Disk.Spares (r ++ [a]) disk (ensureEach disk (names.map (Path.join root))).1 := by
  induction names generalizing disk with
  | nil => exact .refl _ disk
  | cons b names ih =>
    obtain ⟨⟨hb, hne⟩, hrest⟩ := List.forall_mem_cons.mp hnames
    rw [List.map_cons, ensureEach]
    split
    · exact ih hrest hroot
    · have hmade := Disk.spares_createDirectories hroot hb hne
      generalize disk.createDirectories (Path.join root b) = result at hmade ⊢
      obtain ⟨made, _ | _⟩ := result
      · exact hmade
      · exact hmade.trans (ih hrest (hmade.directoryAt hroot))

end GameFolder

end VisualNovel

import VisualNovel.Folder.Game
import VisualNovel.Proofs.Disk.Listing
import VisualNovel.Proofs.Text.Blank
import VisualNovel.Proofs.Text.Extension

/-!
# Names of scenarios

What an author calls a scenario becomes the name of a file once: the name has no separator, ends
in the extension behind something else, and stands for itself from then on. Its file lies
directly in the directory of the scenarios, and no two scenarios have the same directory for their
textures. That directory lies directly among those of the textures, unless nothing but one point
or two points stand in front of the extension: then it is the directory of all textures itself,
or the one above.
-/

namespace VisualNovel

namespace Disk

variable {d : Disk} {l r : Location} {dir a b : String}

/-- A path leads directly into a directory, to what has a name of its own there. -/
def ChildOf (dir path : String) : Prop :=
  ∃ name, Path.IsPlain name ∧ Path.components path = Path.components dir ++ [name] ∧
    ∀ (d : Disk) (r : Location), d.resolve path = .ok r → ∃ l, d.DirectoryAt dir l ∧ r = l ++ [name]

/-- A plain name that is joined to a directory leads directly into it. -/
theorem childOf_join (h : Path.IsPlain a) (dir : String) : ChildOf dir (Path.join dir a) :=
  ⟨a, h, Path.components_join h dir, fun _ _ => exists_of_resolve_join h⟩

/-- The name that leads from a directory to a location beside it. -/
def nameTo (l r : Location) : String :=
  if r = l then "." else if r.length < l.length then ".." else r.getLastD ""

/-- The single name that leads to a location is the name for it. -/
theorem Leads.name_eq (h : d.Leads l [a] r) : a = nameTo l r := by
  cases h with
  | stay _ hrest =>
    cases hrest
    rw [nameTo, if_pos rfl]
  | up _ hinside hrest =>
    cases hrest
    have hlength : l.dropLast.length < l.length := by
      have := List.length_pos_iff.mpr hinside
      rw [List.length_dropLast]
      omega
    have hne : l.dropLast ≠ l := fun h => by simp [h] at hlength
    rw [nameTo, if_neg hne, if_pos hlength]
  | down _ _ _ _ hrest =>
    cases hrest
    simp [nameTo]

/-- Different names of a directory lead to different locations. -/
theorem resolve_join_inj (hane : a ≠ "") (ha : '/' ∉ a.toList) (hbne : b ≠ "")
    (hb : '/' ∉ b.toList) (h : d.resolve (Path.join dir a) = .ok r)
    (h' : d.resolve (Path.join dir b) = .ok r) : a = b := by
  have hleads := leads_of_resolve h
  have hleads' := leads_of_resolve h'
  rw [Path.components_join_of_not_mem hane ha] at hleads
  rw [Path.components_join_of_not_mem hbne hb] at hleads'
  obtain ⟨l, hdir, hlast⟩ := hleads.exists_of_append
  obtain ⟨l', hdir', hlast'⟩ := hleads'.exists_of_append
  obtain rfl := hdir.unique hdir'
  exact hlast.name_eq.trans hlast'.name_eq.symm

end Disk

namespace GameFolder

open Text

variable {f : GameFolder} {name file stem : String}

/-- The file name of a scenario, with what stands in front of its extension. -/
structure IsFileName (file stem : String) : Prop where
  file_eq : file = stem ++ scenarioEnding
  stem_ne_empty : stem ≠ ""
  uncut : ∀ c ∈ ['/', '\\', ':'], c ∉ file.toList
  trimmed : trim file = file

/-- A scenario's file name is its stem, a point and the extension. -/
theorem toList_append_scenarioEnding (stem : String) :
    (stem ++ scenarioEnding).toList = stem.toList ++ '.' :: scenarioExtension.toList := by
  simp [scenarioEnding]

/-- What is known of a scenario whose file name stands for itself. -/
theorem describe_of_isPlain (h : Path.IsPlain file) (f : GameFolder) : f.describe file =
    ⟨file, Path.join f.scenarios file, Path.join f.textures (Path.cutName file).1,
      Path.join f.sounds (Path.cutName file).1⟩ := by
  have hname : Path.fileName? file = some file := by
    rw [Path.fileName?, Path.components_of_not_mem h.ne_empty h.uncut]
    simp [h.ne_here, h.ne_above]
  rw [describe, Path.stem?, hname]
  rfl

namespace IsFileName

/-- The file name of a scenario is its stem, a point and the extension. -/
theorem toList_eq (h : IsFileName file stem) :
    file.toList = stem.toList ++ '.' :: scenarioExtension.toList := by
  rw [h.file_eq, toList_append_scenarioEnding]

/-- The file name of a scenario is not the extension alone. -/
theorem ne_ending (h : IsFileName file stem) : file ≠ scenarioEnding := by
  intro hfile
  have hlist := h.toList_eq
  rw [hfile] at hlist
  exact h.stem_ne_empty (String.toList_eq_nil_iff.mp (List.self_eq_append_left.mp hlist))

/-- The name of a file is no longer changed. -/
theorem fileNameOf_eq (h : IsFileName file stem) : fileNameOf file = .ok file := by
  have huncut : ¬ (file.toList.any (['/', '\\', ':'].contains ·)) = true := by
    rw [List.any_eq_true]
    rintro ⟨c, hc, hmem⟩
    exact h.uncut c (List.contains_iff_mem.mp hmem) hc
  have hends : scenarioEnding.toList.isSuffixOf file.toList = true := by
    rw [List.isSuffixOf_iff_suffix, h.toList_eq]
    exact List.suffix_append _ _
  have hne : file ≠ "" := by
    rintro rfl
    exact absurd h.toList_eq.symm (by simp)
  rw [fileNameOf]
  simp only [h.trimmed, hne, huncut, h.ne_ending, hends, decide_false, Bool.or_self,
    Bool.false_eq_true, if_false, if_true]

/-- The stem of a scenario has no slash. -/
theorem not_mem_stem (h : IsFileName file stem) : '/' ∉ stem.toList := by
  have hfile := h.uncut '/' (by simp)
  rw [h.toList_eq, List.mem_append, not_or] at hfile
  exact hfile.1

/-- The file name of a scenario is a plain name. -/
theorem isPlain (h : IsFileName file stem) : Path.IsPlain file := by
  have hlength : 4 ≤ file.toList.length := by
    have hstem := List.length_pos_iff.mpr (mt String.toList_eq_nil_iff.mp h.stem_ne_empty)
    rw [h.toList_eq, List.length_append, List.length_cons]
    change 4 ≤ stem.toList.length + (2 + 1)
    omega
  constructor
  case uncut => exact h.uncut '/' (by simp)
  all_goals
    intro hfile
    rw [hfile] at hlength
    exact absurd hlength (by decide)

/-- The last point of the name is that of the extension. -/
theorem cutName_eq (h : IsFileName file stem) :
    Path.cutName file = (stem, some scenarioExtension) := by
  refine Path.cutName_eq_iff.mpr ⟨?_, h.stem_ne_empty, by decide⟩
  rw [h.file_eq, scenarioEnding, String.append_assoc]

/-- A scenario is described by its file and by directories that are called like its stem. -/
theorem describe_eq (h : IsFileName file stem) (f : GameFolder) : f.describe file =
    ⟨file, Path.join f.scenarios file, Path.join f.textures stem, Path.join f.sounds stem⟩ := by
  rw [describe_of_isPlain h.isPlain, h.cutName_eq]

end IsFileName

/-- Every name that is accepted becomes the name of a file. -/
theorem exists_isFileName (h : fileNameOf name = .ok file) : ∃ stem, IsFileName file stem := by
  have htrimmed := trim_trim name
  unfold fileNameOf at h
  generalize trim name = called at h htrimmed
  dsimp only at h
  split at h
  · cases h
  · next hvalid =>
    simp only [Bool.or_eq_true, decide_eq_true_eq, not_or, List.any_eq_true, not_exists,
      not_and, List.contains_iff_mem] at hvalid
    obtain ⟨⟨hne, huncut⟩, hending⟩ := hvalid
    split at h
    · next hends =>
      obtain rfl := Except.ok.inj h
      obtain ⟨front, hfront⟩ := List.isSuffixOf_iff_suffix.mp hends
      have hcalled : called = String.ofList front ++ scenarioEnding := by
        rw [← String.toList_inj, ← hfront]
        simp
      refine ⟨String.ofList front, hcalled, ?_, fun c hc hmem => huncut c hmem hc, htrimmed⟩
      intro hempty
      rw [hempty, String.empty_append] at hcalled
      exact hending hcalled
    · obtain rfl := Except.ok.inj h
      refine ⟨called, rfl, hne, ?_, ?_⟩
      · intro c hc hmem
        rw [String.toList_append, List.mem_append] at hmem
        rcases hmem with hmem | hmem
        · exact huncut c hmem hc
        · have hending : ∀ c ∈ ['/', '\\', ':'], c ∉ scenarioEnding.toList := by
            simp [scenarioEnding, scenarioExtension]
          exact hending c hc hmem
      · have hcalled : called.toList ≠ [] := mt String.toList_eq_nil_iff.mp hne
        have hending : trimChars scenarioEnding.toList = scenarioEnding.toList := by decide
        have hchars := trimChars_append_eq_self hcalled (by decide)
          (trim_eq_self_iff.mp htrimmed) hending []
        rw [trim_eq_self_iff, String.toList_append]
        rwa [List.append_nil] at hchars

/-- The directory of a scenario lies directly among the others, unless the name of the scenario
is one point or two. -/
theorem childOf_describe_iff (h : IsFileName file stem) (dir : String) :
    Disk.ChildOf dir (Path.join dir stem) ↔ file ≠ "..sc" ∧ file ≠ "...sc" := by
  have hpoints (points : String) : file = points ++ scenarioEnding ↔ stem = points := by
    rw [h.file_eq, ← String.toList_inj, toList_append_scenarioEnding, toList_append_scenarioEnding,
      List.append_cancel_right_eq, String.toList_inj]
  change _ ↔ ¬ file = "." ++ scenarioEnding ∧ ¬ file = ".." ++ scenarioEnding
  rw [hpoints, hpoints]
  constructor
  · rintro ⟨last, hplain, hcomponents, _⟩
    rw [Path.components_join_of_not_mem h.stem_ne_empty h.not_mem_stem,
      List.append_cancel_left_eq] at hcomponents
    obtain rfl := (List.cons.inj hcomponents).1
    exact ⟨hplain.ne_here, hplain.ne_above⟩
  · rintro ⟨hhere, habove⟩
    exact Disk.childOf_join ⟨h.stem_ne_empty, hhere, habove, h.not_mem_stem⟩ dir

variable {disk disk₁ disk₂ disk₃ : Disk} {layout : Layout}

/-- How far the making of a scenario comes: what is on the disk then, and the answer. -/
inductive Attempt (f : GameFolder) (disk : Disk) (name : String) (layout : Layout) :
    Disk × Except Failure Descriptor → Prop where
  | unnamed {reason : Failure} (named : fileNameOf name = .error reason) :
      Attempt f disk name layout (disk, .error reason)
  | taken {file : String} (named : fileNameOf name = .ok file)
      (taken : disk.contains (f.describe file).filePath = true) :
      Attempt f disk name layout (disk, .error (.scenarioExists file))
  | unopened {file : String} {disk₁ : Disk} {fault : DiskError}
      (named : fileNameOf name = .ok file)
      (free : disk.contains (f.describe file).filePath = false)
      (opened : disk.createDirectories f.scenarios = (disk₁, .error fault)) :
      Attempt f disk name layout (disk₁, .error (.file f.scenarios))
  | unwritten {file : String} {disk₁ : Disk} {fault : DiskError}
      (named : fileNameOf name = .ok file)
      (free : disk.contains (f.describe file).filePath = false)
      (opened : disk.createDirectories f.scenarios = (disk₁, .ok ()))
      (written : disk₁.writeText (f.describe file).filePath (Scenario.blank layout) =
        .error fault) :
      Attempt f disk name layout (disk₁, .error (.file (f.describe file).filePath))
  | unfinished {file : String} {disk₁ disk₂ disk₃ : Disk} {fault : DiskError}
      (named : fileNameOf name = .ok file)
      (free : disk.contains (f.describe file).filePath = false)
      (opened : disk.createDirectories f.scenarios = (disk₁, .ok ()))
      (written : disk₁.writeText (f.describe file).filePath (Scenario.blank layout) = .ok disk₂)
      (finished : disk₂.createDirectories (f.describe file).texturesDir = (disk₃, .error fault)) :
      Attempt f disk name layout (disk₃, .error (.file (f.describe file).texturesDir))
  | finished {file : String} {disk₁ disk₂ disk₃ : Disk}
      (named : fileNameOf name = .ok file)
      (free : disk.contains (f.describe file).filePath = false)
      (opened : disk.createDirectories f.scenarios = (disk₁, .ok ()))
      (written : disk₁.writeText (f.describe file).filePath (Scenario.blank layout) = .ok disk₂)
      (finished : disk₂.createDirectories (f.describe file).texturesDir = (disk₃, .ok ())) :
      Attempt f disk name layout (disk₃, .ok (f.describe file))

/-- The making of a scenario ends in one of these ways. -/
theorem attempt_create (f : GameFolder) (disk : Disk) (name : String) (layout : Layout) :
    f.Attempt disk name layout (f.create disk name layout) := by
  unfold create
  cases hnamed : fileNameOf name with
  | error reason => exact .unnamed hnamed
  | ok file =>
    dsimp only
    cases hfree : disk.contains (f.describe file).filePath with
    | true => exact .taken hnamed hfree
    | false =>
      rw [if_neg Bool.false_ne_true]
      generalize hopened : disk.createDirectories f.scenarios = opened
      obtain ⟨disk₁, _ | ⟨⟨⟩⟩⟩ := opened
      · exact .unopened hnamed hfree hopened
      · dsimp only
        cases hwritten : disk₁.writeText (f.describe file).filePath (Scenario.blank layout) with
        | error fault => exact .unwritten hnamed hfree hopened hwritten
        | ok disk₂ =>
          dsimp only
          generalize hfinished : disk₂.createDirectories (f.describe file).texturesDir = finished
          obtain ⟨disk₃, _ | ⟨⟨⟩⟩⟩ := finished
          · exact .unfinished hnamed hfree hopened hwritten hfinished
          · exact .finished hnamed hfree hopened hwritten hfinished

/-- What is known of a new scenario is known from its file name. -/
theorem eq_describe_of_create {d : Descriptor} (hnamed : fileNameOf name = .ok file)
    (h : f.create disk name layout = (disk₁, .ok d)) : d = f.describe file := by
  have hattempt := f.attempt_create disk name layout
  rw [h] at hattempt
  cases hattempt with
  | finished hnamed' _ _ _ _ =>
    rw [hnamed] at hnamed'
    rw [Except.ok.inj hnamed']

/-- Where a scenario has its place: its file, and the directories of its textures and sounds. -/
structure InPlace (f : GameFolder) (file : String) (d : Descriptor) : Prop where
  fileName_eq : d.fileName = file
  file_childOf : Disk.ChildOf f.scenarios d.filePath
  textures_childOf_iff : Disk.ChildOf f.textures d.texturesDir ↔ file ≠ "..sc" ∧ file ≠ "...sc"
  sounds_childOf_iff : Disk.ChildOf f.sounds d.soundsDir ↔ file ≠ "..sc" ∧ file ≠ "...sc"

/-- Two directories are different, in words and on every disk. -/
def Apart (dir other : String) : Prop :=
  dir ≠ other ∧
    ∀ (disk : Disk) (r : Location), disk.resolve dir = .ok r → disk.resolve other ≠ .ok r

/-- A scenario's file lies in the directory of scenarios, and its directories of textures and sounds
lie in theirs unless its stem stands for another place. -/
theorem IsFileName.inPlace (h : IsFileName file stem) (f : GameFolder) :
    f.InPlace file (f.describe file) := by
  rw [h.describe_eq]
  exact ⟨rfl, Disk.childOf_join h.isPlain _, childOf_describe_iff h _, childOf_describe_iff h _⟩

/-- Different scenarios have their textures in different directories. -/
theorem IsFileName.apart {other otherStem : String} (h : IsFileName file stem)
    (h' : IsFileName other otherStem) (hne : file ≠ other) (f : GameFolder) :
    Apart (f.describe file).texturesDir (f.describe other).texturesDir := by
  have hstem : stem ≠ otherStem := by
    rintro rfl
    exact hne (h.file_eq.trans h'.file_eq.symm)
  rw [h.describe_eq, h'.describe_eq]
  constructor
  · intro hsame
    have hcomponents := congrArg Path.components hsame
    rw [Path.components_join_of_not_mem h.stem_ne_empty h.not_mem_stem,
      Path.components_join_of_not_mem h'.stem_ne_empty h'.not_mem_stem,
      List.append_cancel_left_eq] at hcomponents
    exact hstem (List.cons.inj hcomponents).1
  · intro disk r hr hr'
    exact hstem (Disk.resolve_join_inj h.stem_ne_empty h.not_mem_stem h'.stem_ne_empty
      h'.not_mem_stem hr hr')

/-- A name that is accepted becomes a file name once and for all. The scenario that is made under
it has its file directly in the directory of scenarios, and shares its directory of textures with
no other one; the directories of its textures and its sounds lie directly in those of all
textures and sounds exactly if the name is not one point or two. -/
theorem inPlace_of_fileNameOf (f : GameFolder) (h : fileNameOf name = .ok file) :
    (∀ c ∈ ['/', '\\', ':'], c ∉ file.toList) ∧ (∃ stem, stem ≠ "" ∧ file = stem ++ ".sc") ∧
    fileNameOf file = .ok file ∧ f.InPlace file (f.describe file) ∧
    (∀ disk layout disk' d, f.create disk name layout = (disk', .ok d) → d = f.describe file) ∧
    ∀ other otherFile, fileNameOf other = .ok otherFile → file ≠ otherFile →
      Apart (f.describe file).texturesDir (f.describe otherFile).texturesDir := by
  obtain ⟨stem, hfile⟩ := exists_isFileName h
  refine ⟨hfile.uncut, ⟨stem, hfile.stem_ne_empty, hfile.file_eq⟩, hfile.fileNameOf_eq,
    hfile.inPlace f, fun _ _ _ _ hcreate => eq_describe_of_create h hcreate, ?_⟩
  intro other otherFile hother hne
  obtain ⟨otherStem, hotherFile⟩ := exists_isFileName hother
  exact hfile.apart hotherFile hne f

/-- A name with points and white space around it. -/
theorem inPlace_of_fileNameOf_points :
    let f : GameFolder := .ofConfig .standard
    fileNameOf " ...first.part\t" = .ok "...first.part.sc" ∧
      Disk.ChildOf f.textures (f.describe "...first.part.sc").texturesDir := by
  intro f
  have hnamed : fileNameOf " ...first.part\t" = .ok "...first.part.sc" := by decide +kernel
  obtain ⟨_, _, _, hplace, _, _⟩ := inPlace_of_fileNameOf f hnamed
  exact ⟨hnamed, hplace.textures_childOf_iff.mpr (by decide)⟩

/-- Two points are accepted as a name, and a scenario is made whose textures are to lie in the
directory above that of all textures. -/
theorem not_childOf_textures_of_create :
    let f : GameFolder := .ofConfig .standard
    fileNameOf ".." = .ok "...sc" ∧
      (f.create .empty ".." .simple).2 = .ok (f.describe "...sc") ∧
      (f.describe "...sc").texturesDir = "game/textures/.." ∧
      ¬ Disk.ChildOf f.textures (f.describe "...sc").texturesDir := by
  intro f
  have hnamed : fileNameOf ".." = .ok "...sc" := by decide +kernel
  obtain ⟨stem, hfile⟩ := exists_isFileName hnamed
  refine ⟨hnamed, by decide +kernel, by decide +kernel, fun hchild => ?_⟩
  exact ((hfile.inPlace f).textures_childOf_iff.mp hchild).2 rfl

end GameFolder

end VisualNovel

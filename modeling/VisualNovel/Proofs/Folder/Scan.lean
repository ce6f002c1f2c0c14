import VisualNovel.Playback.Handle
import VisualNovel.Proofs.Disk.Grown
import VisualNovel.Proofs.Folder.Names
import VisualNovel.Proofs.Store
import VisualNovel.Proofs.Text.Bytes

/-!
# Scenarios that are found

The scenarios of a game are the files directly in one directory that have the extension, in small
or capital letters. They come in the order of their bytes, so that no two have the same name, and
in the engine that is given the list each is found under its name at its own place. What stands in
front of the last point is the same for the folder, which names the directories by it, and for
the scenario itself.
-/

namespace VisualNovel

namespace Disk

variable {d : Disk} {l : Location} {path name : String} {extensions : List String}

/-- What has a name stands in a directory. -/
theorem exists_below?_of_item?_concat {item : Item} (h : d.item? (l ++ [name]) = some item) :
    ∃ sub, d.below? l = some sub := by
  induction l generalizing d with
  | nil => exact ⟨d, rfl⟩
  | cons first l ih =>
    rw [List.cons_append, item?] at h
    rw [below?]
    split at h
    · next items hget =>
      simp only [hget]
      exact ih h
    · simp at h
    · cases h

namespace Distinct

/-- The files with an extension are the files of the directory whose names have it. -/
theorem mem_filesWith_iff (h : d.Distinct) : name ∈ d.filesWith path extensions ↔
    Path.hasExtension extensions name = true ∧
      ∃ l content, d.resolve path = .ok l ∧ d.item? (l ++ [name]) = some (.file content) := by
  rw [mem_filesWith]
  constructor
  · rintro ⟨content, hmem, hextension⟩
    obtain ⟨l, sub, _, hl, hsub, _, _⟩ := exists_of_mem_list hmem
    obtain ⟨t, hget, hitem⟩ := (mem_list_iff hl hsub (h l sub hsub)).mp hmem
    refine ⟨hextension, l, content, hl, ?_⟩
    rw [item?_concat hsub, hget, Option.map_some, hitem]
  · rintro ⟨hextension, l, content, hl, hitem⟩
    obtain ⟨sub, hsub⟩ := exists_below?_of_item?_concat hitem
    rw [item?_concat hsub] at hitem
    exact ⟨content, (mem_list_iff hl hsub (h l sub hsub)).mpr (Option.map_eq_some_iff.mp hitem),
      hextension⟩

/-- The files with an extension stand in the order of their names. -/
theorem pairwise_filesWith (h : d.Distinct) (path : String) (extensions : List String) :
    (d.filesWith path extensions).Pairwise (· < ·) := by
  cases hl : d.resolve path with
  | error reason =>
    rw [filesWith, list, hl]
    exact .nil
  | ok l =>
    cases hsub : d.below? l with
    | none =>
      rw [filesWith, list, hl]
      dsimp only
      rw [children, hsub]
      exact .nil
    | some sub => exact Disk.pairwise_filesWith hl hsub (h l sub hsub) extensions

end Distinct

end Disk

/-- Where scenarios have textures of their own, a new game can be begun in each that is found. -/
theorem Engine.planNewGame_eq_ok {τ : Type} {e : Engine τ} {fileName given player : String} {n : Nat}
    (hstate : e.state = .scenarioSelect) (hlookup : e.settings.lookup = .perScenario)
    (hplayer : Text.trimmedNonBlank given = some player)
    (hfound : e.store.findIndex? fileName = some n) :
    e.planNewGame (some fileName) given = .ok (.newGame n player) := by
  have hexpect : e.expect .scenarioSelect = .ok () := if_pos hstate
  rw [planNewGame, hexpect, hplayer, hlookup]
  dsimp only [bind, Except.bind, pure, Except.pure]
  rw [hfound]

namespace GameFolder

variable {f : GameFolder} {disk : Disk} {name stem : String} {d : Descriptor}

/-- The extension of a scenario, in small or capital letters. -/
def scenarioExtensions : List String := ["sc", "Sc", "sC", "SC"]

/-- A name that ends in the extension of a scenario, in small or capital letters, behind
something else. -/
def IsScenarioName (name stem : String) : Prop :=
  stem ≠ "" ∧ ∃ ext ∈ scenarioExtensions, name = stem ++ "." ++ ext

/-- There are four ways to write the extension in small and capital letters. -/
theorem lowerLatin_eq_iff {ext : String} :
    Path.lowerLatin ext = scenarioExtension ↔ ext ∈ scenarioExtensions := by
  constructor
  · intro h
    have hlist : ext.toList.map Char.toLower = ['s', 'c'] := by
      simpa [Path.lowerLatin, scenarioExtension] using congrArg String.toList h
    obtain ⟨a, rest, hext, ha, hrest⟩ := List.map_eq_cons_iff.mp hlist
    obtain ⟨b, rest, rfl, hb, hnil⟩ := List.map_eq_cons_iff.mp hrest
    obtain rfl := List.map_eq_nil_iff.mp hnil
    have hs := (Path.toLower_eq_iff 'S' (by decide) (by decide) rfl).mp ha
    have hc := (Path.toLower_eq_iff 'C' (by decide) (by decide) rfl).mp hb
    have hof : ext = String.ofList [a, b] := by rw [← hext, String.ofList_toList]
    rw [hof]
    rcases hs with rfl | rfl <;> rcases hc with rfl | rfl <;> decide
  · have hall : ∀ ext ∈ scenarioExtensions, Path.lowerLatin ext = scenarioExtension := by decide
    exact hall ext

/-- A name is that of a scenario just if one of these extensions can be cut off. -/
theorem isScenarioName_iff :
    IsScenarioName name stem ↔
      ∃ ext ∈ scenarioExtensions, Path.cutName name = (stem, some ext) := by
  have hpoint : ∀ ext ∈ scenarioExtensions, '.' ∉ ext.toList := by decide
  constructor
  · rintro ⟨hstem, ext, hext, hname⟩
    exact ⟨ext, hext, Path.cutName_eq_iff.mpr ⟨hname, hstem, hpoint ext hext⟩⟩
  · rintro ⟨ext, hext, hcut⟩
    obtain ⟨hname, hstem, _⟩ := Path.cutName_eq_iff.mp hcut
    exact ⟨hstem, ext, hext, hname⟩

/-- The test for the extension finds the names of scenarios. -/
theorem hasExtension_iff_isScenarioName : Path.hasExtension [scenarioExtension] name = true ↔
    ∃ stem, IsScenarioName name stem := by
  simp only [Path.hasExtension_iff, List.mem_singleton, lowerLatin_eq_iff, isScenarioName_iff]
  exact exists_congr fun stem => exists_congr fun ext => and_comm

/-- The folder and the scenario take the same part of the name for its stem. -/
theorem stem_eq (h : IsScenarioName d.fileName stem) :
    (Path.cutName d.fileName).1 = stem ∧ d.stem = stem := by
  obtain ⟨ext, _, hcut⟩ := isScenarioName_iff.mp h
  obtain ⟨hname, _, hpoint⟩ := Path.cutName_eq_iff.mp hcut
  refine ⟨by rw [hcut], ?_⟩
  rw [Descriptor.stem, hname, Path.toList_append_point, Text.cutAtLast_append_cons _ hpoint]
  exact String.ofList_toList

/-- The scenarios are called like the files with the extension. -/
theorem map_fileName_scan (f : GameFolder) (disk : Disk) :
    (f.scan disk).map (·.fileName) = disk.filesWith f.scenarios [scenarioExtension] := by
  rw [scan, List.map_map]
  exact List.map_id _

/-- The files of the directory that are called like a scenario are found. -/
theorem mem_scan_iff (h : disk.Distinct) : (∃ d ∈ f.scan disk, d.fileName = name) ↔
    ∃ l content stem, disk.resolve f.scenarios = .ok l ∧
      disk.item? (l ++ [name]) = some (.file content) ∧ IsScenarioName name stem := by
  rw [← List.mem_map, map_fileName_scan, h.mem_filesWith_iff, hasExtension_iff_isScenarioName]
  grind

/-- No two of them have the same name. -/
theorem nodup_scan (h : disk.Distinct) (f : GameFolder) :
    ((f.scan disk).map (·.fileName)).Nodup := by
  rw [map_fileName_scan]
  exact (h.pairwise_filesWith f.scenarios _).imp String.ne_of_lt

/-- A scenario that is found has its directories named by its stem. -/
theorem eq_of_mem_scan (hplain : disk.Plain) (h : d ∈ f.scan disk) :
    d = ⟨d.fileName, Path.join f.scenarios d.fileName, Path.join f.textures d.stem,
      Path.join f.sounds d.stem⟩ := by
  obtain ⟨file, hfile, rfl⟩ := List.mem_map.mp h
  obtain ⟨content, hlisted, hextension⟩ := Disk.mem_filesWith.mp hfile
  have hdescribe := describe_of_isPlain (hplain.of_mem_list hlisted) f
  obtain ⟨stem, hname⟩ := hasExtension_iff_isScenarioName.mp hextension
  obtain ⟨hcut, hstem⟩ := stem_eq (d := f.describe file) hname
  rw [hstem, ← hcut]
  exact hdescribe

/-- Where no two scenarios have the same name, each is found at its own place. -/
theorem findIndex?_ofDescriptors {τ : Type} {ds : List Descriptor} {n : Nat}
    (h : (ds.map (·.fileName)).Nodup) (hd : ds[n]? = some d) :
    (Store.ofDescriptors ds : Store τ).findIndex? d.fileName = some n := by
  obtain ⟨hn, rfl⟩ := List.getElem?_eq_some_iff.mp hd
  rw [Store.findIndex?_eq, Store.descriptors_ofDescriptors, List.findIdx?_eq_some_iff_getElem]
  refine ⟨hn, beq_self_eq_true _, fun j hj hsame => ?_⟩
  have hbound : n < (ds.map (·.fileName)).length := by rwa [List.length_map]
  have hbefore : j < (ds.map (·.fileName)).length := hj.trans hbound
  have hname : (ds.map (·.fileName))[j] = (ds.map (·.fileName))[n] := by simpa using hsame
  have hindex : j = n := h.getElem_inj_iff.mp hname
  exact Nat.ne_of_lt hj hindex

/-- Every file directly in the directory of scenarios that is called like one is found once, in
the order of the bytes of the names, and is not loaded. Its other directories are named by what
the scenario itself takes for its stem. In the engine that is given the list it is found under
its name at its own place, and so a new game can be begun in it. -/
theorem scan_exact (τ : Type) (f : GameFolder) (settings : Settings) (hdistinct : disk.Distinct)
    (hplain : disk.Plain) :
    (∀ name, (∃ d ∈ f.scan disk, d.fileName = name) ↔
      ∃ l content stem, disk.resolve f.scenarios = .ok l ∧
        disk.item? (l ++ [name]) = some (.file content) ∧ IsScenarioName name stem) ∧
    ((f.scan disk).map fun d => Text.bytes d.fileName).Pairwise (· < ·) ∧
    (∀ d ∈ f.scan disk, d.filePath = Path.join f.scenarios d.fileName ∧
      d.texturesDir = Path.join f.textures d.stem ∧ d.soundsDir = Path.join f.sounds d.stem) ∧
    ∀ n d, (f.scan disk)[n]? = some d →
      let e : Engine τ := .start settings (f.scan disk)
      (∃ entry, e.store.get? n = some entry ∧ entry.descriptor = d ∧ entry.loaded = false) ∧
      e.store.findIndex? d.fileName = some n ∧
      ∀ given player, settings.lookup = .perScenario → Text.trimmedNonBlank given = some player →
        (e.goToMenu .scenarioSelect).planNewGame (some d.fileName) given =
          .ok (.newGame n player) := by
  refine ⟨fun name => mem_scan_iff hdistinct, ?_, ?_, ?_⟩
  · have hpairwise := hdistinct.pairwise_filesWith f.scenarios [scenarioExtension]
    rw [← map_fileName_scan, List.pairwise_map] at hpairwise
    exact List.pairwise_map.mpr (hpairwise.imp Text.bytes_lt_bytes)
  · intro d hd
    have heq := eq_of_mem_scan hplain hd
    exact ⟨congrArg (·.filePath) heq, congrArg (·.texturesDir) heq, congrArg (·.soundsDir) heq⟩
  · intro n d hd e
    have hfound : e.store.findIndex? d.fileName = some n :=
      findIndex?_ofDescriptors (nodup_scan hdistinct f) hd
    refine ⟨⟨.ofDescriptor d, ?_, rfl, rfl⟩, hfound, fun given player hlookup hplayer => ?_⟩
    · have hget : (f.scan disk).map Entry.ofDescriptor = e.store.entries := by
        simp [e, Engine.start, Engine.startListed, Store.ofListings, Entry.ofDescriptor]
      rw [Store.get?, ← hget, List.getElem?_map, hd, Option.map_some]
    · exact Engine.planNewGame_eq_ok rfl hlookup hplayer hfound

/-- Files with one point or two in front, a directory that is called like a scenario, capital
letters, and a letter of two bytes. -/
def mixedItems : Table String Tree :=
  ⟨[("..sc", .file (.text "")), (".sc", .file (.text "")), ("alpha.SC", .file (.text "")),
    ("x.sc", .directory .empty), ("é.sc", .file (.text ""))]⟩

/-- They lie in the usual directory. -/
def mixedDisk : Disk := ⟨⟨[("game", .directory ⟨[("scenarios", .directory mixedItems)]⟩)]⟩⟩

/-- No two of these files have the same name. -/
theorem distinct_mixedDisk : mixedDisk.Distinct := by
  have hone {name : String} {items : Table String Tree} (h : Disk.Distinct ⟨items⟩) :
      Disk.Distinct ⟨⟨[(name, .directory items)]⟩⟩ := by
    refine Disk.distinct_iff.mpr ⟨List.nodup_singleton name, fun other items' hget => ?_⟩
    have hmem := Table.mem_of_get? hget
    simp only [List.mem_singleton, Prod.mk.injEq, Tree.directory.injEq] at hmem
    rwa [hmem.2]
  refine hone (hone (Disk.distinct_iff.mpr ⟨by decide, fun other items hget => ?_⟩))
  have hmem := Table.mem_of_get? hget
  simp only [mixedItems, List.mem_cons, Prod.mk.injEq, Tree.directory.injEq, reduceCtorEq,
    and_false, false_or, List.not_mem_nil, or_false] at hmem
  rw [hmem.2]
  exact Disk.distinct_empty

/-- All these names are plain. -/
theorem plain_mixedDisk : mixedDisk.Plain := by
  unfold Disk.Plain
  decide +kernel

/-- Three of these items are scenarios. -/
theorem scan_mixedDisk : (ofConfig .standard).scan mixedDisk =
    ["..sc", "alpha.SC", "é.sc"].map (ofConfig .standard).describe := by
  have hlist : mixedDisk.list "game/scenarios" = mixedItems.entries.map fun e => (e.1, e.2.item) :=
    Disk.list_eq_of_sorted (l := ["game", "scenarios"]) (s := ⟨mixedItems⟩) rfl rfl
      (by decide +kernel)
  have hscenarios : (ofConfig .standard).scenarios = "game/scenarios" := by decide +kernel
  rw [scan, hscenarios, Disk.filesWith, hlist]
  decide +kernel

/-- Three of them are scenarios, and a new game can be begun in the last one. -/
theorem scan_exact_mixedDisk :
    let e : Engine Texture :=
      .start (Config.standard.settings false) ((ofConfig .standard).scan mixedDisk)
    e.store.descriptors.map (·.fileName) = ["..sc", "alpha.SC", "é.sc"] ∧
      e.store.findIndex? "é.sc" = some 2 ∧
      (e.goToMenu .scenarioSelect).planNewGame (some "é.sc") " Ann" = .ok (.newGame 2 "Ann") := by
  intro e
  have hthird : ((ofConfig .standard).scan mixedDisk)[2]? =
      some ((ofConfig .standard).describe "é.sc") := by
    rw [scan_mixedDisk]
    rfl
  obtain ⟨_, _, _, hengine⟩ := scan_exact Texture (ofConfig .standard)
    (Config.standard.settings false) distinct_mixedDisk plain_mixedDisk
  obtain ⟨_, hfound, hchosen⟩ := hengine 2 _ hthird
  refine ⟨?_, hfound, hchosen _ _ (by decide +kernel) (by decide +kernel)⟩
  have hstore : e.store.descriptors = (ofConfig .standard).scan mixedDisk :=
    Store.descriptors_ofDescriptors _
  rw [hstore, scan_mixedDisk]
  rfl

end GameFolder

end VisualNovel

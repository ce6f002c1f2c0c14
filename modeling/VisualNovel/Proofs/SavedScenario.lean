import VisualNovel.Proofs.Disk.ReadBack
import VisualNovel.Proofs.Playback.Editing
import VisualNovel.Proofs.Scenario.RoundTrip
import VisualNovel.Session

/-!
# Saving what was edited

An author who saves writes the scenes that are being edited to the file of their scenario.
If the scenes came back from a file before a run of edits, then they do so after it, and
the file that is written then is read as exactly these scenes.
-/

namespace VisualNovel

open Scenario

namespace Session

/-- A saved scenario stands in its file, and the engine stays as it is. -/
theorem readText_of_edit_save {session session' : Session} {scenes : List Scene}
    (hscenes : session.engine.editingScenes = some scenes)
    (h : session.edit .save = (session', .ok ())) :
    session'.engine = session.engine ∧
      ∃ entry, session.engine.activeEntry = some entry ∧
        session'.disk.readText (Path.join session.folder.scenarios entry.descriptor.fileName) =
          .ok (write session.engine.settings.layout scenes) := by
  unfold edit at h
  split at h
  · cases h
  · simp only [editorInput?, saveScenario] at h
    split at h
    · cases h
    · next entry hentry =>
      rw [Engine.editingScenes, hentry] at hscenes
      obtain rfl := Option.some.inj hscenes
      split at h
      · next disk path hsave =>
        unfold GameFolder.saveScenario at hsave
        simp only at hsave
        split at hsave
        · next disk hwrite =>
          cases hsave
          cases h
          exact ⟨rfl, entry, hentry, Disk.readText_of_writeText hwrite⟩
        · cases hsave
      · cases h

end Session

namespace Engine

/-- Scenes that come back from a file before some edits, jumps, pauses and ticks do so after
them, and a session that saves them then has written a file that is read as these scenes. -/
theorem edited_scenes_read_back {σ τ : Type} (source : Source (StateM σ) τ) (e : Engine τ)
    (calls : List Call) (s : σ) (scenes : List Scene)
    (hscenes : e.editingScenes = some scenes)
    (hback : Scenario.scenes e.settings.layout (write e.settings.layout scenes) = scenes)
    (hediting : ∀ c ∈ calls, c.IsEditing) :
    ∃ edited, ((e.run source calls).run s).1.editingScenes = some edited ∧
      read e.settings.layout (write e.settings.layout edited) = ⟨edited, [], 0⟩ ∧
      ∀ session session' : Session, session.engine.settings.layout = e.settings.layout →
        session.engine.editingScenes = some edited →
        session.edit .save = (session', .ok ()) →
        session'.engine.editingScenes = some edited ∧
          ∃ entry text, session.engine.activeEntry = some entry ∧
            session'.disk.readText
              (Path.join session.folder.scenarios entry.descriptor.fileName) = .ok text ∧
            read e.settings.layout text = ⟨edited, [], 0⟩ := by
  have hsavable : e.Savable e.settings.layout :=
    ⟨rfl, scenes, hscenes, storable_of_scenes_write hback⟩
  obtain ⟨_, edited, hedited, hstorable⟩ :=
    hsavable.run hediting (canReturn_fst_run (e.run source calls) s)
  have hread := read_write hstorable
  refine ⟨edited, hedited, hread, ?_⟩
  intro session session' hlayout hsame hsave
  obtain ⟨hengine, entry, hentry, htext⟩ := Session.readText_of_edit_save hsame hsave
  rw [hlayout] at htext
  exact ⟨hengine ▸ hsame, entry, _, hentry, htext, hread⟩

/-- An author in the blank scene of a scenario. -/
def draft : Engine Unit where
  settings := ⟨.advanced, .perScenario, true, true, Settings.defaultSpeed⟩
  store := ⟨[⟨⟨"a.sc", "a.sc", "textures", "sounds"⟩, true, [.blank], .empty⟩]⟩
  state := .playing "a.sc" 0
  active := some 0
  player := "Ann"
  paused := false
  reveal := .start
  history := .empty
  recorded := false
  serial := 1
  status := none
  reports := []
  catalog := []

/-- Two edits that are accepted and one that is not, with a pause and a tick between them. -/
def draftCalls : List Call :=
  [.handle (.editor (.setMainLine " Hello")) 0, .handle .togglePause 0, .tick 0 0,
    .handle (.editor (.setMainLine "[scene_end]")) 0, .handle (.editor .duplicateScene) 0]

/-- A source that has nothing. -/
def silentSource : Source (StateM Unit) Unit where
  text _ := return .error ""
  textures _ := return .error ""

/-- The scene that the draft has twice after these calls. -/
def greeting : Scene := { Scene.blank with mainLine := some " Hello" }

/-- A draft comes back after edits of it. -/
theorem draft_reads_back :
    (draft.editingScenes = some [.blank] ∧
      Scenario.scenes .advanced (write .advanced [.blank]) = [.blank] ∧
      ∀ c ∈ draftCalls, c.IsEditing) ∧
    ((draft.run silentSource draftCalls).run ()).1.editingScenes = some [greeting, greeting] ∧
      read .advanced (write .advanced [greeting, greeting]) = ⟨[greeting, greeting], [], 0⟩ := by
  have hstorable : ∀ s ∈ [Scene.blank], Storable .advanced s := by
    simpa using storable_blank .advanced
  have hback : Scenario.scenes .advanced (write .advanced [.blank]) = [.blank] := by
    rw [Scenario.scenes, read_write hstorable]
  have hediting : ∀ c ∈ draftCalls, c.IsEditing := by
    simp [draftCalls, Call.IsEditing]
  have hrun : ((draft.run silentSource draftCalls).run ()).1.editingScenes =
      some [greeting, greeting] := rfl
  obtain ⟨edited, hedited, hread, _⟩ :=
    edited_scenes_read_back silentSource draft draftCalls () [.blank] rfl hback hediting
  obtain rfl := Option.some.inj (hedited.symm.trans hrun)
  exact ⟨⟨rfl, hback, hediting⟩, hrun, hread⟩

end Engine

end VisualNovel

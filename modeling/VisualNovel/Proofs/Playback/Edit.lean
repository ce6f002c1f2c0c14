import VisualNovel.Playback.Editor
import VisualNovel.Proofs.Store

/-!
# Accepted edits

What an edit comes to if it is accepted: a jump to another scene, a longer or a shorter
list of scenes, or a change of the one scene that is being played. An edit that is refused
has changed nothing, as every check stands before the first change.
-/

namespace VisualNovel

/-- A sequence of two steps is accepted only if both are. -/
theorem exists_of_bind_eq_ok {ε α β : Type} {x : Except ε α} {f : α → Except ε β} {b : β}
    (h : x >>= f = .ok b) : ∃ a, x = .ok a ∧ f a = .ok b := by
  cases x with
  | error reason => cases h
  | ok a => exact ⟨a, rfl, h⟩

theorem exists_of_map_eq_ok {ε α β : Type} {x : Except ε α} {f : α → β} {b : β}
    (h : x.map f = .ok b) : ∃ a, x = .ok a ∧ f a = b := by
  cases x with
  | error reason => cases h
  | ok a => exact ⟨a, rfl, Except.ok.inj h⟩

namespace Engine

variable {τ : Type} {e e' : Engine τ}

/-- The active scenes are those of the active entry. -/
theorem activeScenes_eq {k : Nat} {entry : Entry τ} (hactive : e.active = some k)
    (hentry : e.store.get? k = some entry) : e.activeScenes = entry.scenes := by
  rw [activeScenes, activeEntry, hactive, Option.bind_some, hentry]
  rfl

/-- Where play is expected and nothing is refused, the engine is in a scene of a scenario. -/
theorem eq_playing_of_expectPlaying (h : e.expectPlaying = .ok ()) :
    ∃ scenario scene, e.state = .playing scenario scene := by
  rw [expectPlaying] at h
  cases hs : e.state with
  | playing scenario scene => exact ⟨scenario, scene, rfl⟩
  | _ => simp [hs, State.isPlaying] at h

/-- Where the wide layout is expected and nothing is refused, it is the layout. -/
theorem isAdvanced_of_expectAdvanced (h : e.expectAdvanced = .ok ()) :
    e.settings.layout.isAdvanced = true := by
  rw [expectAdvanced] at h
  split at h
  · assumption
  · cases h

/-- A name of a texture that passes is clean, trimmed, and that of a texture. -/
theorem checkTexture_eq_ok {name : String} {v : Option String}
    (h : e.checkTexture name = .ok v) :
    checkText name = .ok () ∧ v = Text.trimmedNonBlank name ∧
      ∀ x ∈ v, (e.texture? (some x)).isSome = true := by
  obtain ⟨_, hcheck, h⟩ := exists_of_bind_eq_ok h
  refine ⟨hcheck, ?_⟩
  split at h
  · next hnone =>
    cases h
    exact ⟨hnone.symm, by simp⟩
  · next x hsome =>
    split at h
    · cases h
    · next hknown =>
      cases h
      exact ⟨hsome.symm, by simpa [Option.isSome_iff_ne_none] using hknown⟩

/-- A name of a track that passes is clean, trimmed, and in the catalog. -/
theorem checkTrack_eq_ok {name : String} {v : Option String} (h : e.checkTrack name = .ok v) :
    checkText name = .ok () ∧ v = Text.trimmedNonBlank name ∧
      ∀ x ∈ v, e.catalog.contains x = true := by
  obtain ⟨_, hcheck, h⟩ := exists_of_bind_eq_ok h
  refine ⟨hcheck, ?_⟩
  split at h
  · next hnone =>
    cases h
    exact ⟨hnone.symm, by simp⟩
  · next x hsome =>
    split at h
    · next hknown =>
      cases h
      exact ⟨hsome.symm, by simpa using hknown⟩
    · cases h

/-- What an accepted edit makes of the scene that is being played. -/
inductive Change (e : Engine τ) (s : Scene) : EditorInput → Scene → Prop where
  | speakerLine {slot : Nat} {text : String} (text_ok : checkText text = .ok ())
      (slot_lt : slot < Quartet.size) :
      Change e s (.setSpeakerLine slot text)
        { s with speakers := s.speakers.modify slot (·.setLine text) }
  | speakerName {slot : Nat} {name : String} (name_ok : checkText name = .ok ())
      (slot_lt : slot < Quartet.size) :
      Change e s (.setSpeakerName slot name)
        { s with speakers := s.speakers.modify slot fun p =>
          { p with name := Text.trimmedNonBlank name } }
  | mainLine {text : String} (text_ok : checkText text = .ok ()) :
      Change e s (.setMainLine text) (s.setMainLine text)
  | choice {index : Nat} {label target : String} (label_ok : checkText label = .ok ())
      (target_ok : checkText target = .ok ())
      (known : ∀ name ∈ Text.trimmedNonBlank target, (e.store.findIndex? name).isSome = true)
      (index_lt : index < Quartet.size) :
      Change e s (.setChoice index label target)
        { s with
          choices := s.choices.set index ⟨Text.trimmedNonBlank label, Text.trimmedNonBlank target⟩ }
  | background {name : String} {v : Option String} (texture : e.checkTexture name = .ok v) :
      Change e s (.setBackground name) { s with background := v }
  | backgroundOverlay {name : String} {v : Option String}
      (advanced : e.settings.layout.isAdvanced = true) (texture : e.checkTexture name = .ok v) :
      Change e s (.setBackgroundOverlay name) { s with backgroundOverlay := v }
  | overlay {name : String} {v : Option String}
      (advanced : e.settings.layout.isAdvanced = true) (texture : e.checkTexture name = .ok v) :
      Change e s (.setOverlay name) { s with overlay := v }
  | music {name : String} {v : Option String} (track : e.checkTrack name = .ok v) :
      Change e s (.setMusic name) { s with music := v }
  | sound {name : String} {v : Option String} (track : e.checkTrack name = .ok v) :
      Change e s (.setSound name) { s with sound := v }
  | speakerTexture {slot : Nat} {part : PortraitPart} {name : String} {v : Option String}
      (advanced : part.isLayered = true → e.settings.layout.isAdvanced = true)
      (texture : e.checkTexture name = .ok v) (slot_lt : slot < Quartet.size) :
      Change e s (.setSpeakerTexture slot part name)
        { s with speakers := s.speakers.modify slot (·.setTexture part v) }

/-- What an accepted edit makes of the engine while the scene at an index is being played. -/
inductive Edited (e : Engine τ) (i : Nat) : EditorInput → Engine τ → Prop where
  | jump {target : Nat} (target_lt : target < e.activeScenes.length) :
      Edited e i (.selectScene target) (e.moveTo target)
  | append {k : Nat} {entry : Entry τ} (active : e.active = some k)
      (present : e.store.get? k = some entry) :
      Edited e i .appendBlankScene { e with store := e.store.modifyScenes k (· ++ [.blank]) }
  | duplicate {k : Nat} {entry : Entry τ} (active : e.active = some k)
      (present : e.store.get? k = some entry) :
      Edited e i .duplicateScene { e with
        store := e.store.modifyScenes k fun scenes => scenes ++ [scenes[i]?.getD .blank] }
  | remove {k : Nat} {entry : Entry τ} (active : e.active = some k)
      (present : e.store.get? k = some entry) (index_lt : i + 1 < entry.scenes.length) :
      Edited e i .removeScene
        ({ e with store := e.store.modifyScenes k (·.eraseIdx i) }.moveTo i)
  | change {k : Nat} {entry : Entry τ} {s s' : Scene} {input : EditorInput}
      (active : e.active = some k) (present : e.store.get? k = some entry)
      (current : entry.scenes[i]? = some s) (changed : Change e s input s') :
      Edited e i input { e with store := e.store.modifyScenes k (·.set i s') }

/-- An accepted edit leaves the settings. -/
theorem Edited.settings_eq {i : Nat} {input : EditorInput} (h : Edited e i input e') :
    e'.settings = e.settings := by
  cases h <;> rfl

/-- An edit of the list of scenes changes the scenes of the active entry and nothing else. -/
theorem editScenes_eq_ok {f : List Scene → List Scene} (h : e.editScenes f = .ok e') :
    ∃ k entry, e.active = some k ∧ e.store.get? k = some entry ∧
      e' = { e with store := e.store.modifyScenes k f } := by
  rw [editScenes] at h
  split at h
  · cases h
  · next k hactive =>
    split at h
    · cases h
    · next hentry =>
      cases h
      rw [Option.isNone_iff_eq_none] at hentry
      obtain ⟨entry, hentry⟩ := Option.ne_none_iff_exists'.mp hentry
      exact ⟨k, entry, hactive, hentry, rfl⟩

/-- An edit of a scene changes that scene of the active entry and nothing else. -/
theorem editScene_eq_ok {i : Nat} {f : Scene → Except Refusal Scene}
    (h : e.editScene i f = .ok e') :
    ∃ k entry s s', e.active = some k ∧ e.store.get? k = some entry ∧
      entry.scenes[i]? = some s ∧ f s = .ok s' ∧
        e' = { e with store := e.store.modifyScenes k (·.set i s') } := by
  rw [editScene] at h
  split at h
  · cases h
  · next entry hentry =>
    split at h
    · cases h
    · next s hs =>
      obtain ⟨s', hs', h⟩ := exists_of_bind_eq_ok h
      obtain ⟨k, other, hactive, hother, rfl⟩ := editScenes_eq_ok h
      rw [activeEntry, hactive, Option.bind_some, hother] at hentry
      obtain rfl := Option.some.inj hentry
      exact ⟨k, other, s, s', hactive, hother, hs, hs', rfl⟩

/-- An edit of a speaker changes that speaker of the scene. -/
theorem editSpeaker_eq_ok {slot : Nat} {f : Speaker → Speaker} {s s' : Scene}
    (h : editSpeaker slot f s = .ok s') :
    slot < Quartet.size ∧ s' = { s with speakers := s.speakers.modify slot f } := by
  rw [editSpeaker] at h
  split at h
  · next hslot =>
    cases h
    exact ⟨hslot, rfl⟩
  · cases h

/-- An edit of a button changes that button of the scene. -/
theorem editChoice_eq_ok {index : Nat} {choice : Choice} {s s' : Scene}
    (h : editChoice index choice s = .ok s') :
    index < Quartet.size ∧ s' = { s with choices := s.choices.set index choice } := by
  rw [editChoice] at h
  split at h
  · next hindex =>
    cases h
    exact ⟨hindex, rfl⟩
  · cases h

/-- A change of the current scene is accepted only as one of the changes there are. -/
theorem edited_of_editScene {i : Nat} {input : EditorInput} {f : Scene → Except Refusal Scene}
    (h : e.editScene i f = .ok e') (hf : ∀ s s', f s = .ok s' → Change e s input s') :
    Edited e i input e' := by
  obtain ⟨k, entry, s, s', hactive, hentry, hs, hs', rfl⟩ := editScene_eq_ok h
  exact .change hactive hentry hs (hf s s' hs')

/-- A change that no scene refuses is made of whichever scene is current. -/
theorem edited_of_editScene_ok {i : Nat} {input : EditorInput} {f : Scene → Scene}
    (h : e.editScene i (fun s => .ok (f s)) = .ok e') (hf : ∀ s, Change e s input (f s)) :
    Edited e i input e' := by
  apply edited_of_editScene h
  intro s s' hs
  obtain rfl := Except.ok.inj hs
  exact hf s

/-- A change of a speaker is made of a slot that there is. -/
theorem edited_of_editSpeaker {i slot : Nat} {input : EditorInput} {f : Speaker → Speaker}
    (h : e.editScene i (editSpeaker slot f) = .ok e')
    (hf : ∀ s, slot < Quartet.size →
      Change e s input { s with speakers := s.speakers.modify slot f }) :
    Edited e i input e' := by
  apply edited_of_editScene h
  intro s s' hs
  obtain ⟨hslot, rfl⟩ := editSpeaker_eq_ok hs
  exact hf s hslot

/-- Every edit that is accepted is one of those there are. -/
theorem edited_of_editAt {i : Nat} {input : EditorInput} (h : e.editAt i input = .ok e') :
    Edited e i input e' := by
  cases input with
  | selectScene target =>
    simp only [editAt] at h
    split at h
    · next htarget =>
      cases h
      exact .jump htarget
    · cases h
  | appendBlankScene =>
    obtain ⟨k, entry, hactive, hentry, rfl⟩ := editScenes_eq_ok h
    exact .append hactive hentry
  | duplicateScene =>
    obtain ⟨k, entry, hactive, hentry, rfl⟩ := editScenes_eq_ok h
    exact .duplicate hactive hentry
  | removeScene =>
    simp only [editAt] at h
    split at h
    · cases h
    · next hlast =>
      obtain ⟨e₁, hone, h⟩ := exists_of_bind_eq_ok h
      obtain ⟨k, entry, hactive, hentry, rfl⟩ := editScenes_eq_ok hone
      cases h
      rw [activeScenes_eq hactive hentry, Bool.or_eq_true, decide_eq_true_eq,
        decide_eq_true_eq] at hlast
      exact .remove hactive hentry (by omega)
  | setSpeakerLine slot text =>
    obtain ⟨_, hcheck, h⟩ := exists_of_bind_eq_ok h
    exact edited_of_editSpeaker h fun s hslot => .speakerLine hcheck hslot
  | setSpeakerName slot name =>
    obtain ⟨_, hcheck, h⟩ := exists_of_bind_eq_ok h
    exact edited_of_editSpeaker h fun s hslot => .speakerName hcheck hslot
  | setMainLine text =>
    obtain ⟨_, hcheck, h⟩ := exists_of_bind_eq_ok h
    exact edited_of_editScene_ok h fun s => .mainLine hcheck
  | setChoice index label target =>
    obtain ⟨_, hlabel, h⟩ := exists_of_bind_eq_ok h
    obtain ⟨_, htarget, h⟩ := exists_of_bind_eq_ok h
    have hknown :
        (∀ name ∈ Text.trimmedNonBlank target, (e.store.findIndex? name).isSome = true) ∧
          e.editScene i (editChoice index
          ⟨Text.trimmedNonBlank label, Text.trimmedNonBlank target⟩) = .ok e' := by
      simp only at h
      split at h
      · next name hname =>
        split at h
        · cases h
        · next hfound => exact ⟨by simpa [hname, Option.isSome_iff_ne_none] using hfound, h⟩
      · next hname => exact ⟨fun name htarget => absurd htarget (hname name), h⟩
    apply edited_of_editScene hknown.2
    intro s s' hs
    obtain ⟨hindex, rfl⟩ := editChoice_eq_ok hs
    exact .choice hlabel htarget hknown.1 hindex
  | setBackground name =>
    obtain ⟨v, hv, h⟩ := exists_of_bind_eq_ok h
    exact edited_of_editScene_ok h fun s => .background hv
  | setBackgroundOverlay name =>
    obtain ⟨_, hadvanced, h⟩ := exists_of_bind_eq_ok h
    obtain ⟨v, hv, h⟩ := exists_of_bind_eq_ok h
    have hlayout := isAdvanced_of_expectAdvanced hadvanced
    exact edited_of_editScene_ok h fun s => .backgroundOverlay hlayout hv
  | setOverlay name =>
    obtain ⟨_, hadvanced, h⟩ := exists_of_bind_eq_ok h
    obtain ⟨v, hv, h⟩ := exists_of_bind_eq_ok h
    have hlayout := isAdvanced_of_expectAdvanced hadvanced
    exact edited_of_editScene_ok h fun s => .overlay hlayout hv
  | setMusic name =>
    obtain ⟨v, hv, h⟩ := exists_of_bind_eq_ok h
    exact edited_of_editScene_ok h fun s => .music hv
  | setSound name =>
    obtain ⟨v, hv, h⟩ := exists_of_bind_eq_ok h
    exact edited_of_editScene_ok h fun s => .sound hv
  | setSpeakerTexture slot part name =>
    have hadvanced : (part.isLayered = true → e.settings.layout.isAdvanced = true) ∧
        (do
          let texture ← e.checkTexture name
          e.editScene i (editSpeaker slot (·.setTexture part texture))) = .ok e' := by
      simp only [editAt] at h
      split at h
      · obtain ⟨_, hadvanced, h⟩ := exists_of_bind_eq_ok h
        exact ⟨fun _ => isAdvanced_of_expectAdvanced hadvanced, h⟩
      · next hbody => exact ⟨fun hpart => absurd hpart hbody, h⟩
    obtain ⟨v, hv, h⟩ := exists_of_bind_eq_ok hadvanced.2
    exact edited_of_editSpeaker h fun s hslot => .speakerTexture hadvanced.1 hv hslot

/-- An edit is accepted only while editing, and while a scene is being played. -/
theorem edited_of_edit {input : EditorInput} (h : e.edit input = .ok e') :
    e.settings.editing = true ∧
      ∃ scenario i, e.state = .playing scenario i ∧ Edited e i input e' := by
  rw [edit] at h
  split at h
  · next hediting =>
    obtain ⟨_, hplaying, h⟩ := exists_of_bind_eq_ok h
    obtain ⟨scenario, i, hs⟩ := eq_playing_of_expectPlaying hplaying
    rw [hs] at h
    exact ⟨hediting, scenario, i, hs, edited_of_editAt h⟩
  · cases h

end Engine

end VisualNovel

import VisualNovel.Proofs.Playback.Edit
import VisualNovel.Proofs.Playback.Run
import VisualNovel.Proofs.Scene

/-!
# Edits change what they name

A request that gives values to fields of a scene changes these fields of the current scene and
nothing else: no other field, scene or scenario, and nothing of the engine besides. What it
names exists afterwards as it did before, so that the same request is accepted again, and then
it changes nothing. The other requests make the list of scenes longer or shorter, or go to
another scene.
-/

namespace VisualNovel

namespace EditorInput

/-- The fields that a request names, each with the value it gives. Blank text is no value. The
lines are taken as they are, and everything else is trimmed. -/
def values : EditorInput → List (SceneField × Option String)
  | .setSpeakerLine slot text => [(.speaker slot .line, Text.nonBlank text)]
  | .setSpeakerName slot name => [(.speaker slot .name, Text.trimmedNonBlank name)]
  | .setMainLine text => [(.mainLine, Text.nonBlank text)]
  | .setChoice index label target =>
    [(.choice index .label, Text.trimmedNonBlank label),
      (.choice index .target, Text.trimmedNonBlank target)]
  | .setBackground name => [(.background, Text.trimmedNonBlank name)]
  | .setBackgroundOverlay name => [(.backgroundOverlay, Text.trimmedNonBlank name)]
  | .setOverlay name => [(.overlay, Text.trimmedNonBlank name)]
  | .setMusic name => [(.music, Text.trimmedNonBlank name)]
  | .setSound name => [(.sound, Text.trimmedNonBlank name)]
  | .setSpeakerTexture slot part name =>
    [(.speaker slot (.texture part), Text.trimmedNonBlank name)]
  | .selectScene _ | .appendBlankScene | .duplicateScene | .removeScene => []

/-- A request names no field twice. -/
theorem nodup_values (input : EditorInput) : (input.values.map (·.1)).Nodup := by
  cases input <;> simp [values]

/-- What a request makes of a list of scenes, where the one at an index is current. -/
def Rewrites (input : EditorInput) (index : Nat) (scenes scenes' : List Scene) : Prop :=
  match input with
  | .selectScene _ => scenes' = scenes
  | .appendBlankScene => scenes' = scenes ++ [.blank]
  | .duplicateScene => scenes' = scenes ++ [scenes[index]?.getD .blank]
  | .removeScene => index + 1 < scenes.length ∧ scenes' = scenes.eraseIdx index
  | _ => ∃ s s', scenes[index]? = some s ∧ scenes' = scenes.set index s' ∧
    Scene.Assigned input.values s s'

end EditorInput

/-- Whether a field of a scene holds the name of a texture. -/
def SceneField.IsTexture : SceneField → Prop
  | .background | .backgroundOverlay | .overlay | .speaker _ (.texture _) => True
  | _ => False

namespace Engine

variable {τ : Type} {e e' : Engine τ} {input : EditorInput}

/-- What a request does to an engine besides changing scenes. -/
def revisit (e : Engine τ) : EditorInput → Engine τ
  | .selectScene target => e.moveTo target
  | .removeScene => e.resetVisit
  | _ => e

section Changes

variable {s s' : Scene}

/-- A change of the current scene is an assignment of the fields that are named. -/
theorem Change.eq_assign (h : Change e s input s') : s' = s.assign input.values := by
  cases h with
  | speakerLine => rfl
  | speakerName => rfl
  | mainLine => rfl
  | choice => exact (s.assign_choice _ _ _).symm
  | background htexture =>
    obtain ⟨_, rfl, _⟩ := checkTexture_eq_ok htexture
    rfl
  | backgroundOverlay _ htexture =>
    obtain ⟨_, rfl, _⟩ := checkTexture_eq_ok htexture
    rfl
  | overlay _ htexture =>
    obtain ⟨_, rfl, _⟩ := checkTexture_eq_ok htexture
    rfl
  | music htrack =>
    obtain ⟨_, rfl, _⟩ := checkTrack_eq_ok htrack
    rfl
  | sound htrack =>
    obtain ⟨_, rfl, _⟩ := checkTrack_eq_ok htrack
    rfl
  | speakerTexture _ htexture _ =>
    obtain ⟨_, rfl, _⟩ := checkTexture_eq_ok htexture
    rfl

/-- The current scene has the fields that are named. -/
theorem Change.isSome_field? (h : Change e s input s') :
    ∀ value ∈ input.values, (s.field? value.1).isSome = true := by
  cases h with
  | speakerLine _ hslot | speakerName _ hslot | speakerTexture _ _ hslot =>
    simpa [EditorInput.values, Scene.field?] using Quartet.isSome_get?.mpr hslot
  | choice _ _ _ hindex =>
    simpa [EditorInput.values, Scene.field?] using Quartet.isSome_get?.mpr hindex
  | _ => simp [EditorInput.values, Scene.field?]

/-- An accepted edit gives the fields it names their values and leaves the others. -/
theorem Change.assigned (h : Change e s input s') : Scene.Assigned input.values s s' := by
  rw [h.eq_assign]
  exact Scene.assigned_assign input.nodup_values h.isSome_field?

/-- An accepted edit of the current scene is what its request makes of the scenes. -/
theorem Change.rewrites (h : Change e s input s') {i : Nat} {scenes : List Scene}
    (hs : scenes[i]? = some s) : input.Rewrites i scenes (scenes.set i s') := by
  have hassigned := h.assigned
  cases h <;> exact ⟨s, _, hs, rfl, hassigned⟩

/-- An edit of a scene does nothing else to the engine. -/
theorem Change.revisit_eq (h : Change e s input s') (e₁ : Engine τ) :
    e₁.revisit input = e₁ := by
  cases h <;> rfl

/-- A texture that is named is there. -/
theorem Change.isSome_texture? (h : Change e s input s') {field : SceneField} {name : String}
    (hvalue : (field, some name) ∈ input.values) (hfield : field.IsTexture) :
    (e.texture? (some name)).isSome = true := by
  cases h with
  | background htexture | backgroundOverlay _ htexture | overlay _ htexture
  | speakerTexture _ htexture _ =>
    obtain ⟨_, rfl, hknown⟩ := checkTexture_eq_ok htexture
    exact hknown name (Prod.mk.inj (List.mem_singleton.mp hvalue)).2.symm
  | choice =>
    rw [EditorInput.values, List.mem_pair, Prod.mk.injEq, Prod.mk.injEq] at hvalue
    rcases hvalue with ⟨rfl, _⟩ | ⟨rfl, _⟩ <;> exact hfield.elim
  | _ =>
    obtain ⟨rfl, _⟩ := Prod.mk.inj (List.mem_singleton.mp hvalue)
    exact hfield.elim

/-- A scenario that is named as a target is there. -/
theorem Change.isSome_findIndex? (h : Change e s input s') {index : Nat} {name : String}
    (hvalue : (.choice index .target, some name) ∈ input.values) :
    (e.store.findIndex? name).isSome = true := by
  cases h with
  | choice _ _ hknown _ =>
    rw [EditorInput.values, List.mem_pair, Prod.mk.injEq, Prod.mk.injEq] at hvalue
    rcases hvalue with ⟨hfield, _⟩ | ⟨_, hname⟩
    · cases hfield
    · exact hknown name hname.symm
  | _ => cases (Prod.mk.inj (List.mem_singleton.mp hvalue)).1

end Changes

section Again

variable {k i : Nat} {entry : Entry τ} {s s' : Scene}

/-- A change of scenes takes no texture away. -/
theorem texture?_modifyScenes (hentry : e.store.get? k = some entry)
    (f : List Scene → List Scene) (name : Option String) :
    ({ e with store := e.store.modifyScenes k f } : Engine τ).texture? name = e.texture? name := by
  have hcounts : e.settings.lookup.scenario? (e.store.modifyScenes k f) e.active =
      e.settings.lookup.scenario? e.store e.active := by
    cases e.settings.lookup with
    | perScenario => rfl
    | shared => exact Store.findIndex?_congr (Store.descriptors_modifyScenes hentry f) _
  rw [texture?, texture?, TextureLookup.texture?, TextureLookup.texture?, hcounts]
  cases name with
  | none => rfl
  | some name =>
    cases e.settings.lookup.scenario? e.store e.active with
    | none => rfl
    | some j =>
      simp only [Option.bind_eq_bind, Option.bind_some]
      by_cases hkj : k = j
      · rw [← hkj, Store.get?_modifyScenes_self hentry, hentry]
        rfl
      · rw [Store.get?_modifyScenes_ne hkj]

/-- Which textures there are does not depend on the scenes. -/
theorem checkTexture_modifyScenes (hentry : e.store.get? k = some entry)
    (f : List Scene → List Scene) (name : String) :
    ({ e with store := e.store.modifyScenes k f } : Engine τ).checkTexture name =
      e.checkTexture name := by
  simp only [checkTexture, texture?_modifyScenes hentry]

/-- What is allowed does not depend on scenes, so a change can be made again of any scene. -/
theorem Change.modifyScenes (h : Change e s input s') (hentry : e.store.get? k = some entry)
    (f : List Scene → List Scene) (t : Scene) :
    Change { e with store := e.store.modifyScenes k f } t input (t.assign input.values) := by
  have htextures : ∀ name, ({ e with store := e.store.modifyScenes k f } : Engine τ).checkTexture
      name = e.checkTexture name := checkTexture_modifyScenes hentry f
  have hlisted : ∀ name, (e.store.modifyScenes k f).findIndex? name = e.store.findIndex? name :=
    Store.findIndex?_congr (Store.descriptors_modifyScenes hentry f)
  cases h with
  | speakerLine htext hslot => exact .speakerLine htext hslot
  | speakerName hname hslot => exact .speakerName hname hslot
  | mainLine htext => exact .mainLine htext
  | choice hlabel htarget hknown hindex =>
    rw [EditorInput.values, t.assign_choice]
    exact .choice hlabel htarget (fun name hname => (hlisted name).symm ▸ hknown name hname) hindex
  | background htexture =>
    obtain ⟨_, rfl, _⟩ := checkTexture_eq_ok htexture
    exact .background ((htextures _).trans htexture)
  | backgroundOverlay hadvanced htexture =>
    obtain ⟨_, rfl, _⟩ := checkTexture_eq_ok htexture
    exact .backgroundOverlay hadvanced ((htextures _).trans htexture)
  | overlay hadvanced htexture =>
    obtain ⟨_, rfl, _⟩ := checkTexture_eq_ok htexture
    exact .overlay hadvanced ((htextures _).trans htexture)
  | music htrack =>
    obtain ⟨_, rfl, _⟩ := checkTrack_eq_ok htrack
    exact .music htrack
  | sound htrack =>
    obtain ⟨_, rfl, _⟩ := checkTrack_eq_ok htrack
    exact .sound htrack
  | speakerTexture hadvanced htexture hslot =>
    obtain ⟨_, rfl, _⟩ := checkTexture_eq_ok htexture
    exact .speakerTexture hadvanced ((htextures _).trans htexture) hslot

/-- An edit that the current scene accepts is made in the store. -/
theorem editScene_eq {f : Scene → Except Refusal Scene} (hactive : e.active = some k)
    (hentry : e.store.get? k = some entry) (hs : entry.scenes[i]? = some s)
    (hf : f s = .ok s') :
    e.editScene i f = .ok { e with store := e.store.modifyScenes k (·.set i s') } := by
  have hactiveEntry : e.activeEntry = some entry := by
    rw [activeEntry, hactive, Option.bind_some, hentry]
  simp only [editScene, hactiveEntry, hs]
  rw [hf]
  simp only [editScenes, hactive, hentry]
  rfl

/-- An edit is accepted if it makes one of the changes there are. -/
theorem editAt_eq_of_change (hactive : e.active = some k) (hentry : e.store.get? k = some entry)
    (hs : entry.scenes[i]? = some s) (h : Change e s input s') :
    e.editAt i input = .ok { e with store := e.store.modifyScenes k (·.set i s') } := by
  have haccept : ∀ f : Scene → Except Refusal Scene, f s = .ok s' →
      e.editScene i f = .ok { e with store := e.store.modifyScenes k (·.set i s') } :=
    fun f hf => editScene_eq hactive hentry hs hf
  cases h with
  | speakerLine htext hslot =>
    rw [editAt, htext]
    exact haccept _ (if_pos hslot)
  | speakerName hname hslot =>
    rw [editAt, hname]
    exact haccept _ (if_pos hslot)
  | mainLine htext =>
    rw [editAt, htext]
    exact haccept _ rfl
  | @choice index label target hlabel htarget hknown hindex =>
    have hdone := haccept
      (editChoice index ⟨Text.trimmedNonBlank label, Text.trimmedNonBlank target⟩) (if_pos hindex)
    rw [editAt, hlabel, htarget]
    cases hname : Text.trimmedNonBlank target with
    | none =>
      rw [hname] at hdone
      exact hdone
    | some name =>
      obtain ⟨j, hj⟩ := Option.isSome_iff_exists.mp (hknown name hname)
      rw [hname] at hdone
      simp only [hj]
      exact hdone
  | background htexture =>
    rw [editAt, htexture]
    exact haccept _ rfl
  | backgroundOverlay hadvanced htexture =>
    rw [editAt, expectAdvanced, if_pos hadvanced, htexture]
    exact haccept _ rfl
  | overlay hadvanced htexture =>
    rw [editAt, expectAdvanced, if_pos hadvanced, htexture]
    exact haccept _ rfl
  | music htrack =>
    rw [editAt, htrack]
    exact haccept _ rfl
  | sound htrack =>
    rw [editAt, htrack]
    exact haccept _ rfl
  | @speakerTexture slot part name v hadvanced htexture hslot =>
    cases hpart : part.isLayered with
    | false =>
      rw [editAt, hpart, htexture]
      exact haccept _ (if_pos hslot)
    | true =>
      rw [editAt, hpart, expectAdvanced, if_pos (hadvanced hpart), htexture]
      exact haccept _ (if_pos hslot)

/-- A change that has been made can be made again, and then changes nothing. -/
theorem edit_eq_of_change {scenario : String} (hediting : e.settings.editing = true)
    (hstate : e.state = .playing scenario i) (hactive : e.active = some k)
    (hentry : e.store.get? k = some entry) (hs : entry.scenes[i]? = some s)
    (h : Change e s input s') (he' : e' = { e with store := e.store.modifyScenes k (·.set i s') }) :
    e'.edit input = .ok e' := by
  have hentry' : e'.store.get? k = some { entry with scenes := entry.scenes.set i s' } := by
    rw [he']
    exact Store.get?_modifyScenes_self hentry _
  have hs' : (entry.scenes.set i s')[i]? = some s' := by
    obtain ⟨hi, _⟩ := List.getElem?_eq_some_iff.mp hs
    exact List.getElem?_set_self hi
  have hchange : Change e' s' input s' := by
    have hagain := h.modifyScenes hentry (·.set i s') s'
    rwa [h.assigned.assign_eq_self, ← he'] at hagain
  have hsame : e'.store.modifyScenes k (·.set i s') = e'.store :=
    Store.modifyScenes_eq_self hentry' (List.set_set s')
  have hactive' : e'.active = some k := by rw [he', hactive]
  have hat := editAt_eq_of_change hactive' hentry' hs' hchange
  rw [hsame] at hat
  have hediting' : e'.settings.editing = true := by rw [he', hediting]
  have hstate' : e'.state = .playing scenario i := by rw [he', hstate]
  simp only [edit, hediting', expectPlaying, hstate', State.isPlaying, State.scene?]
  exact hat

end Again

section Requests

/-- A scenario that has scenes to play is there. -/
theorem exists_activeEntry (h : 0 < e.activeScenes.length) :
    ∃ k entry, e.active = some k ∧ e.store.get? k = some entry := by
  cases hentry : e.activeEntry with
  | none =>
    rw [activeScenes, hentry] at h
    cases h
  | some entry =>
    obtain ⟨k, hactive, hentry⟩ := Option.bind_eq_some_iff.mp hentry
    exact ⟨k, entry, hactive, hentry⟩

/-- Moving to the scene that is being played begins its visit anew. -/
theorem moveTo_eq_resetVisit {scenario : String} {i : Nat} (h : e.state = .playing scenario i) :
    e.moveTo i = e.resetVisit := by
  simp only [moveTo, h]
  rw [← h]

/-- A request is carried out at once, whatever the source. -/
theorem handle_editor_eq_ok_iff {σ : Type} (source : Source (StateM σ) τ) (now : Nat) (t : σ) :
    ((e.handle source now (.editor input)).run t).1 = (e', .ok ()) ↔ e.edit input = .ok e' := by
  cases hedit : e.edit input with
  | error reason =>
    rw [handle, plan, hedit]
    exact iff_of_false (fun h => by cases (Prod.mk.inj h).2) (fun h => by cases h)
  | ok e₁ =>
    rw [handle, plan, hedit, Except.ok.injEq]
    exact ⟨fun h => (Prod.mk.inj h).1, fun h => congrArg (·, Except.ok ()) h⟩

/-- What an accepted request comes to. -/
structure Obeys (input : EditorInput) (e e' : Engine τ) : Prop where
  /-- Of all scenarios only the one that is being played differs, and of this one only the
  scenes, as the request says. -/
  scenes : ∃ scenario index k entry scenes', e.state = .playing scenario index ∧
    e.active = some k ∧ e.store.get? k = some entry ∧
    e'.store.get? k = some { entry with scenes := scenes' } ∧
    (∀ j ≠ k, e'.store.get? j = e.store.get? j) ∧ input.Rewrites index entry.scenes scenes'
  /-- Besides the store nothing differs, unless the request goes to a scene. -/
  rest : e' = ({ e with store := e'.store } : Engine τ).revisit input
  /-- A texture that is named is there. -/
  textures {field : SceneField} {name : String} : (field, some name) ∈ input.values →
    field.IsTexture → (e'.texture? (some name)).isSome = true
  /-- A scenario that is named as a target is there. -/
  targets {index : Nat} {name : String} : (.choice index .target, some name) ∈ input.values →
    (e'.store.findIndex? name).isSome = true
  /-- A request that names something can be made again at any time, and then changes nothing. -/
  again {σ : Type} (source : Source (StateM σ) τ) (now : Nat) (t : σ) : input.values ≠ [] →
    ((e'.handle source now (.editor input)).run t).1 = (e', .ok ())

/-- A request that names no field only has to do with the list of scenes. -/
theorem obeys_of_values_eq_nil {scenario : String} {i k : Nat} {entry : Entry τ}
    {f : List Scene → List Scene} (hvalues : input.values = [])
    (hstate : e.state = .playing scenario i) (hactive : e.active = some k)
    (hentry : e.store.get? k = some entry) (hstore : e'.store = e.store.modifyScenes k f)
    (hrewrites : input.Rewrites i entry.scenes (f entry.scenes))
    (hrest : e' = ({ e with store := e'.store } : Engine τ).revisit input) : Obeys input e e' := by
  constructor
  case scenes =>
    rw [hstore]
    exact ⟨scenario, i, k, entry, f entry.scenes, hstate, hactive, hentry,
      Store.get?_modifyScenes_self hentry f,
      fun j hj => Store.get?_modifyScenes_ne hj.symm f, hrewrites⟩
  case rest => exact hrest
  case textures => simp [hvalues]
  case targets => simp [hvalues]
  case again => exact fun _ _ _ h => absurd hvalues h

/-- What an edit of the current scene comes to is what its request asks for. -/
theorem obeys_of_change {scenario : String} {i k : Nat} {entry : Entry τ} {s s' : Scene}
    (hediting : e.settings.editing = true) (hstate : e.state = .playing scenario i)
    (hactive : e.active = some k) (hentry : e.store.get? k = some entry)
    (hs : entry.scenes[i]? = some s) (h : Change e s input s')
    (he' : e' = { e with store := e.store.modifyScenes k (·.set i s') }) : Obeys input e e' := by
  constructor
  case scenes =>
    refine ⟨scenario, i, k, entry, entry.scenes.set i s', hstate, hactive, hentry, ?_, ?_,
      h.rewrites hs⟩
    · rw [he']
      exact Store.get?_modifyScenes_self hentry _
    · intro j hj
      rw [he']
      exact Store.get?_modifyScenes_ne hj.symm _
  case rest => rw [h.revisit_eq, he']
  case textures =>
    intro field name hvalue hfield
    rw [he', texture?_modifyScenes hentry]
    exact h.isSome_texture? hvalue hfield
  case targets =>
    intro index name hvalue
    rw [he', Store.findIndex?_congr (Store.descriptors_modifyScenes hentry _)]
    exact h.isSome_findIndex? hvalue
  case again =>
    intro σ source now t _
    exact (handle_editor_eq_ok_iff source now t).mpr
      (edit_eq_of_change hediting hstate hactive hentry hs h he')

/-- Whatever an engine is like, a request that it accepts is obeyed, and nothing besides. -/
theorem obeys_of_handle_editor {σ : Type} {source : Source (StateM σ) τ} {now : Nat} {t : σ}
    (h : ((e.handle source now (.editor input)).run t).1 = (e', .ok ())) : Obeys input e e' := by
  obtain ⟨hediting, scenario, i, hstate, hedited⟩ :=
    edited_of_edit ((handle_editor_eq_ok_iff source now t).mp h)
  cases hedited with
  | jump htarget =>
    obtain ⟨k, entry, hactive, hentry⟩ := exists_activeEntry (Nat.zero_lt_of_lt htarget)
    exact obeys_of_values_eq_nil (f := id) rfl hstate hactive hentry
      (Store.modifyScenes_eq_self hentry rfl).symm rfl rfl
  | append hactive hentry =>
    exact obeys_of_values_eq_nil (f := fun scenes => scenes ++ [Scene.blank]) rfl
      hstate hactive hentry rfl rfl rfl
  | duplicate hactive hentry =>
    exact obeys_of_values_eq_nil (f := fun scenes => scenes ++ [scenes[i]?.getD .blank]) rfl
      hstate hactive hentry rfl rfl rfl
  | @remove k entry hactive hentry hlast =>
    refine obeys_of_values_eq_nil (f := (·.eraseIdx i)) rfl hstate hactive hentry rfl
      ⟨hlast, rfl⟩ ?_
    exact moveTo_eq_resetVisit (e := { e with store := e.store.modifyScenes k (·.eraseIdx i) })
      hstate
  | change hactive hentry hs hchange =>
    exact obeys_of_change hediting hstate hactive hentry hs hchange rfl

/-- An author in the only scene of a scenario. -/
def sketch (scene : Scene) : Engine Unit :=
  { (startListed ⟨.simple, .perScenario, true, false, Settings.defaultSpeed⟩ [] : Engine Unit) with
    store := ⟨[⟨⟨"a.sc", "a.sc", "textures", "sounds"⟩, true, [scene], .empty⟩]⟩
    state := .playing "a.sc" 0
    active := some 0 }

/-- A source that has nothing. -/
def vacantSource : Source (StateM Unit) Unit where
  text _ := return .error "no text"
  textures _ := return .error "no textures"

/-- A choice gets its label and its target, both of them trimmed. -/
theorem obeys_of_handle_editor_sketch :
    (((sketch .blank).handle vacantSource 0 (.editor (.setChoice 0 " Again" "a.sc "))).run ()).1 =
      (sketch { Scene.blank with
        choices := Scene.blank.choices.set 0 ⟨some "Again", some "a.sc"⟩ }, .ok ()) ∧
    Obeys (.setChoice 0 " Again" "a.sc ") (sketch .blank)
      (sketch { Scene.blank with
        choices := Scene.blank.choices.set 0 ⟨some "Again", some "a.sc"⟩ }) := by
  have h : (((sketch .blank).handle vacantSource 0
      (.editor (.setChoice 0 " Again" "a.sc "))).run ()).1 =
      (sketch { Scene.blank with
        choices := Scene.blank.choices.set 0 ⟨some "Again", some "a.sc"⟩ }, .ok ()) := by
    rfl
  exact ⟨h, obeys_of_handle_editor h⟩

end Requests

end Engine

end VisualNovel

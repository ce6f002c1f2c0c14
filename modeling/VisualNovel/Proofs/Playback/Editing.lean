import VisualNovel.Proofs.Playback.Run
import VisualNovel.Proofs.Scenario.Parts
import VisualNovel.Proofs.Text.Blank

/-!
# Editing

Text that passes the checks of the editor is safe: it can stand anywhere in a block. So an
edit leaves storable scenes storable, whatever it changes, and as a refused edit changes
nothing, so does every sequence of edits with jumps, pauses and ticks between them.
-/

namespace VisualNovel

open Scenario MonadAttach LawfulMonadAttach

/-- Whether a call edits, pauses, or lets time pass. -/
def Call.IsEditing : Call → Prop
  | .handle (.editor _) _ => True
  | .handle .togglePause _ => True
  | .tick _ _ => True
  | _ => False

namespace Engine

/-- A text that passes the check has neither separators nor line breaks, and trimming it
leaves no reserved word. -/
theorem checkText_eq_ok {text : String} (h : checkText text = .ok ()) :
    (separator ∉ text.toList ∧ '\n' ∉ text.toList ∧ '\r' ∉ text.toList) ∧
      Text.trim text ∉ [absent, startMarker, endMarker] := by
  unfold checkText at h
  split at h
  · cases h
  · next hseparator =>
    split at h
    · cases h
    · next hbreak =>
      split at h
      · cases h
      · next hreserved =>
        refine ⟨⟨by simpa using hseparator, ?_, ?_⟩, by simpa using hreserved⟩
        · rintro hc
          exact hbreak (List.any_eq_true.mpr ⟨'\n', hc, rfl⟩)
        · rintro hc
          exact hbreak (List.any_eq_true.mpr ⟨'\r', hc, rfl⟩)

/-- What is kept of a checked text is safe. -/
theorem safe_some {text v : String} (h : checkText text = .ok ())
    (hsub : ∀ c ∈ v.toList, c ∈ text.toList) (hne : v ≠ "")
    (hreserved : v ∉ [absent, startMarker, endMarker]) : Safe (some v) := by
  obtain ⟨⟨hseparator, hfeed, hreturn⟩, _⟩ := checkText_eq_ok h
  simp only [List.mem_cons, List.not_mem_nil, or_false, not_or] at hreserved
  obtain ⟨habsent, hstart, hend⟩ := hreserved
  constructor
  · rintro _ ⟨⟩
    exact ⟨habsent, fun hc => hseparator (hsub _ hc), fun hc => hfeed (hsub _ hc)⟩
  · rintro _ ⟨⟩
    refine ⟨hne, fun hlast => hreturn (hsub _ ?_)⟩
    exact List.mem_of_getLast? hlast
  · rintro _ ⟨⟩
    exact ⟨hstart, hend⟩

/-- A checked text is safe when it is trimmed. -/
theorem safe_trimmedNonBlank {text : String} (h : checkText text = .ok ()) :
    Safe (Text.trimmedNonBlank text) := by
  cases hv : Text.trimmedNonBlank text with
  | none => exact safe_none
  | some v =>
    obtain rfl := Text.eq_of_trimmedNonBlank hv
    have hne := Text.ne_empty_of_trimmedNonBlank hv
    exact safe_some h (fun _ => Text.mem_of_mem_trim) hne (checkText_eq_ok h).2

/-- Trimming leaves every reserved word as it is. -/
theorem trim_reserved {v : String} (h : v ∈ [absent, startMarker, endMarker]) :
    Text.trim v = v := by
  simp only [List.mem_cons, List.not_mem_nil, or_false] at h
  rcases h with rfl | rfl | rfl <;> decide

/-- A checked text is safe as it is. -/
theorem safe_nonBlank {text : String} (h : checkText text = .ok ()) :
    Safe (Text.nonBlank text) := by
  cases hv : Text.nonBlank text with
  | none => exact safe_none
  | some v =>
    obtain ⟨rfl, hne⟩ := Text.eq_of_nonBlank hv
    refine safe_some h (fun _ hc => hc) hne fun hreserved => ?_
    have htrim := (checkText_eq_ok h).2
    rw [trim_reserved hreserved] at htrim
    exact htrim hreserved

variable {τ : Type} {e e' : Engine τ}

/-- An accepted change leaves a storable scene storable. -/
theorem Change.storableParts {s s' : Scene} {input : EditorInput} (hc : Change e s input s')
    (h : StorableParts e.settings.layout s) : StorableParts e.settings.layout s' := by
  cases hc with
  | @speakerLine slot text hcheck _ =>
    have hspeakers := Quartet.forall_mem_modify h.speakers
      (fun _ hp => hp.withLine (safe_nonBlank hcheck)) slot
    exact { h with speakers := hspeakers }
  | @speakerName slot name hcheck _ =>
    have hspeakers := Quartet.forall_mem_modify h.speakers
      (fun _ hp => hp.withName (safe_trimmedNonBlank hcheck)) slot
    exact { h with speakers := hspeakers }
  | mainLine hcheck => exact { h with mainLine := safe_nonBlank hcheck }
  | @choice index label target hlabel htarget _ _ =>
    have hnew : Choice.Storable ⟨Text.trimmedNonBlank label, Text.trimmedNonBlank target⟩ :=
      ⟨(safe_trimmedNonBlank hlabel).plain, (safe_trimmedNonBlank htarget).plain,
        (safe_trimmedNonBlank htarget).closed⟩
    have hchoices := Quartet.forall_mem_modify h.choices (fun _ _ => hnew) index
    exact { h with choices := hchoices }
  | background htexture =>
    obtain ⟨hcheck, rfl, _⟩ := checkTexture_eq_ok htexture
    exact { h with background := (safe_trimmedNonBlank hcheck).plain }
  | backgroundOverlay hadvanced htexture =>
    obtain ⟨hcheck, rfl, _⟩ := checkTexture_eq_ok htexture
    have hoverlays := (overlaysStorable_iff hadvanced s).mp h.overlays
    exact { h with
      overlays := (overlaysStorable_iff hadvanced _).mpr
        ⟨(safe_trimmedNonBlank hcheck).plain, hoverlays.2⟩ }
  | overlay hadvanced htexture =>
    obtain ⟨hcheck, rfl, _⟩ := checkTexture_eq_ok htexture
    have hoverlays := (overlaysStorable_iff hadvanced s).mp h.overlays
    exact { h with
      overlays := (overlaysStorable_iff hadvanced _).mpr
        ⟨hoverlays.1, safe_trimmedNonBlank hcheck⟩ }
  | music htrack =>
    obtain ⟨hcheck, rfl, _⟩ := checkTrack_eq_ok htrack
    exact { h with music := (safe_trimmedNonBlank hcheck).plain }
  | sound htrack =>
    obtain ⟨hcheck, rfl, _⟩ := checkTrack_eq_ok htrack
    have hsafe := safe_trimmedNonBlank hcheck
    exact { h with
      sound := hsafe.plain
      soundClosed := hsafe.closed }
  | @speakerTexture slot part name v hadvanced htexture _ =>
    obtain ⟨hcheck, rfl, _⟩ := checkTexture_eq_ok htexture
    have hspeakers := Quartet.forall_mem_modify h.speakers
      (fun _ hp => hp.setTexture (safe_trimmedNonBlank hcheck) hadvanced) slot
    exact { h with speakers := hspeakers }

/-- An engine with a layout in which all scenes that are edited are storable. -/
structure Savable (layout : Layout) (e : Engine τ) : Prop where
  layout_eq : e.settings.layout = layout
  storable : ∃ scenes, e.editingScenes = some scenes ∧ ∀ s ∈ scenes, Storable layout s

variable {layout : Layout}

/-- The scenes that are edited are those of the active entry. -/
theorem editingScenes_eq {k : Nat} {entry : Entry τ} (hactive : e.active = some k)
    (hentry : e.store.get? k = some entry) : e.editingScenes = some entry.scenes := by
  rw [editingScenes, activeEntry, hactive, Option.bind_some, hentry]
  rfl

/-- A change of the list of scenes that keeps them storable. -/
theorem Savable.modifyScenes (h : e.Savable layout) {k : Nat} {entry : Entry τ}
    (hactive : e.active = some k) (hentry : e.store.get? k = some entry)
    {f : List Scene → List Scene}
    (hf : (∀ s ∈ entry.scenes, Storable layout s) → ∀ s ∈ f entry.scenes, Storable layout s) :
    ({ e with store := e.store.modifyScenes k f } : Engine τ).Savable layout := by
  obtain ⟨hlayout, scenes, hs, hstorable⟩ := h
  rw [editingScenes_eq hactive hentry] at hs
  obtain rfl := Option.some.inj hs
  have hnew : ({ e with store := e.store.modifyScenes k f } : Engine τ).editingScenes =
      some (f entry.scenes) :=
    editingScenes_eq (e := { e with store := e.store.modifyScenes k f }) hactive
      (Store.get?_modifyScenes_self hentry f)
  exact ⟨hlayout, f entry.scenes, hnew, hf hstorable⟩

/-- An accepted edit keeps the scenes storable. -/
theorem Savable.edited (h : e.Savable layout) {i : Nat} {input : EditorInput}
    (he : Edited e i input e') : e'.Savable layout := by
  cases he with
  | jump _ => exact ⟨h.layout_eq, h.storable⟩
  | append hactive hentry =>
    refine h.modifyScenes hactive hentry fun hstorable => ?_
    simpa [or_imp, forall_and] using ⟨hstorable, storable_blank layout⟩
  | @duplicate k entry hactive hentry =>
    refine h.modifyScenes hactive hentry fun hstorable => ?_
    have hcopy : Storable layout (entry.scenes[i]?.getD .blank) := by
      cases hs : entry.scenes[i]? with
      | none => exact storable_blank layout
      | some s => exact hstorable s (List.mem_of_getElem? hs)
    simpa [or_imp, forall_and] using ⟨hstorable, hcopy⟩
  | remove hactive hentry _ =>
    have herased := h.modifyScenes hactive hentry (f := (·.eraseIdx i)) fun hstorable s hs =>
      hstorable s (List.mem_of_mem_eraseIdx hs)
    exact ⟨herased.layout_eq, herased.storable⟩
  | @change k entry s s' _ hactive hentry hs hchange =>
    refine h.modifyScenes hactive hentry fun hstorable t ht => ?_
    rcases List.mem_or_eq_of_mem_set ht with ht | rfl
    · exact hstorable t ht
    · have hparts : StorableParts e.settings.layout s := by
        rw [h.layout_eq]
        exact (hstorable s (List.mem_of_getElem? hs)).parts
      have hchanged := hchange.storableParts hparts
      rw [h.layout_eq] at hchanged
      exact hchanged.storable

/-- After every answer to an author all scenes can be saved. -/
theorem Savable.answers (h : e.Savable layout) {input : Input} {now : Nat}
    {result : Except Refusal Unit} (ha : Answers e input now (e', result))
    (hinput : (Call.handle input now).IsEditing) : e'.Savable layout := by
  cases ha with
  | refused _ => exact ⟨h.layout_eq, h.storable⟩
  | done haccepts =>
    cases haccepts with
    | togglePause _ => exact ⟨h.layout_eq, h.storable⟩
    | editor hedit =>
      obtain ⟨_, scenario, i, _, hedited⟩ := edited_of_edit hedit
      exact h.edited hedited
    | _ => cases hinput
  | unplayable haccepts _ _ => cases haccepts <;> cases hinput
  | entered haccepts _ _ _ _ => cases haccepts <;> cases hinput

section Run

variable {m : Type → Type} [Monad m] [LawfulMonad m] [MonadAttach m] [LawfulMonadAttach m]
  {source : Source m τ}

/-- Every such call keeps the scenes storable. -/
theorem Savable.call (h : e.Savable layout) {c : Call} (hediting : c.IsEditing)
    (hc : CanReturn (e.call source c) e') : e'.Savable layout := by
  cases c with
  | handle input now =>
    obtain ⟨result, hanswers⟩ := exists_answers_of_canReturn_call hc
    exact h.answers hanswers hediting
  | tick dt now =>
    obtain rfl := eq_of_canReturn_pure hc
    obtain ⟨reveal, history, recorded, htick⟩ := e.exists_fst_tick dt now
    rw [htick]
    exact ⟨h.layout_eq, h.storable⟩
  | rescan _ => cases hediting
  | setCatalog _ => cases hediting
  | takeReports => cases hediting

/-- A run of edits keeps the scenes storable. -/
theorem Savable.run (h : e.Savable layout) {calls : List Call}
    (hediting : ∀ c ∈ calls, c.IsEditing) (hrun : CanReturn (e.run source calls) e') :
    e'.Savable layout :=
  of_canReturn_run (fun c hc _ _ he hcall => he.call (hediting c hc) hcall) h hrun

end Run

end Engine

end VisualNovel

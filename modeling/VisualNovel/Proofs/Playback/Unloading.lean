import VisualNovel.Proofs.Playback.Overlooked
import VisualNovel.Proofs.Playback.Steady

/-!
# Unloading

What was loaded may be let go at any time. The scenario that is being played is loaded again
at once, together with the one whose textures count, and every other scenario before anything
of it is needed. As the source gives the same again, neither an answer nor a frame tells
whether anything was unloaded; the store and the reports of loads alone do.
-/

namespace VisualNovel.Engine

variable {τ : Type} {source : Source Id τ} {settings : Settings} {ds : List Descriptor}
  {e e' e₁ e₂ : Engine τ}

/-- What is asked of an engine from which things may be unloaded. -/
inductive Demand where
  | handle (input : Input) (now : Nat)
  | tick (dt : Float32) (now : Nat)
  | rescan (ds : List Descriptor)

/-- What comes back. -/
inductive Reply where
  | answer (result : Except Refusal Unit)
  | frame (frame : Frame)

/-- The reply to a demand, and the engine after it. -/
def reply (source : Source Id τ) (e : Engine τ) : Demand → Reply × Engine τ
  | .handle input now =>
    let (e', result) := (e.handle source now input).run
    (.answer result, e')
  | .tick dt now =>
    let (e', frame) := e.tick dt now
    (.frame frame, e')
  | .rescan ds =>
    match e.rescan ds with
    | .ok e' => (.answer (.ok ()), e')
    | .error reason => (.answer (.error reason), e)

/-- The reply to a demand; where nothing is demanded, everything is unloaded. -/
def replyOrUnload (source : Source Id τ) (e : Engine τ) :
    Option Demand → Id (Option Reply × Engine τ)
  | some d => pure (some (e.reply source d).1, (e.reply source d).2)
  | none => pure (none, (e.unloadAll source).run)

/-- The replies to some demands, and the engine after them. -/
def replies (source : Source Id τ) (steps : List (Option Demand)) (e : Engine τ) :
    List (Option Reply) × Engine τ :=
  (traced (replyOrUnload source) steps e).run

theorem replies_some (d : Demand) (steps : List (Option Demand)) :
    e.replies source (some d :: steps) =
      (some (e.reply source d).1 :: ((e.reply source d).2.replies source steps).1,
        ((e.reply source d).2.replies source steps).2) := rfl

/-- The engine with another store, as loads have left it. -/
def restock (e : Engine τ) (store : Store τ) (reports : List (String × LoadReport)) : Engine τ :=
  { e with store, reports }

/-- What is being played is loaded again. -/
theorem unloadAll_of_active {k : Nat} (h : e.active = some k) (source : Source Id τ) :
    (e.unloadAll source).run =
      ((e.restock e.store.unloadAll e.reports).load source k).run := by
  rw [unloadAll]
  split
  · next index hindex =>
    obtain rfl := Option.some.inj (hindex.symm.trans h)
    rfl
  · next hnone =>
    rw [show e.active = none from hnone] at h
    cases h

/-- While nothing is played all entries are unloaded. -/
theorem unloadAll_of_inactive (h : e.active = none) (source : Source Id τ) :
    (e.unloadAll source).run = e.restock e.store.unloadAll e.reports := by
  rw [unloadAll]
  split
  · next index hindex =>
    rw [show e.active = some index from hindex] at h
    cases h
  · rfl

/-- Unloading touches the store and the reports alone. -/
theorem exists_unloadAll (source : Source Id τ) (e : Engine τ) :
    ∃ store reports, (e.unloadAll source).run = e.restock store reports := by
  cases hactive : e.active with
  | none => exact ⟨_, _, unloadAll_of_inactive hactive source⟩
  | some k =>
    obtain ⟨hloads, _⟩ := loads_load source k (e.restock e.store.unloadAll e.reports)
    exact ⟨_, _, (unloadAll_of_active hactive source).trans hloads.rest⟩

/-- A scenario that is being played may be held in another store. -/
theorem Held.restock {scenario : String} {scene k : Nat} {entry : Entry τ}
    (h : e.Held scenario scene k entry) {s : Store τ}
    (hsame : s.descriptors = e.store.descriptors) (hpresent : s.get? k = some entry)
    (hshared : e.settings.lookup = .shared → ∀ i ∈ s.findIndex? sharedScenario, s.Ready i)
    (reports : List (String × LoadReport)) : (e.restock s reports).Held scenario scene k entry where
  active := h.active
  listed := (Store.findIndex?_congr hsame scenario).trans h.listed
  present := hpresent
  loaded := h.loaded
  scene_lt := h.scene_lt
  named := h.named
  shared := hshared
  visited := h.visited

/-- Scenarios that were let go are as if they had never been loaded. -/
theorem sourced_unloadAll (source : Source Id τ) (layout : Layout) (s : Store τ) :
    s.unloadAll.Sourced source layout := by
  intro i entry hentry
  have hmem : entry ∈ s.entries.map Entry.unload := List.mem_of_getElem? hentry
  obtain ⟨other, _, rfl⟩ := List.mem_map.mp hmem
  exact Or.inl rfl

/-- Unloading leaves which scenarios there are. -/
theorem descriptors_unloadAll (s : Store τ) : s.unloadAll.descriptors = s.descriptors := by
  simp [Store.unloadAll, Store.descriptors, Entry.unload, Entry.ofDescriptor, Entry.ofListing,
    Listing.found]

/-- While a scenario is played the scenarios are not looked for again. -/
theorem rescan_of_isPlaying (h : e.state.isPlaying = true) (ds : List Descriptor) :
    e.rescan ds = .error (e.mismatch "MainMenu") := by
  rw [rescan, rescanListed, if_pos h]

/-- While nothing is played the scenarios are looked for again. -/
theorem rescan_of_not_isPlaying (h : e.state.isPlaying = false) (ds : List Descriptor) :
    e.rescan ds = .ok (e.restock (.ofDescriptors ds) e.reports) := by
  rw [rescan, rescanListed, if_neg (Bool.eq_false_iff.mp h)]
  rfl

namespace Steady

/-- An engine is steady with the scenarios that were found again. -/
theorem rescan (h : Steady source settings ds e) {ds' : List Descriptor}
    (hrescan : e.rescan ds' = .ok e') : Steady source settings ds' e' := by
  have hstore : e' = e.restock (.ofDescriptors ds') e.reports := by
    cases hplaying : e.state.isPlaying with
    | true =>
      rw [rescan_of_isPlaying hplaying] at hrescan
      cases hrescan
    | false =>
      rw [rescan_of_not_isPlaying hplaying] at hrescan
      exact (Except.ok.inj hrescan).symm
  have hcoherent := h.coherent.rescanListed hrescan
  have hstart := Steady.start source settings ds'
  rw [hstore] at hcoherent ⊢
  exact ⟨h.settings_eq, hstart.descriptors_eq, hstart.sourced, hcoherent⟩

/-- A scenario that is loaded again is the same again. -/
theorem unloadAll (h : Steady source settings ds e) :
    Steady source settings ds (e.unloadAll source).run := by
  have hdescriptors := (descriptors_unloadAll e.store).trans h.descriptors_eq
  have hsourced := sourced_unloadAll source e.settings.layout e.store
  cases hplaying : e.state.isPlaying with
  | false =>
    have hidle := h.coherent.idle hplaying
    rw [h.settings_eq] at hsourced
    rw [unloadAll_of_inactive hidle.inactive]
    exact ⟨h.settings_eq, hdescriptors, hsourced, Idle.coherent { hidle with } hplaying⟩
  | true =>
    obtain ⟨scenario, scene, hs⟩ := exists_playing hplaying
    obtain ⟨k, entry, hheld⟩ := h.coherent.held hs
    rw [unloadAll_of_active hheld.active]
    obtain ⟨hloads, hready, hshared⟩ := loads_of_canReturn_load
      (canReturn_run ((e.restock e.store.unloadAll e.reports).load source k))
    have hagain : ((e.restock e.store.unloadAll e.reports).load source k).run.store.Sourced source
        settings.layout := h.settings_eq ▸ sourced_load hsourced k
    generalize ((e.restock e.store.unloadAll e.reports).load source k).run = again at *
    have hrest : again = e.restock again.store again.reports := hloads.rest
    replace hdescriptors : again.store.descriptors = ds := hloads.descriptors_eq.trans hdescriptors
    have hpresent : again.store.get? k = some entry :=
      h.sourced.get?_eq hagain (h.descriptors_eq.trans hdescriptors.symm) hheld.present
        hheld.loaded hready
    have hsharedAgain : e.settings.lookup = .shared →
        ∀ i ∈ again.store.findIndex? sharedScenario, again.store.Ready i := by
      intro hlookup i hi
      apply hshared
      rw [hloads.findIndex?_eq] at hi
      change i ∈ e.settings.lookup.scenario? e.store.unloadAll (some k)
      rwa [hlookup]
    have hheldAgain := hheld.restock (hdescriptors.trans h.descriptors_eq.symm) hpresent
      hsharedAgain again.reports
    rw [hrest]
    exact ⟨h.settings_eq, hdescriptors, hagain, hheldAgain.coherent hs⟩

end Steady

/-- A scenario that two stores have alike is entered alike. -/
theorem enterLoaded_restock {s : Store τ} {entrance : Entrance}
    (h : s.get? entrance.index = e.store.get? entrance.index)
    (reports : List (String × LoadReport)) (now : Nat) :
    (e.restock s reports).enterLoaded now entrance =
      (e.enterLoaded now entrance).map (·.restock s reports) := by
  have hentry : (e.restock s reports).store.get? entrance.index =
      e.store.get? entrance.index := h
  rw [enterLoaded_eq, enterLoaded_eq, hentry]
  cases grantEntry (e.store.get? entrance.index) entrance.scene with
  | error reason => rfl
  | ok _ =>
    simp only [Except.map, enter, restock, h]
    cases entrance <;> rfl

/-- Another store does not change how an answer is settled. -/
theorem settle_restock (s : Store τ) (reports : List (String × LoadReport))
    (answer : Except Refusal (Engine τ)) :
    (e.restock s reports).settle (answer.map (·.restock s reports)) =
      ((e.settle answer).1.restock s reports, (e.settle answer).2) := by
  cases answer <;> rfl

/-- Another store does not change how a text appears. -/
theorem revealText_restock (e : Engine τ) (s : Store τ) (reports : List (String × LoadReport))
    (dt : Float32) (d : Dialogue) :
    (e.restock s reports).revealText dt d = (e.revealText dt d).restock s reports := by
  cases hanimated : e.settings.animated with
  | true => simp only [revealText, restock, hanimated, if_true]
  | false => simp only [revealText, restock, hanimated, Bool.false_eq_true, if_false]

/-- Another store does not change what is recorded. -/
theorem recordDialogue_restock (e : Engine τ) (s : Store τ)
    (reports : List (String × LoadReport)) (now : Nat) (d : Dialogue) :
    (e.restock s reports).recordDialogue now d = (e.recordDialogue now d).restock s reports := by
  by_cases hnew : (!e.recorded && d.banner != "" && d.text != "") = true
  · simp only [recordDialogue, restock, hnew, if_true]
  · simp only [recordDialogue, restock, hnew, Bool.false_eq_true, if_false]

/-- Another store does not change the frame of a scene. -/
theorem sceneFrame_restock {s : Store τ} {reports : List (String × LoadReport)}
    (h : (e.restock s reports).choicesOpen = e.choicesOpen) (scene : Scene) (d : Dialogue) :
    (e.restock s reports).sceneFrame scene d = e.sceneFrame scene d := by
  simp only [sceneFrame, h]
  rfl

/-- A scene that two stores have alike is shown alike. -/
theorem tick_restock {s : Store τ} {reports : List (String × LoadReport)}
    (h : (e.restock s reports).currentScene = e.currentScene) (dt : Float32) (now : Nat) :
    (e.restock s reports).tick dt now =
      ((e.tick dt now).1.restock s reports, (e.tick dt now).2) := by
  have hopen : ((e.tick dt now).1.restock s reports).choicesOpen =
      (e.tick dt now).1.choicesOpen := by
    obtain ⟨reveal, history, recorded, htick⟩ := e.exists_fst_tick dt now
    rw [htick]
    exact congrArg (fun scene => !e.paused && Option.any Scene.hasChoices scene) h
  cases hscene : e.currentScene with
  | none =>
    rw [tick, tick, h, hscene]
    rfl
  | some scene =>
    rw [tick, hscene] at hopen
    have hplayer : (e.restock s reports).player = e.player := rfl
    rw [tick, tick, h, hscene, hplayer]
    dsimp only at hopen ⊢
    rw [revealText_restock, recordDialogue_restock, sceneFrame_restock hopen]

/-- Two engines over the same source that differ in nothing but what is loaded. -/
structure Counterpart (source : Source Id τ) (settings : Settings) (ds : List Descriptor)
    (e₁ e₂ : Engine τ) : Prop where
  left : Steady source settings ds e₁
  right : Steady source settings ds e₂
  restocked : e₂ = e₁.restock e₂.store e₂.reports

namespace Counterpart

/-- Two steady engines that differ in their stores only are counterparts. -/
theorem of_restock {s : Store τ} {r : List (String × LoadReport)}
    (h₁ : Steady source settings ds e₁) (h₂ : Steady source settings ds e₂)
    (h : e₂ = e₁.restock s r) : Counterpart source settings ds e₁ e₂ := by
  refine ⟨h₁, h₂, ?_⟩
  rw [h]
  rfl

variable (h : Counterpart source settings ds e₁ e₂)
include h

theorem state_eq : e₂.state = e₁.state := by
  rw [h.restocked]
  rfl

theorem active_eq : e₂.active = e₁.active := by
  rw [h.restocked]
  rfl

theorem descriptors_eq : e₁.store.descriptors = e₂.store.descriptors :=
  h.left.descriptors_eq.trans h.right.descriptors_eq.symm

theorem findIndex?_eq (fileName : String) :
    e₂.store.findIndex? fileName = e₁.store.findIndex? fileName :=
  Store.findIndex?_congr h.descriptors_eq.symm fileName

/-- What both have loaded is the same in both. -/
theorem get?_eq {i : Nat} (hready : e₁.store.Ready i) (hready' : e₂.store.Ready i) :
    e₂.store.get? i = e₁.store.get? i :=
  h.left.sourced.get?_congr h.right.sourced h.descriptors_eq hready hready'

/-- The scenario that is being played is loaded in both. -/
theorem exists_held {scenario : String} {scene : Nat} (hs : e₁.state = .playing scenario scene) :
    ∃ k entry, e₁.Held scenario scene k entry ∧ e₂.Held scenario scene k entry := by
  obtain ⟨k, entry, hheld⟩ := h.left.coherent.held hs
  obtain ⟨k', entry', hheld'⟩ := h.right.coherent.held (h.state_eq.trans hs)
  obtain rfl : k' = k :=
    Option.some.inj ((hheld'.active.symm.trans h.active_eq).trans hheld.active)
  have hready' : e₂.store.Ready k' := by
    intro other hother
    rw [Option.some.inj (hother.symm.trans hheld'.present)]
    exact hheld'.loaded
  have hsame := h.left.get?_eq h.right hheld.present hheld.loaded hready'
  obtain rfl := Option.some.inj (hheld'.present.symm.trans hsame)
  exact ⟨k', entry', hheld, hheld'⟩

/-- Counterparts play the same entry. -/
theorem activeEntry_eq : e₂.activeEntry = e₁.activeEntry := by
  cases hplaying : e₁.state.isPlaying with
  | true =>
    obtain ⟨scenario, scene, hs⟩ := exists_playing hplaying
    obtain ⟨k, entry, hheld, hheld'⟩ := h.exists_held hs
    rw [activeEntry, activeEntry, hheld.active, hheld'.active, Option.bind_some, Option.bind_some,
      hheld.present, hheld'.present]
  | false =>
    rw [activeEntry, activeEntry, h.active_eq, (h.left.coherent.idle hplaying).inactive]
    rfl

/-- Counterparts are in the same scene. -/
theorem currentScene_eq : e₂.currentScene = e₁.currentScene := by
  rw [currentScene, currentScene, h.state_eq, h.activeEntry_eq]

/-- Counterparts have the same menu open. -/
theorem choicesOpen_eq : e₂.choicesOpen = e₁.choicesOpen := by
  have hpaused : e₂.paused = e₁.paused := by
    rw [h.restocked]
    rfl
  rw [choicesOpen, choicesOpen, hpaused, h.currentScene_eq]

/-- Nothing that differs is looked at by a plan. -/
theorem overlooked (hediting : settings.editing = false) :
    Overlooked (·.restock e₂.store e₂.reports) e₁ where
  editing_eq := rfl
  lookup_eq := rfl
  state_eq := rfl
  paused_eq := rfl
  findIndex?_eq := h.findIndex?_eq
  currentScene_eq := h.restocked ▸ h.currentScene_eq
  activeScenes_eq := by
    rw [← h.restocked, activeScenes, activeScenes, h.activeEntry_eq]
  goToMenu _ := rfl
  moveTo _ := rfl
  pause _ := rfl
  exit := rfl
  edit input := by
    rw [← h.left.settings_eq] at hediting
    simp only [edit, restock, hediting]
    rfl

/-- Textures are those of a scenario that is loaded in both. -/
theorem texture?_eq (hplaying : e₁.state.isPlaying = true) (name : Option String) :
    e₂.texture? name = e₁.texture? name := by
  obtain ⟨scenario, scene, hs⟩ := exists_playing hplaying
  obtain ⟨k, entry, hheld, hheld'⟩ := h.exists_held hs
  have hlookup : e₂.settings.lookup = e₁.settings.lookup := by
    rw [h.left.settings_eq, h.right.settings_eq]
  have hcounts : e₂.settings.lookup.scenario? e₂.store e₂.active =
      e₁.settings.lookup.scenario? e₁.store e₁.active := by
    rw [hlookup, h.active_eq]
    cases e₁.settings.lookup with
    | perScenario => rfl
    | shared => exact h.findIndex?_eq sharedScenario
  have hsame : ∀ i ∈ e₁.settings.lookup.scenario? e₁.store e₁.active,
      e₂.store.get? i = e₁.store.get? i := by
    intro i hi
    cases hl : e₁.settings.lookup with
    | perScenario =>
      rw [hl, TextureLookup.scenario?, hheld.active] at hi
      obtain rfl := Option.some.inj hi
      exact hheld'.present.trans hheld.present.symm
    | shared =>
      rw [hl, TextureLookup.scenario?] at hi
      have hready := hheld.shared hl i hi
      rw [← h.findIndex?_eq] at hi
      exact h.get?_eq hready (hheld'.shared (hlookup.trans hl) i hi)
  rw [texture?, texture?, TextureLookup.texture?, TextureLookup.texture?, hcounts]
  cases name with
  | none => rfl
  | some name =>
    cases hi : e₁.settings.lookup.scenario? e₁.store e₁.active with
    | none => rfl
    | some i =>
      simp only [Option.bind_eq_bind, Option.bind_some]
      rw [hsame i hi]

/-- Counterparts have the same of a text left to appear. -/
theorem textComplete_eq : e₂.textComplete = e₁.textComplete := by
  have hdialogue : e₂.dialogue? = e₁.dialogue? := by
    rw [dialogue?, dialogue?, h.currentScene_eq, h.restocked]
    rfl
  rw [textComplete, textComplete, hdialogue, h.restocked]
  rfl

/-- Both load what is to be entered, and then have it alike. -/
theorem load (index : Nat) :
    Counterpart source settings ds (e₁.load source index).run (e₂.load source index).run ∧
      (e₂.load source index).run.store.get? index =
        (e₁.load source index).run.store.get? index := by
  obtain ⟨hloads₁, hready₁⟩ := loads_load source index e₁
  obtain ⟨hloads₂, hready₂⟩ := loads_load source index e₂
  have hloaded : Counterpart source settings ds (e₁.load source index).run
      (e₂.load source index).run := by
    refine .of_restock (h.left.load index) (h.right.load index) ?_
      (s := (e₂.load source index).run.store) (r := (e₂.load source index).run.reports)
    rw [hloads₂.rest, hloads₁.rest, h.restocked]
    rfl
  exact ⟨hloaded, hloaded.get?_eq hready₁ hready₂⟩

/-- An input is answered alike. -/
theorem exists_handle (hediting : settings.editing = false) (now : Nat) (input : Input) :
    ∃ store reports, (e₂.handle source now input).run =
      ((e₁.handle source now input).run.1.restock store reports,
        (e₁.handle source now input).run.2) := by
  have hplan : e₂.plan input =
      (e₁.plan input).map (Plan.map (·.restock e₂.store e₂.reports)) := by
    rw [← (h.overlooked hediting).plan input, ← h.restocked]
  rw [handle, handle, hplan]
  cases e₁.plan input with
  | error reason =>
    refine ⟨e₂.store, e₂.reports, ?_⟩
    simp only [Except.map]
    rw [h.restocked]
    rfl
  | ok p =>
    cases p with
    | done e => exact ⟨e₂.store, e₂.reports, rfl⟩
    | enter entrance =>
      obtain ⟨hloaded, hentry⟩ := h.load entrance.index
      have hentered :=
        enterLoaded_restock hentry (e₂.load source entrance.index).run.reports now
      rw [← hloaded.restocked] at hentered
      have hsettled := settle_restock (e := (e₁.load source entrance.index).run)
        (e₂.load source entrance.index).run.store (e₂.load source entrance.index).run.reports
        ((e₁.load source entrance.index).run.enterLoaded now entrance)
      rw [← hentered, ← hloaded.restocked] at hsettled
      exact ⟨_, _, hsettled⟩

/-- A demand is met alike. -/
theorem reply (hediting : settings.editing = false) (d : Demand) :
    (e₂.reply source d).1 = (e₁.reply source d).1 ∧
      ∃ ds', Counterpart source settings ds' (e₁.reply source d).2 (e₂.reply source d).2 := by
  cases d with
  | handle input now =>
    obtain ⟨store, reports, hhandle⟩ := h.exists_handle hediting now input
    have hanswer : (e₂.handle source now input).run.2 = (e₁.handle source now input).run.2 := by
      rw [hhandle]
    have hengine := congrArg Prod.fst hhandle
    exact ⟨congrArg Reply.answer hanswer, ds,
      of_restock (h.left.handle hediting now input) (h.right.handle hediting now input) hengine⟩
  | tick dt now =>
    have htick := tick_restock (h.restocked ▸ h.currentScene_eq) dt now
    rw [← h.restocked] at htick
    have hframe : (e₂.tick dt now).2 = (e₁.tick dt now).2 := by rw [htick]
    have hengine := congrArg Prod.fst htick
    exact ⟨congrArg Reply.frame hframe, ds,
      of_restock (h.left.tick dt now) (h.right.tick dt now) hengine⟩
  | rescan ds' =>
    rw [Engine.reply, Engine.reply]
    cases hplaying : e₁.state.isPlaying with
    | true =>
      have hplaying' : e₂.state.isPlaying = true := by rw [h.state_eq, hplaying]
      rw [rescan_of_isPlaying hplaying, rescan_of_isPlaying hplaying', mismatch, mismatch,
        h.state_eq]
      exact ⟨rfl, ds, h⟩
    | false =>
      have hplaying' : e₂.state.isPlaying = false := by rw [h.state_eq, hplaying]
      have hrescan₁ := rescan_of_not_isPlaying hplaying ds'
      have hrescan₂ := rescan_of_not_isPlaying hplaying' ds'
      rw [hrescan₁, hrescan₂]
      refine ⟨rfl, ds', of_restock (h.left.rescan hrescan₁) (h.right.rescan hrescan₂)
        (s := .ofDescriptors ds') (r := e₂.reports) ?_⟩
      rw [h.restocked]
      rfl

/-- Whatever was unloaded in between, the same demands are met alike. -/
theorem replies (hediting : settings.editing = false) (steps : List (Option Demand)) :
    (e₂.replies source steps).1.filter Option.isSome =
        (e₁.replies source (steps.filter Option.isSome)).1 ∧
      ∃ ds', Counterpart source settings ds' (e₁.replies source (steps.filter Option.isSome)).2
        (e₂.replies source steps).2 := by
  induction steps generalizing ds e₁ e₂ with
  | nil => exact ⟨rfl, ds, h⟩
  | cons step steps ih =>
    cases step with
    | none =>
      obtain ⟨store, reports, hunloaded⟩ := exists_unloadAll source e₂
      have hsame : (e₂.unloadAll source).run = e₁.restock store reports := by
        rw [hunloaded, h.restocked]
        rfl
      exact ih (of_restock h.left h.right.unloadAll hsame)
    | some d =>
      obtain ⟨hreply, ds', hafter⟩ := h.reply hediting d
      obtain ⟨hreplies, hrest⟩ := ih hafter
      refine ⟨?_, hrest⟩
      rw [List.filter_cons_of_pos rfl, replies_some, replies_some,
        List.filter_cons_of_pos rfl, hreply, hreplies]

end Counterpart

/-- In a game that is not edited and whose source does not change its answers, it makes no
difference when and how often everything is unloaded: the inputs and the searches for other
scenarios have the same results, the clock shows the same frames, and the engine is the same
in the end, but for its store and the reports of loads; and while a scenario is being played,
textures, the current scene, the menu of choices and the text are the same as well. -/
theorem replies_filter_isSome (source : Source Id τ) (settings : Settings)
    (hediting : settings.editing = false) (ds : List Descriptor) (steps : List (Option Demand)) :
    let plain := (start settings ds).replies source (steps.filter Option.isSome)
    let unloaded := (start settings ds).replies source steps
    unloaded.1.filter Option.isSome = plain.1 ∧
      unloaded.2 =
        { plain.2 with store := unloaded.2.store, reports := unloaded.2.reports } ∧
      (plain.2.state.isPlaying = true →
        (∀ name, unloaded.2.texture? name = plain.2.texture? name) ∧
          unloaded.2.currentScene = plain.2.currentScene ∧
          unloaded.2.choicesOpen = plain.2.choicesOpen ∧
          unloaded.2.textComplete = plain.2.textComplete) := by
  intro plain unloaded
  have hstart : Steady source settings ds (start settings ds) := .start source settings ds
  obtain ⟨hreplies, ds', h⟩ :=
    (Counterpart.of_restock hstart hstart rfl (r := [])).replies hediting steps
  exact ⟨hreplies, h.restocked, fun hplaying => ⟨h.texture?_eq hplaying, h.currentScene_eq,
    h.choicesOpen_eq, h.textComplete_eq⟩⟩

/-- A source of scenarios with one scene each, which offers a way to a scenario that can be
read and one to a scenario that cannot. The first of them has the textures of the game. -/
def hallSource : Source Id String where
  text d := pure (if d.fileName = "lost.sc" then .error "unreadable"
    else .ok "[scene_start]\nhall:b:c\nBo::Hi\n\n\n\n\nOn:next.sc\nBack:lost.sc\n[scene_end]")
  textures d := pure (if d.fileName = sharedScenario then .ok [("hall", "hall.png")] else .ok [])

/-- A game that goes on to the next scenario after a choice that was refused, and from which
everything is unloaded after each step. -/
def hallSteps : List (Option Demand) :=
  [.handle .openScenarioSelect 0, .handle (.startNewGame none "Ann") 0, .tick 0 1,
    .handle (.activateChoice 1) 2, .handle (.activateChoice 0) 3, .tick 0 4].flatMap
      fun d => [some d, none]

/-- The replies of a game with shared textures, and the game after them. -/
def hallGame (steps : List (Option Demand)) : List (Option Reply) × Engine String :=
  (start ⟨.simple, .shared, false, false, Settings.defaultSpeed⟩
    (["lost.sc", sharedScenario, "next.sc"].map fun name =>
      ⟨name, name, "textures", "sounds"⟩)).replies hallSource steps

/-- The game is in the next scenario, with the textures of the first one. -/
theorem replies_filter_isSome_hallSteps :
    (hallGame hallSteps).1.filter Option.isSome =
        (hallGame (hallSteps.filter Option.isSome)).1 ∧
      (hallGame (hallSteps.filter Option.isSome)).2.state = .playing "next.sc" 0 ∧
        (hallGame hallSteps).2.texture? (some "hall") = some "hall.png" := by
  obtain ⟨hreplies, _, hsame⟩ := replies_filter_isSome hallSource
    ⟨.simple, .shared, false, false, Settings.defaultSpeed⟩ rfl
    (["lost.sc", sharedScenario, "next.sc"].map fun name => ⟨name, name, "textures", "sounds"⟩)
    hallSteps
  rw [← hallGame, ← hallGame] at hreplies hsame
  have hstate : (hallGame (hallSteps.filter Option.isSome)).2.state = .playing "next.sc" 0 := by
    decide +kernel
  have htexture : (hallGame (hallSteps.filter Option.isSome)).2.texture? (some "hall") =
      some "hall.png" := by decide +kernel
  rw [hstate] at hsame
  obtain ⟨htextures, _⟩ := hsame rfl
  exact ⟨hreplies, hstate, (htextures (some "hall")).trans htexture⟩

end VisualNovel.Engine

import VisualNovel.Proofs.Playback.Run
import VisualNovel.Proofs.Store.LoadedOnce

/-!
# Reports of loads

An engine loads scenarios on the way and keeps a report of each load until the reports are
taken. Whatever is asked of it and whatever its source answers, the reports that are taken are
those of the loads that were made, each of them once and in order: nothing is loaded without a
report, and nothing is reported that was not loaded.
-/

namespace VisualNovel

open MonadAttach LawfulMonadAttach

/-- What an effect with a state can give from some state is what it can return. -/
theorem canReturn_of_run {m : Type → Type} [Monad m] [MonadAttach m] {σ α : Type}
    {x : StateT σ m α} {s s' : σ} {a : α} (h : CanReturn (x.run s) (a, s')) : CanReturn x a :=
  ⟨s, s', h⟩

/-- The report of a load as an engine keeps it. -/
def Load.notice {τ : Type} (layout : Layout) (l : Load τ) : String × LoadReport :=
  (l.descriptor.fileName, l.report layout)

namespace Engine

variable {τ : Type} {e e' e₁ : Engine τ}

/-- Nothing is there of scenarios that are not loaded, and the one that is being played is
loaded, if there is one. -/
structure Tidy (e : Engine τ) : Prop where
  fresh : e.store.Fresh
  ready : ∀ k ∈ e.active, e.store.Ready k
  idle : e.state.isPlaying = false → e.active = none

/-- Loads leave nothing of scenarios that are not loaded. -/
theorem Loads.fresh (h : Loads e e₁) (hfresh : e.store.Fresh) : e₁.store.Fresh := by
  induction h with
  | refl => exact hfresh
  | step _ present _ textures text ih => exact ih.set present (Entry.loaded_take _ _ _ _)

namespace Tidy

/-- Loads leave an engine tidy. -/
theorem loads (h : e.Tidy) (hl : Loads e e₁) : e₁.Tidy where
  fresh := hl.fresh h.fresh
  ready := by
    rw [hl.active_eq]
    exact fun k hk => hl.ready (h.ready k hk)
  idle := by
    rw [hl.state_eq, hl.active_eq]
    exact h.idle

/-- Only the store and what is being played matter. -/
theorem of_eq (h : e.Tidy) (hstore : e'.store = e.store) (hactive : e'.active = e.active)
    (hplaying : e'.state.isPlaying = e.state.isPlaying) : e'.Tidy where
  fresh := hstore ▸ h.fresh
  ready := by
    rw [hstore, hactive]
    exact h.ready
  idle := by
    rw [hplaying, hactive]
    exact h.idle

/-- While nothing is being played, only the store matters. -/
theorem of_inactive (hactive : e.active = none) (hfresh : e.store.Fresh) : e.Tidy where
  fresh := hfresh
  ready := by simp [hactive]
  idle _ := hactive

/-- A move to another scene leaves an engine tidy. -/
theorem moveTo (h : e.Tidy) (scene : Nat) : (e.moveTo scene).Tidy := by
  refine h.of_eq rfl rfl ?_
  simp only [Engine.moveTo, resetVisit]
  cases e.state <;> rfl

/-- A step leaves an engine tidy. -/
theorem stepForward (h : e.Tidy) : e.stepForward.Tidy := by
  rcases e.exists_stepForward with hstay | ⟨scene, hmove⟩
  · rwa [hstay]
  · rw [hmove]
    exact h.moveTo scene

/-- From one menu to another an engine stays tidy. -/
theorem goToMenu (h : e.Tidy) (hs : e.state.isPlaying = false) (state : State) :
    (e.goToMenu state).Tidy :=
  of_inactive (h.idle hs) h.fresh

/-- A change of the scenario that is being played. -/
theorem modifyScenes (h : e.Tidy) {k : Nat} {entry : Entry τ} (hactive : e.active = some k)
    (hentry : e.store.get? k = some entry) (f : List Scene → List Scene) :
    ({ e with store := e.store.modifyScenes k f } : Engine τ).Tidy where
  fresh := h.fresh.modifyScenes hentry (h.ready k hactive entry hentry) f
  ready j hj := (h.ready j hj).modifyScenes hentry f
  idle := h.idle

/-- An accepted edit leaves an engine tidy. -/
theorem edited (h : e.Tidy) {i : Nat} {input : EditorInput} (he : Edited e i input e') :
    e'.Tidy := by
  cases he with
  | jump _ => exact h.moveTo _
  | append hactive hentry => exact h.modifyScenes hactive hentry _
  | duplicate hactive hentry => exact h.modifyScenes hactive hentry _
  | remove hactive hentry _ => exact (h.modifyScenes hactive hentry _).moveTo i
  | change hactive hentry _ _ => exact h.modifyScenes hactive hentry _

/-- An input that is accepted and enters nothing leaves an engine tidy. -/
theorem accepts (h : e.Tidy) {input : Input} (ha : Accepts e input (.done e')) : e'.Tidy := by
  cases ha with
  | openScenarioSelect hs => exact h.goToMenu (by simp [hs, State.isPlaying]) _
  | openSaveSelect hs => exact h.goToMenu (by simp [hs, State.isPlaying]) _
  | back hs => exact h.goToMenu (by rcases hs with hs | hs <;> simp [hs, State.isPlaying]) _
  | wait _ _ => exact h
  | advance _ _ => exact h.stepForward
  | choose _ _ _ _ =>
    split
    · exact h
    · exact h.stepForward
  | togglePause _ => exact h.of_eq rfl rfl rfl
  | exitToMainMenu => exact of_inactive rfl h.fresh
  | editor hedit =>
    obtain ⟨_, _, _, _, hedited⟩ := edited_of_edit hedit
    exact h.edited hedited

/-- Every answer leaves an engine tidy. -/
theorem answers (h : e.Tidy) {input : Input} {now : Nat} {result : Except Refusal Unit}
    (ha : Answers e input now (e', result)) : e'.Tidy := by
  cases ha with
  | refused _ => exact h.of_eq rfl rfl rfl
  | done haccepts => exact h.accepts haccepts
  | unplayable _ hloads _ => exact (h.loads hloads).of_eq rfl rfl rfl
  | entered _ hloads hready _ hentered =>
    obtain ⟨_, _, _, rfl⟩ := enterLoaded_eq_ok hentered
    refine ⟨hloads.fresh h.fresh, ?_, fun hmenu => ?_⟩
    · rintro k ⟨⟩
      exact hready
    · cases hmenu

/-- A tick leaves an engine tidy. -/
theorem tick (h : e.Tidy) (dt : Float32) (now : Nat) : (e.tick dt now).1.Tidy := by
  obtain ⟨reveal, history, recorded, htick⟩ := e.exists_fst_tick dt now
  rw [htick]
  exact h.of_eq rfl rfl rfl

/-- Looking for scenarios again leaves an engine tidy. -/
theorem rescanListed (h : e.Tidy) {ls : List Listing} (hrescan : e.rescanListed ls = .ok e') :
    e'.Tidy := by
  rw [Engine.rescanListed] at hrescan
  split at hrescan
  · cases hrescan
  · next hplaying =>
    cases hrescan
    exact of_inactive (h.idle (Bool.eq_false_iff.mpr hplaying)) (Store.fresh_ofListings ls)

end Tidy

/-- What an engine can be asked, and to let go of all that it has loaded. -/
inductive Errand where
  | call (c : Call)
  | unloadAll

/-- What came of an errand: what the source was asked, and the reports that were taken. -/
structure Receipt (τ : Type) where
  asked : List (Inquiry τ)
  taken : List (String × LoadReport)

section Errands

variable {m : Type → Type} [Monad m]

/-- The engine after an errand. -/
def errand (source : Source m τ) (e : Engine τ) : Errand → m (Engine τ)
  | .call c => e.call source c
  | .unloadAll => e.unloadAll source

/-- The reports that an errand takes. -/
def takenBy (e : Engine τ) : Errand → List (String × LoadReport)
  | .call .takeReports => e.takeReports.1
  | _ => []

/-- What comes of an errand while a journal is kept, and the engine after it. -/
def errandReceipt (source : Source m τ) (e : Engine τ) (r : Errand) :
    m (Receipt τ × Engine τ) := do
  let (e', asked) ← (e.errand source.journaled r).run []
  return (⟨asked, e.takenBy r⟩, e')

variable [LawfulMonad m] (source : Source m τ) (j : List (Inquiry τ))

/-- The journal does not change a load. -/
theorem fst_run_loadOne_journaled (i : Nat) (e : Engine τ) :
    Prod.fst <$> (e.loadOne source.journaled i).run j = e.loadOne source i := by
  rw [loadOne, loadOne, ← Store.fst_run_ensureLoaded_journaled e.settings.layout source i e.store j]
  simp

/-- The journal does not change loads. -/
theorem fst_run_loadEach_journaled (is : List Nat) (e : Engine τ) :
    Prod.fst <$> (loadEach source.journaled is e).run j = loadEach source is e := by
  induction is generalizing e j with
  | nil => simp [loadEach]
  | cons i is ih =>
    simp only [loadEach, StateT.run_bind, map_bind, ih]
    rw [← fst_run_loadOne_journaled source j i e, bind_map_left]

/-- The journal does not change the loads that a scenario needs. -/
theorem fst_run_load_journaled (index : Nat) (e : Engine τ) :
    Prod.fst <$> (e.load source.journaled index).run j = e.load source index :=
  fst_run_loadEach_journaled source j (e.required index) e

/-- The journal does not change an answer. -/
theorem fst_run_handle_journaled (now : Nat) (input : Input) (e : Engine τ) :
    Prod.fst <$> (e.handle source.journaled now input).run j = e.handle source now input := by
  rw [handle, handle]
  split
  · simp
  · simp
  · next entrance _ =>
    simp only [StateT.run_bind, map_bind, StateT.run_pure, map_pure]
    rw [← fst_run_load_journaled source j, bind_map_left]

/-- To keep a journal changes nothing else. -/
theorem fst_run_errand_journaled (e : Engine τ) (r : Errand) :
    Prod.fst <$> (e.errand source.journaled r).run j = e.errand source r := by
  cases r with
  | call c =>
    cases c with
    | handle input now =>
      rw [errand, errand, call, call, ← fst_run_handle_journaled source j now input e]
      simp
    | _ => simp [errand, call]
  | unloadAll =>
    rw [errand, errand, unloadAll, unloadAll]
    split
    · exact fst_run_load_journaled source j _ _
    · simp

/-- The journal does not change an errand. -/
theorem snd_errandReceipt (e : Engine τ) (r : Errand) :
    Prod.snd <$> e.errandReceipt source r = e.errand source r := by
  simp only [errandReceipt, ← fst_run_errand_journaled source [] e r, Functor.map_map,
    bind_pure_comp]

end Errands

section Accounts

variable {m : Type → Type} [Monad m] [LawfulMonad m] [MonadAttach m] [LawfulMonadAttach m]
  {source : Source m τ} {layout : Layout}

/-- What was asked and what was reported are of the same loads. -/
def Enlists (layout : Layout) (asked : List (Inquiry τ))
    (reports : List (String × LoadReport)) : Prop :=
  ∃ loads : List (Load τ),
    asked = loads.flatMap Load.inquiries ∧ reports = loads.map (Load.notice layout)

/-- Nothing is asked and nothing reported of no loads. -/
theorem enlists_nil : Enlists layout ([] : List (Inquiry τ)) [] := ⟨[], rfl, rfl⟩

/-- What is asked and reported of some loads and of others is of all of them. -/
theorem Enlists.append {asked asked' : List (Inquiry τ)}
    {reports reports' : List (String × LoadReport)} (h : Enlists layout asked reports)
    (h' : Enlists layout asked' reports') :
    Enlists layout (asked ++ asked') (reports ++ reports') := by
  obtain ⟨loads, rfl, rfl⟩ := h
  obtain ⟨loads', rfl, rfl⟩ := h'
  exact ⟨loads ++ loads', List.flatMap_append.symm, List.map_append.symm⟩

/-- The loads that were made between two engines are the new ones of the journal, and their
reports are kept. -/
def Accounts (e : Engine τ) (j : List (Inquiry τ)) (e' : Engine τ) (j' : List (Inquiry τ)) : Prop :=
  ∃ asked reports, Enlists e.settings.layout asked reports ∧
    j' = j ++ asked ∧ e'.reports = e.reports ++ reports

/-- Where no report is added and nothing is asked, no load was made. -/
theorem accounts_of_eq {j : List (Inquiry τ)} (h : e'.reports = e.reports) : Accounts e j e' j :=
  ⟨[], [], enlists_nil, by simp, by simp [h]⟩

/-- Loads after loads are accounted for together. -/
theorem Accounts.trans {j j₁ j' : List (Inquiry τ)} (h : Accounts e j e₁ j₁)
    (hsettings : e₁.settings = e.settings) (h' : Accounts e₁ j₁ e' j') : Accounts e j e' j' := by
  obtain ⟨asked, reports, hlist, rfl, hreports⟩ := h
  obtain ⟨asked', reports', hlist', rfl, hreports'⟩ := h'
  rw [hsettings] at hlist'
  exact ⟨asked ++ asked', reports ++ reports', hlist.append hlist', List.append_assoc _ _ _,
    by rw [hreports', hreports, List.append_assoc]⟩

variable {j j' : List (Inquiry τ)}

omit [MonadAttach m] [LawfulMonadAttach m] in
/-- A load of a scenario asks the source twice and leaves one report. -/
theorem run_loadOne_unloaded {i : Nat} {entry : Entry τ} (hentry : e.store.get? i = some entry)
    (hloaded : entry.loaded = false) (source : Source m τ) (j : List (Inquiry τ)) :
    (e.loadOne source.journaled i).run j = (do
      let textures ← source.textures entry.descriptor
      let text ← source.text entry.descriptor
      pure (e.taken i entry textures text,
        j ++ (Load.mk entry.descriptor textures text).inquiries)) := by
  rw [loadOne_eq]
  simp [hentry, hloaded, Source.journaled, Load.inquiries]

/-- A load of one scenario is accounted for. -/
theorem accounts_of_canReturn_loadOne {i : Nat} (hfresh : e.store.Fresh)
    (h : CanReturn ((e.loadOne source.journaled i).run j) (e', j')) : Accounts e j e' j' := by
  cases hentry : e.store.get? i with
  | none =>
    simp only [loadOne_eq, hentry, StateT.run_pure] at h
    cases eq_of_canReturn_pure h
    exact accounts_of_eq rfl
  | some entry =>
    cases hloaded : entry.loaded with
    | true =>
      simp only [loadOne_eq, hentry, hloaded, if_true, StateT.run_pure] at h
      cases eq_of_canReturn_pure h
      exact accounts_of_eq rfl
    | false =>
      obtain ⟨d, rfl⟩ : ∃ d, entry = .ofDescriptor d := ⟨_, hfresh i entry hentry hloaded⟩
      rw [run_loadOne_unloaded hentry hloaded] at h
      obtain ⟨textures, _, h⟩ := canReturn_bind_imp' h
      obtain ⟨text, _, h⟩ := canReturn_bind_imp' h
      cases eq_of_canReturn_pure h
      exact ⟨_, _, ⟨[⟨d, textures, text⟩], (List.append_nil _).symm, rfl⟩, rfl, rfl⟩

/-- Loads of some scenarios are accounted for. -/
theorem accounts_of_canReturn_loadEach {is : List Nat} (hfresh : e.store.Fresh)
    (h : CanReturn ((loadEach source.journaled is e).run j) (e', j')) : Accounts e j e' j' := by
  induction is generalizing e j with
  | nil =>
    cases eq_of_canReturn_pure h
    exact accounts_of_eq rfl
  | cons i is ih =>
    rw [loadEach, StateT.run_bind] at h
    obtain ⟨⟨e₁, j₁⟩, hone, h⟩ := canReturn_bind_imp' h
    have hloads : Loads e e₁ := (loads_of_canReturn_loadOne (canReturn_of_run hone)).1
    exact (accounts_of_canReturn_loadOne hfresh hone).trans hloads.settings_eq
      (ih (hloads.fresh hfresh) h)

/-- A step leaves the reports. -/
theorem reports_stepForward (e : Engine τ) : e.stepForward.reports = e.reports := by
  rcases e.exists_stepForward with hstay | ⟨scene, hmove⟩
  · rw [hstay]
  · rw [hmove]
    rfl

/-- An input that is answered at once leaves the reports alone. -/
theorem Accepts.reports_eq {input : Input} (h : Accepts e input (.done e')) :
    e'.reports = e.reports := by
  cases h with
  | advance _ _ => exact e.reports_stepForward
  | choose _ _ _ _ =>
    split
    · rfl
    · exact e.reports_stepForward
  | editor hedit =>
    obtain ⟨_, _, _, _, hedited⟩ := edited_of_edit hedit
    cases hedited <;> rfl
  | _ => rfl

/-- Entering a scenario that is loaded leaves the reports. -/
theorem reports_settle (e : Engine τ) (now : Nat) (entrance : Entrance) :
    (e.settle (e.enterLoaded now entrance)).1.reports = e.reports := by
  cases hentered : e.enterLoaded now entrance with
  | error reason => rfl
  | ok e' =>
    obtain ⟨_, _, _, rfl⟩ := enterLoaded_eq_ok hentered
    rfl

/-- The loads of an input are accounted for. -/
theorem accounts_of_canReturn_handle {now : Nat} {input : Input} {result : Except Refusal Unit}
    (hfresh : e.store.Fresh)
    (h : CanReturn ((e.handle source.journaled now input).run j) ((e', result), j')) :
    Accounts e j e' j' := by
  rw [handle] at h
  cases hplan : e.plan input with
  | error reason =>
    rw [hplan] at h
    cases eq_of_canReturn_pure h
    exact accounts_of_eq rfl
  | ok p =>
    rw [hplan] at h
    cases p with
    | done e₁ =>
      cases eq_of_canReturn_pure h
      exact accounts_of_eq (accepts_of_plan hplan).reports_eq
    | enter entrance =>
      simp only [StateT.run_bind] at h
      obtain ⟨⟨e₁, j₁⟩, hload, h⟩ := canReturn_bind_imp' h
      obtain ⟨hsettle, rfl⟩ : e₁.settle (e₁.enterLoaded now entrance) = (e', result) ∧ j₁ = j' :=
        Prod.mk.inj (eq_of_canReturn_pure h)
      have hreports := reports_settle e₁ now entrance
      rw [hsettle] at hreports
      have hsettings : e₁.settings = e.settings :=
        (loads_of_canReturn_load (canReturn_of_run hload)).1.settings_eq
      exact (accounts_of_canReturn_loadEach hfresh hload).trans hsettings
        (accounts_of_eq hreports)

/-- Looking for scenarios again changes only the store. -/
theorem rest_rescanListed {ls : List Listing} (h : e.rescanListed ls = .ok e') :
    e' = { e with store := e'.store } := by
  rw [rescanListed] at h
  split at h
  · cases h
  · cases h
    rfl

/-- What an errand takes and leaves are the reports that were there and those of its loads. -/
def Settles (r : Errand) (e : Engine τ) (asked : List (Inquiry τ)) (e' : Engine τ) : Prop :=
  ∃ reports, Enlists e.settings.layout asked reports ∧
    e.takenBy r ++ e'.reports = e.reports ++ reports

/-- An errand that takes no reports settles if its loads are accounted for. -/
theorem Accounts.settles {asked : List (Inquiry τ)} {r : Errand} (h : Accounts e [] e' asked)
    (htaken : e.takenBy r = []) : Settles r e asked e' := by
  obtain ⟨asked, reports, hlist, rfl, hreports⟩ := h
  exact ⟨reports, hlist, by rw [htaken, List.nil_append, hreports]⟩

/-- An errand leaves an engine tidy, and the settings as they are. -/
theorem Tidy.errand {r : Errand} (htidy : e.Tidy) (h : CanReturn (e.errand source r) e') :
    e'.Tidy ∧ e'.settings = e.settings := by
  cases r with
  | call c =>
    cases c with
    | handle input now =>
      obtain ⟨result, hanswers⟩ := exists_answers_of_canReturn_call h
      exact ⟨htidy.answers hanswers, hanswers.settings_eq⟩
    | tick dt now =>
      obtain rfl := eq_of_canReturn_pure h
      obtain ⟨reveal, history, recorded, htick⟩ := e.exists_fst_tick dt now
      exact ⟨htidy.tick dt now, by rw [htick]⟩
    | rescan ls =>
      obtain rfl := eq_of_canReturn_pure h
      split
      · next e₁ hrescan => exact ⟨htidy.rescanListed hrescan, by rw [rest_rescanListed hrescan]⟩
      · exact ⟨htidy, rfl⟩
    | setCatalog names =>
      obtain rfl := eq_of_canReturn_pure h
      exact ⟨htidy.of_eq rfl rfl rfl, rfl⟩
    | takeReports =>
      obtain rfl := eq_of_canReturn_pure h
      exact ⟨htidy.of_eq rfl rfl rfl, rfl⟩
  | unloadAll =>
    rw [Engine.errand, unloadAll] at h
    split at h
    · next k hactive =>
      obtain ⟨hloads, hready, _⟩ := loads_of_canReturn_load h
      refine ⟨⟨hloads.fresh e.store.fresh_unloadAll, ?_, ?_⟩, hloads.settings_eq⟩
      · intro i hi
        rw [hloads.active_eq, hactive] at hi
        obtain rfl := Option.some.inj hi
        exact hready
      · rw [hloads.state_eq, hloads.active_eq]
        exact htidy.idle
    · next hinactive =>
      obtain rfl := eq_of_canReturn_pure h
      exact ⟨Tidy.of_inactive hinactive e.store.fresh_unloadAll, rfl⟩

/-- Every errand of a tidy engine settles. -/
theorem settles_of_canReturn_errand {r : Errand} {asked : List (Inquiry τ)} (htidy : e.Tidy)
    (h : CanReturn ((e.errand source.journaled r).run []) (e', asked)) : Settles r e asked e' := by
  cases r with
  | call c =>
    cases c with
    | handle input now =>
      rw [errand, call, StateT.run_map] at h
      obtain ⟨⟨⟨e₁, result⟩, j₁⟩, hhandle, heq⟩ := canReturn_map_imp' h
      cases heq
      exact (accounts_of_canReturn_handle htidy.fresh hhandle).settles rfl
    | tick dt now =>
      cases eq_of_canReturn_pure h
      obtain ⟨reveal, history, recorded, htick⟩ := e.exists_fst_tick dt now
      exact (accounts_of_eq (by rw [htick])).settles rfl
    | rescan ls =>
      cases eq_of_canReturn_pure h
      refine Accounts.settles ?_ rfl
      split
      · next e₁ hrescan => exact accounts_of_eq (by rw [rest_rescanListed hrescan])
      · exact accounts_of_eq rfl
    | setCatalog names =>
      cases eq_of_canReturn_pure h
      exact (accounts_of_eq rfl).settles rfl
    | takeReports =>
      cases eq_of_canReturn_pure h
      exact ⟨[], enlists_nil, rfl⟩
  | unloadAll =>
    rw [Engine.errand, unloadAll] at h
    split at h
    · have hloads : Accounts { e with store := e.store.unloadAll } [] e' asked :=
        accounts_of_canReturn_loadEach e.store.fresh_unloadAll h
      exact Accounts.settles hloads rfl
    · cases eq_of_canReturn_pure h
      exact (accounts_of_eq rfl).settles rfl

/-- Whatever errands an engine has run, all loads have been told: their reports are those that
were taken and those that are still kept. -/
structure Told (layout : Layout) (receipts : List (Receipt τ)) (e : Engine τ) : Prop where
  layout_eq : e.settings.layout = layout
  tidy : e.Tidy
  enlists : Enlists layout (receipts.flatMap (·.asked)) (receipts.flatMap (·.taken) ++ e.reports)

/-- Nothing has been loaded by an engine when it is started. -/
theorem told_startListed (settings : Settings) (ls : List Listing) :
    Told settings.layout [] (startListed settings ls : Engine τ) where
  layout_eq := rfl
  tidy := .of_inactive rfl (Store.fresh_ofListings ls)
  enlists := enlists_nil

/-- All loads are told after another errand. -/
theorem Told.errand {receipts : List (Receipt τ)} {receipt : Receipt τ} {r : Errand}
    (h : Told layout receipts e) (hr : CanReturn (e.errandReceipt source r) (receipt, e')) :
    Told layout (receipts ++ [receipt]) e' := by
  obtain ⟨⟨e₁, asked⟩, herrand, hr⟩ := canReturn_bind_imp' hr
  obtain ⟨rfl, rfl⟩ := Prod.mk.inj (eq_of_canReturn_pure hr)
  obtain ⟨htidy, hsettings⟩ := h.tidy.errand (canReturn_of_run herrand)
  obtain ⟨reports, hlist, hreports⟩ := settles_of_canReturn_errand h.tidy herrand
  rw [h.layout_eq] at hlist
  refine ⟨by rw [hsettings, h.layout_eq], htidy, ?_⟩
  have hall := h.enlists.append hlist
  rw [List.append_assoc, ← hreports] at hall
  simpa using hall

end Accounts

/-- Whatever is requested of a store, and whatever its source answers each time, a scenario
holds what its last load got if it counts as loaded, and nothing if it does not; and whatever
is requested next, only a scenario that does not count as loaded is loaded, with one question
for the textures and one for the text. Whatever errands an engine runs, the reports that are
taken, once they are taken at the end, are those of the loads that were made, in order. -/
theorem loads_told {σ : Type} (source : Source (StateM σ) τ) (t : σ) :
    (∀ (layout : Layout) (ds : List Descriptor) (requests : List Store.Request),
      let told := ((traced (Store.serve layout source) requests (.ofDescriptors ds)).run t).1
      told.2 = ((requests.foldlM (Store.carry layout source) (.ofDescriptors ds)).run t).1 ∧
        Store.Kept layout told.1 told.2 ∧
        ∀ i u, let next := ((told.2.serve layout source (.ensureLoaded i)).run u).1
          Store.Serves layout told.2 i next.1 next.2) ∧
    ∀ (settings : Settings) (ls : List Listing) (errands : List Errand),
      let told := ((traced (errandReceipt source) errands (startListed settings ls)).run t).1
      told.2 = ((errands.foldlM (errand source) (startListed settings ls)).run t).1 ∧
        Enlists settings.layout (told.1.flatMap (·.asked))
          (told.1.flatMap (·.taken) ++ told.2.takeReports.1) := by
  constructor
  · intro layout ds requests told
    obtain ⟨hsame, hkept⟩ := Store.kept_traced layout source ds requests t
    exact ⟨hsame, hkept, fun i u => Store.serves_of_canReturn hkept.fresh (canReturn_fst_run _ u)⟩
  · intro settings ls errands told
    have hsame := snd_traced (f := id) (snd_errandReceipt source) errands (startListed settings ls)
    rw [List.map_id] at hsame
    have htold : Told settings.layout ([] ++ told.1) told.2 :=
      of_canReturn_traced (P := fun e receipts => Told settings.layout receipts e)
        (fun _ _ _ _ _ h hr => h.errand hr) (told_startListed settings ls) (canReturn_fst_run _ t)
    exact ⟨congrArg (fun x : StateM σ (Engine τ) => (x.run t).1) hsame, htold.enlists⟩

end Engine

end VisualNovel

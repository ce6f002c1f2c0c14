import VisualNovel.Proofs.Playback.Run
import VisualNovel.Proofs.Store.Journal

/-!
# Scenarios are loaded once

Whatever is requested of a store, and whatever its source answers each time, a scenario that
counts as loaded holds what its own last load got, and one that does not holds nothing. Only a
scenario that does not count as loaded is loaded, and only then is the source asked: once for
the textures and once for the text.
-/

namespace VisualNovel.Store

open MonadAttach LawfulMonadAttach

variable {τ : Type} {m : Type → Type} [Monad m] {layout : Layout} {source : Source m τ}
  {s s' : Store τ} {i : Nat}

/-- What is requested of a store. -/
inductive Request where
  | replace (ds : List Descriptor)
  | ensureLoaded (index : Nat)
  | unloadAll

/-- The store after a request. -/
def carry (layout : Layout) (source : Source m τ) (s : Store τ) : Request → m (Store τ)
  | .replace ds => pure (.ofDescriptors ds)
  | .ensureLoaded i => Prod.fst <$> s.ensureLoaded layout source i
  | .unloadAll => pure s.unloadAll

/-- What came of a request: the report, if there is one, and what the source was asked. -/
structure Outcome (τ : Type) where
  request : Request
  report : Option LoadReport
  asked : List (Inquiry τ)

/-- What comes of a request while a journal is kept, and the store after it. -/
def serve (layout : Layout) (source : Source m τ) (s : Store τ) :
    Request → m (Outcome τ × Store τ)
  | .replace ds => pure (⟨.replace ds, none, []⟩, .ofDescriptors ds)
  | .ensureLoaded i => do
    let ((s, report), asked) ← (s.ensureLoaded layout source.journaled i).run []
    return (⟨.ensureLoaded i, report, asked⟩, s)
  | .unloadAll => pure (⟨.unloadAll, none, []⟩, s.unloadAll)

/-- The journal does not change what a request does. -/
theorem snd_serve [LawfulMonad m] (layout : Layout) (source : Source m τ) (s : Store τ)
    (request : Request) :
    Prod.snd <$> s.serve layout source request = s.carry layout source request := by
  cases request with
  | ensureLoaded i =>
    simp only [serve, carry, ← fst_run_ensureLoaded_journaled layout source i s [],
      Functor.map_map, bind_pure_comp]
  | _ => simp only [serve, carry, map_pure]

/-- The load of the scenario at an index, if this is what a request came to. -/
def Outcome.load? (o : Outcome τ) (i : Nat) : Option (Load τ) :=
  match o.request, o.asked with
  | .ensureLoaded index, [.textures d textures, .text _ text] =>
    if index = i then some ⟨d, textures, text⟩ else none
  | _, _ => none

/-- The last load of the scenario at an index. -/
def lastLoad (told : List (Outcome τ)) (i : Nat) : Option (Load τ) :=
  (told.filterMap (·.load? i)).getLast?

/-- The last load of a scenario is that of the last outcome, if it has one. -/
theorem lastLoad_concat (told : List (Outcome τ)) (o : Outcome τ) (i : Nat) :
    lastLoad (told ++ [o]) i = (o.load? i).or (lastLoad told i) := by
  rw [lastLoad, List.filterMap_append, List.getLast?_append, List.filterMap_cons]
  cases o.load? i <;> rfl

/-- A load that was made is the last one of its scenario. -/
theorem lastLoad_concat_inquiries (told : List (Outcome τ)) (report : Option LoadReport)
    (l : Load τ) (i j : Nat) :
    lastLoad (told ++ [⟨.ensureLoaded i, report, l.inquiries⟩]) j =
      if i = j then some l else lastLoad told j := by
  rw [lastLoad_concat]
  simp only [Outcome.load?, Load.inquiries]
  split <;> rfl

/-- Where nothing was asked no load was made. -/
theorem lastLoad_concat_of_unasked (told : List (Outcome τ)) (request : Request)
    (report : Option LoadReport) (i : Nat) :
    lastLoad (told ++ [⟨request, report, []⟩]) i = lastLoad told i := by
  rw [lastLoad_concat]
  cases request <;> rfl

/-- A scenario holds what a load of it got. -/
structure Holds (layout : Layout) (entry : Entry τ) (l : Load τ) : Prop where
  own : l.descriptor = entry.descriptor
  scenes : entry.scenes = l.scenes layout
  textures (name : String) : entry.textures.get? name = Table.lastValue l.named name
  distinct : entry.textures.size = (l.named.map (·.1)).toFinset.card

/-- A store holds of every scenario what its last load got, and nothing of one that does not
count as loaded. -/
structure Kept (layout : Layout) (told : List (Outcome τ)) (s : Store τ) : Prop where
  unloaded {i : Nat} {entry : Entry τ} : s.get? i = some entry → entry.loaded = false →
    entry.scenes = [] ∧ entry.textures = .empty
  loaded {i : Nat} {entry : Entry τ} : s.get? i = some entry → entry.loaded = true →
    ∃ l, lastLoad told i = some l ∧ Holds layout entry l

/-- What comes of making sure that a scenario is loaded. -/
inductive Serves (layout : Layout) (s : Store τ) (i : Nat) : Outcome τ → Store τ → Prop where
  /-- There is no such scenario. -/
  | absent (missing : s.get? i = none) : Serves layout s i ⟨.ensureLoaded i, none, []⟩ s
  /-- It is loaded already. -/
  | idle {entry : Entry τ} (present : s.get? i = some entry) (loaded : entry.loaded = true) :
      Serves layout s i ⟨.ensureLoaded i, some .idle, []⟩ s
  /-- It is loaded now, and the report says what it holds. -/
  | performed {entry entry' : Entry τ} {s' : Store τ} {l : Load τ} {r : LoadReport}
      (present : s.get? i = some entry) (unloaded : entry.loaded = false)
      (now : s'.get? i = some entry') (loaded : entry'.loaded = true)
      (same : entry'.descriptor = entry.descriptor) (holds : Holds layout entry' l)
      (elsewhere : ∀ j ≠ i, s'.get? j = s.get? j) (performed : r.performed = true)
      (scenes : r.scenes = entry'.scenes.length) (textures : r.textures = entry'.textures.size)
      (warned : r.warnings.length = l.failures) :
      Serves layout s i ⟨.ensureLoaded i, some r, l.inquiries⟩ s'

/-- A scenario that is loaded holds what its load got. -/
theorem holds_take_ofDescriptor (layout : Layout) (l : Load τ) :
    Holds layout ⟨l.descriptor, true, l.scenes layout, .ofList l.named⟩ l where
  own := rfl
  scenes := rfl
  textures := Table.get?_ofList l.named
  distinct := Table.size_ofList l.named

/-- A store that keeps what was told has nothing of scenarios that are not loaded. -/
theorem Kept.fresh {told : List (Outcome τ)} (h : Kept layout told s) : s.Fresh := by
  rintro i ⟨d, loaded, scenes, textures⟩ hentry hloaded
  obtain rfl : loaded = false := hloaded
  obtain ⟨hscenes, htextures⟩ := h.unloaded hentry rfl
  obtain rfl : scenes = [] := hscenes
  obtain rfl : textures = .empty := htextures
  rfl

section Effects

variable [LawfulMonad m] [MonadAttach m] [LawfulMonadAttach m]

/-- Making sure that a scenario is loaded ends in one of these ways. -/
theorem serves_of_canReturn {o : Outcome τ} (hfresh : s.Fresh)
    (h : CanReturn (s.serve layout source (.ensureLoaded i)) (o, s')) : Serves layout s i o s' := by
  obtain ⟨⟨⟨s₁, report⟩, asked⟩, hload, h⟩ := canReturn_bind_imp' h
  obtain ⟨rfl, rfl⟩ := Prod.mk.inj (eq_of_canReturn_pure h)
  cases hentry : s.get? i with
  | none =>
    rw [run_ensureLoaded_absent hentry] at hload
    cases eq_of_canReturn_pure hload
    exact .absent hentry
  | some entry =>
    cases hloaded : entry.loaded with
    | true =>
      rw [run_ensureLoaded_loaded hentry hloaded] at hload
      cases eq_of_canReturn_pure hload
      exact .idle hentry hloaded
    | false =>
      obtain ⟨d, rfl⟩ : ∃ d, entry = .ofDescriptor d := ⟨_, hfresh i entry hentry hloaded⟩
      rw [run_ensureLoaded_unloaded hentry hloaded] at hload
      obtain ⟨textures, _, hload⟩ := canReturn_bind_imp' hload
      obtain ⟨text, _, hload⟩ := canReturn_bind_imp' hload
      cases eq_of_canReturn_pure hload
      let l : Load τ := ⟨d, textures, text⟩
      have hnow : (s.set i ((Entry.ofDescriptor d).take layout textures text).1).get? i =
          some ⟨d, true, l.scenes layout, .ofList l.named⟩ := by
        rw [get?_set_self hentry]
        exact congrArg some (Load.take_ofDescriptor (l := l))
      exact .performed (l := l) hentry hloaded hnow rfl rfl (holds_take_ofDescriptor layout l)
        (fun j hj => get?_set_ne hj.symm _) l.performed_report l.scenes_report l.textures_report
        l.length_warnings_report

/-- What came of requests that asked for nothing does not change what was loaded last. -/
theorem Kept.unasked {told : List (Outcome τ)} (h : Kept layout told s) (request : Request)
    (report : Option LoadReport) : Kept layout (told ++ [⟨request, report, []⟩]) s where
  unloaded := h.unloaded
  loaded hentry hloaded := by
    rw [lastLoad_concat_of_unasked]
    exact h.loaded hentry hloaded

/-- A store of which nothing is loaded holds nothing. -/
theorem kept_of_unloaded
    (h : ∀ i, ∀ entry ∈ s.get? i, entry = .ofDescriptor entry.descriptor)
    (told : List (Outcome τ)) : Kept layout told s where
  unloaded hentry _ := by
    rw [h _ _ hentry]
    exact ⟨rfl, rfl⟩
  loaded hentry hloaded := by
    rw [h _ _ hentry] at hloaded
    cases hloaded

/-- Every request leaves a store with what its last loads got. -/
theorem Kept.serve {told : List (Outcome τ)} {o : Outcome τ} {request : Request}
    (h : Kept layout told s) (hserve : CanReturn (s.serve layout source request) (o, s')) :
    Kept layout (told ++ [o]) s' := by
  cases request with
  | replace ds =>
    cases eq_of_canReturn_pure hserve
    exact kept_of_unloaded (fun _ _ => eq_of_get?_ofDescriptors) _
  | unloadAll =>
    cases eq_of_canReturn_pure hserve
    refine kept_of_unloaded (fun i entry hentry => ?_) _
    rw [get?_unloadAll] at hentry
    obtain ⟨other, _, rfl⟩ := Option.map_eq_some_iff.mp hentry
    rfl
  | ensureLoaded i =>
    cases serves_of_canReturn h.fresh hserve with
    | absent _ => exact h.unasked _ _
    | idle _ _ => exact h.unasked _ _
    | @performed _ entry' _ l _ _ _ hnow hloaded _ hholds helsewhere _ _ _ _ =>
      constructor
      case unloaded =>
        intro j other hother hunloaded
        by_cases hij : j = i
        · rw [hij, hnow] at hother
          rw [← Option.some.inj hother, hloaded] at hunloaded
          cases hunloaded
        · exact h.unloaded ((helsewhere j hij).symm.trans hother) hunloaded
      case loaded =>
        intro j other hother hother'
        rw [lastLoad_concat_inquiries]
        by_cases hij : j = i
        · rw [hij, hnow] at hother
          obtain rfl := Option.some.inj hother
          exact ⟨l, if_pos hij.symm, hholds⟩
        · rw [if_neg (Ne.symm hij)]
          exact h.loaded ((helsewhere j hij).symm.trans hother) hother'

end Effects

/-- Whatever is requested and whatever the source answers, a store holds of every scenario what
its last load got. -/
theorem kept_traced {σ : Type} (layout : Layout) (source : Source (StateM σ) τ)
    (ds : List Descriptor) (requests : List Request) (t : σ) :
    let told := ((Engine.traced (serve layout source) requests (ofDescriptors ds)).run t).1
    told.2 = ((requests.foldlM (carry layout source) (ofDescriptors ds)).run t).1 ∧
      Kept layout told.1 told.2 := by
  intro told
  have hsame := Engine.snd_traced (f := id) (snd_serve layout source) requests (ofDescriptors ds)
  rw [List.map_id] at hsame
  refine ⟨congrArg (fun x : StateM σ (Store τ) => (x.run t).1) hsame, ?_⟩
  exact Engine.of_canReturn_traced (P := fun s told => Kept layout told s)
    (fun _ _ _ _ _ h hserve => h.serve hserve)
    (kept_of_unloaded (fun _ _ => eq_of_get?_ofDescriptors) []) (canReturn_fst_run _ t)

end VisualNovel.Store

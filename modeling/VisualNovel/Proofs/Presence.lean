import Mathlib.Data.List.Destutter
import Mathlib.Data.List.Induction
import VisualNovel.Presence

/-!
# What is reported

The game publishes whenever it likes and the thread takes its steps whenever it likes. What the
thread does in a step is known from the turns alone: it asks, looks and weighs in rounds until it
asks after it was told to stop. Whichever way the turns fall, the reports are the snapshots that
were polled after the intro, without those that repeat the last one that was reported; behind them
the report is taken back, once, if the thread was told to stop and has taken the few steps that
were left.
-/

namespace VisualNovel

section Destutter

variable {α : Type} [DecidableEq α]

/-- One more element behind the first one counts unless it repeats the last one. -/
theorem destutter'_concat (a b : α) (l : List α) : (l ++ [a]).destutter' (· ≠ ·) b =
    if (b :: l).getLast? = some a then l.destutter' (· ≠ ·) b
    else l.destutter' (· ≠ ·) b ++ [a] := by
  induction l generalizing b with
  | nil => by_cases h : b = a <;> simp [h]
  | cons c l ih =>
    rw [List.cons_append, List.getLast?_cons_cons]
    by_cases h : b = c
    · subst h
      rw [List.destutter'_cons_neg _ (not_not.mpr rfl),
        List.destutter'_cons_neg _ (not_not.mpr rfl),
        ih]
    · rw [List.destutter'_cons_pos _ h, List.destutter'_cons_pos _ h, ih]
      split
      · rfl
      · rfl

/-- One more element counts unless it repeats the last one. -/
theorem destutter_concat (l : List α) (a : α) : (l ++ [a]).destutter (· ≠ ·) =
    if l.getLast? = some a then l.destutter (· ≠ ·) else l.destutter (· ≠ ·) ++ [a] := by
  cases l with
  | nil => rfl
  | cons b l => exact destutter'_concat a b l

/-- What counts last is the last element. -/
theorem getLast?_destutter (l : List α) : (l.destutter (· ≠ ·)).getLast? = l.getLast? := by
  induction l using List.reverseRecOn with
  | nil => rfl
  | append_singleton l a ih =>
    rw [destutter_concat, List.getLast?_concat]
    split
    · next h => rw [ih, h]
    · rw [List.getLast?_concat]

end Destutter

namespace Presence

/-- What is done in a turn. -/
inductive Deed where
  | publish (s : Snapshot)
  | halt
  | ask
  | look
  | weigh
  | leave
  | rest
deriving DecidableEq, Repr

/-- What a turn comes to. -/
def deed (p : Presence) : Turn → Deed
  | .publish s => .publish s
  | .halt => .halt
  | .step =>
    match p.stage with
    | .asking => .ask
    | .looking => .look
    | .weighing _ => .weigh
    | .leaving => .leave
    | .gone => .rest

/-- What some turns come to, in order. -/
def deeds (p : Presence) : List Turn → List Deed
  | [] => []
  | turn :: turns => p.deed turn :: (p.take turn).1.deeds turns

/-- What the thread does in a step of its rounds, by the number of the step. -/
def roundDeed (n : Nat) : Deed :=
  if n % 3 = 0 then .ask else if n % 3 = 1 then .look else .weigh

/-- What the thread does in a step, by its number and by that of the step in which it asks for the
last time, if it was told to stop. -/
def duty (last : Option Nat) (n : Nat) : Deed :=
  match last with
  | none => roundDeed n
  | some last => if n ≤ last then roundDeed n else if n = last + 1 then .leave else .rest

/-- The first step, from one on, in which the thread asks. -/
def nextAsk (n : Nat) : Nat := (n + 2) / 3 * 3

/-- What some turns come to, read off the turns alone: steps are counted, and once the thread is
told to stop, the step is known in which it asks for the last time. -/
def duties : Nat → Option Nat → List Turn → List Deed
  | _, _, [] => []
  | n, last, .publish s :: turns => .publish s :: duties n last turns
  | n, last, .halt :: turns => .halt :: duties n (last.or (some (nextAsk n))) turns
  | n, last, .step :: turns => duty last n :: duties (n + 1) last turns

/-- What an onlooker notes: the snapshot that was published last, the one that was looked at
last, and those that were polled, which is done once they are weighed. -/
structure View where
  latest : Snapshot
  seen : Snapshot
  polled : List Snapshot

/-- What is noted after a deed. -/
def View.after (v : View) : Deed → View
  | .publish s => { v with latest := s }
  | .look => { v with seen := v.latest }
  | .weigh => { v with polled := v.polled ++ [v.seen] }
  | .halt | .ask | .leave | .rest => v

/-- What is noted of some deeds. -/
def viewOf (ds : List Deed) : View := ds.foldl View.after ⟨.blank, .blank, []⟩

/-- The snapshots that were polled, in order. -/
def polled (ds : List Deed) : List Snapshot := (viewOf ds).polled

/-- What is to be reported of snapshots that were polled: those after the intro, each of them
only if it does not repeat the one before. -/
def news (polled : List Snapshot) : List Snapshot :=
  (polled.filter (·.introFinished)).destutter (· ≠ ·)

/-- The report of a snapshot. -/
def update (logoKey : String) (startTime : Nat) (s : Snapshot) : Report :=
  .update (.ofSnapshot s logoKey startTime)

variable {p : Presence} {told : List Report} {ds before after : List Deed} {turns : List Turn}
  {v : View} {s : Snapshot} {last : Option Nat} {n : Nat}

/-- What is noted of one more deed. -/
theorem viewOf_concat (ds : List Deed) (d : Deed) : viewOf (ds ++ [d]) = (viewOf ds).after d := by
  rw [viewOf, List.foldl_concat, viewOf]

/-- One more snapshot is news if it came after the intro and does not repeat the last one that
did. -/
theorem news_concat (ss : List Snapshot) (s : Snapshot) : news (ss ++ [s]) =
    if !s.introFinished || (ss.filter (·.introFinished)).getLast? = some s then news ss
    else news ss ++ [s] := by
  rw [news, List.filter_append]
  cases hintro : s.introFinished with
  | false =>
    rw [List.filter_cons_of_neg (Bool.eq_false_iff.mp hintro), List.filter_nil, List.append_nil]
    rfl
  | true =>
    rw [List.filter_cons_of_pos hintro, List.filter_nil, destutter_concat]
    simp only [Bool.not_true, Bool.false_or, decide_eq_true_eq]
    rfl

/-- The last snapshot after the intro is the one that was polled last, if it came after the
intro. -/
theorem getLast?_filter_concat (ss : List Snapshot) (s : Snapshot) :
    ((ss ++ [s]).filter (·.introFinished)).getLast? =
      if s.introFinished then some s else (ss.filter (·.introFinished)).getLast? := by
  rw [List.filter_append]
  cases hintro : s.introFinished with
  | false => simp [hintro]
  | true => simp [hintro]

/-- News were polled after the intro. -/
theorem mem_of_mem_news {ss : List Snapshot} (h : s ∈ news ss) :
    s ∈ ss ∧ s.introFinished = true :=
  List.mem_filter.mp ((List.destutter_sublist _ _).subset h)

/-- A snapshot that is polled last, after the intro, is the last of the news. -/
theorem getLast?_news {ss : List Snapshot} (hintro : s.introFinished = true)
    (h : ss.getLast? = some s) : (news ss).getLast? = some s := by
  obtain ⟨ss, rfl⟩ := List.getLast?_eq_some_iff.mp h
  rw [news, getLast?_destutter, List.filter_append, List.filter_cons_of_pos hintro,
    List.filter_nil, List.getLast?_concat]

/-- What is true of a presence and of all that its service was asked to do, by what was done. -/
structure Attested (p : Presence) (told : List Report) (ds : List Deed) : Prop where
  published_eq : p.published = (viewOf ds).latest
  seen_eq (s : Snapshot) (h : p.stage = .weighing s) : (viewOf ds).seen = s
  reported_eq : p.reported = ((polled ds).filter (·.introFinished)).getLast?
  told_eq : told = (news (polled ds)).map (update p.logoKey p.startTime) ++
    if .leave ∈ ds then [.clear] else []
  gone_iff : p.stage = .gone ↔ .leave ∈ ds
  halted (h : p.stage = .leaving ∨ p.stage = .gone) : p.running = false
  running_eq : p.running = false ↔ .halt ∈ ds

/-- At the start nothing was done. -/
theorem attested_start (logoKey : String) (startTime : Nat) :
    Attested (start logoKey startTime) [] [] where
  published_eq := rfl
  seen_eq s h := by cases h
  reported_eq := rfl
  told_eq := rfl
  gone_iff := by simp [start]
  halted h := by simp [start] at h
  running_eq := by simp [start]

namespace Attested

/-- A turn in which nothing is reported, and nothing was to be. -/
theorem aside (h : Attested p told ds) {d : Deed} {published : Snapshot} {running : Bool}
    {stage : Stage} (hweigh : d ≠ .weigh) (hleave : d ≠ .leave)
    (hpublished : published = ((viewOf ds).after d).latest)
    (hseen : ∀ s, stage = .weighing s → ((viewOf ds).after d).seen = s)
    (hgone : stage = .gone ↔ p.stage = .gone)
    (hhalted : stage = .leaving ∨ stage = .gone → running = false)
    (hrunning : running = false ↔ .halt ∈ ds ++ [d]) :
    Attested { p with published, running, stage } told (ds ++ [d]) := by
  have hpolled : polled (ds ++ [d]) = polled ds := by
    rw [polled, polled, viewOf_concat]
    cases d with
    | weigh => exact absurd rfl hweigh
    | _ => rfl
  have hleft : .leave ∈ ds ++ [d] ↔ .leave ∈ ds := by
    simp [Ne.symm hleave]
  constructor
  case published_eq => rw [viewOf_concat, hpublished]
  case seen_eq =>
    rw [viewOf_concat]
    exact hseen
  case reported_eq => rw [hpolled, h.reported_eq]
  case told_eq =>
    rw [hpolled, h.told_eq]
    simp only [hleft]
  case gone_iff => rw [hgone, h.gone_iff, hleft]
  case halted => exact hhalted
  case running_eq => exact hrunning

/-- The game publishes a snapshot. -/
theorem publish (h : Attested p told ds) (s : Snapshot) :
    Attested (p.publish s) told (ds ++ [.publish s]) :=
  h.aside nofun nofun rfl h.seen_eq .rfl h.halted (by simpa using h.running_eq)

/-- The thread is told not to go on. -/
theorem halt (h : Attested p told ds) : Attested p.halt told (ds ++ [.halt]) :=
  h.aside nofun nofun h.published_eq h.seen_eq .rfl (fun _ => rfl) (by simp)

/-- The thread asks whether to go on. -/
theorem ask (h : Attested p told ds) (hstage : p.stage = .asking) :
    Attested p.step.1 (told ++ p.step.2) (ds ++ [.ask]) := by
  rw [step, hstage, List.append_nil]
  refine h.aside nofun nofun h.published_eq ?_ ?_ ?_ (by simpa using h.running_eq)
  · intro s hs
    split at hs
    · cases hs
    · cases hs
  · rw [hstage]
    split
    · exact iff_of_false nofun nofun
    · exact iff_of_false nofun nofun
  · split
    · rintro (hs | hs)
      · cases hs
      · cases hs
    · next hrunning => exact fun _ => Bool.eq_false_iff.mpr hrunning

/-- The thread looks at the latest snapshot. -/
theorem look (h : Attested p told ds) (hstage : p.stage = .looking) :
    Attested p.step.1 (told ++ p.step.2) (ds ++ [.look]) := by
  rw [step, hstage, List.append_nil]
  refine h.aside nofun nofun h.published_eq ?_ ?_ nofun (by simpa using h.running_eq)
  · rintro s hs
    cases hs
    exact h.published_eq.symm
  · rw [hstage]
    exact iff_of_false nofun nofun

/-- The thread is gone. -/
theorem rest (h : Attested p told ds) (hstage : p.stage = .gone) :
    Attested p.step.1 (told ++ p.step.2) (ds ++ [.rest]) := by
  rw [step, hstage, List.append_nil]
  exact h.aside nofun nofun h.published_eq h.seen_eq .rfl h.halted (by simpa using h.running_eq)

/-- The thread leaves and takes its report back. -/
theorem leave (h : Attested p told ds) (hstage : p.stage = .leaving) :
    Attested p.step.1 (told ++ p.step.2) (ds ++ [.leave]) := by
  have hnot : .leave ∉ ds := by
    rw [← h.gone_iff, hstage]
    nofun
  have hview : viewOf (ds ++ [.leave]) = viewOf ds := viewOf_concat ds .leave
  have hpolled : polled (ds ++ [.leave]) = polled ds := by rw [polled, polled, hview]
  rw [step, hstage]
  constructor
  case published_eq => rw [hview, ← h.published_eq]
  case seen_eq => nofun
  case reported_eq => rw [hpolled, ← h.reported_eq]
  case told_eq =>
    rw [hpolled, h.told_eq]
    simp [hnot]
  case gone_iff => simp
  case halted => exact fun _ => h.halted (.inl hstage)
  case running_eq => simpa using h.running_eq

/-- A snapshot has been polled, and what is reported is known. -/
theorem weighed (h : Attested p told ds) (hstage : p.stage = .weighing s)
    {reported : Option Snapshot} {told' : List Report}
    (hreported : reported = ((polled ds ++ [s]).filter (·.introFinished)).getLast?)
    (htold : told' = (news (polled ds ++ [s])).map (update p.logoKey p.startTime)) :
    Attested { p with stage := .asking, reported } told' (ds ++ [.weigh]) := by
  have hnot : .leave ∉ ds ++ [.weigh] := by
    simpa [hstage] using h.gone_iff.not
  have hpolled : polled (ds ++ [.weigh]) = polled ds ++ [s] := by
    rw [polled, viewOf_concat, ← h.seen_eq s hstage]
    rfl
  constructor
  case published_eq =>
    rw [viewOf_concat]
    exact h.published_eq
  case seen_eq => nofun
  case reported_eq => rw [hpolled, hreported]
  case told_eq => rw [hpolled, htold, if_neg hnot, List.append_nil]
  case gone_iff => exact iff_of_false nofun hnot
  case halted => nofun
  case running_eq => simpa using h.running_eq

/-- The thread weighs the snapshot that it has seen. -/
theorem weigh (h : Attested p told ds) (hstage : p.stage = .weighing s) :
    Attested p.step.1 (told ++ p.step.2) (ds ++ [.weigh]) := by
  have htold : told = (news (polled ds)).map (update p.logoKey p.startTime) := by
    have hnot : .leave ∉ ds := by simpa [hstage] using h.gone_iff.not
    rw [h.told_eq, if_neg hnot, List.append_nil]
  have hreported := getLast?_filter_concat (polled ds) s
  have hnews := news_concat (polled ds) s
  rw [← h.reported_eq] at hreported hnews
  rw [step, hstage]
  dsimp only
  rw [Presence.weigh]
  split
  · next hdue =>
    rw [beq_eq_decide] at hdue
    rw [if_pos hdue] at hnews
    refine h.weighed hstage (hreported.trans ?_).symm ?_
    · split
      · next hintro => simpa [hintro, eq_comm] using hdue
      · rfl
    · rw [hnews, htold, List.append_nil]
  · next hdue =>
    rw [beq_eq_decide] at hdue
    rw [if_neg hdue] at hnews
    refine h.weighed hstage (hreported.trans (if_pos ?_)).symm ?_
    · simp only [Bool.or_eq_true, not_or] at hdue
      simpa using hdue.1
    · rw [hnews, htold, List.map_append]
      rfl

/-- A turn keeps what is true. -/
theorem take (h : Attested p told ds) (turn : Turn) :
    Attested (p.take turn).1 (told ++ (p.take turn).2) (ds ++ [p.deed turn]) := by
  cases turn with
  | publish s =>
    rw [Presence.take, List.append_nil]
    exact h.publish s
  | halt =>
    rw [Presence.take, List.append_nil]
    exact h.halt
  | step =>
    rw [Presence.take, deed]
    cases hstage : p.stage with
    | asking => exact h.ask hstage
    | looking => exact h.look hstage
    | weighing s => exact h.weigh hstage
    | leaving => exact h.leave hstage
    | gone => exact h.rest hstage

/-- So do some turns. -/
theorem run (h : Attested p told ds) (turns : List Turn) :
    Attested (p.run turns).1 (told ++ (p.run turns).2) (ds ++ p.deeds turns) := by
  induction turns generalizing p told ds with
  | nil => simpa [Presence.run, deeds] using h
  | cons turn turns ih =>
    rw [Presence.run, deeds, ← List.append_assoc, List.append_cons]
    exact ih (h.take turn)

end Attested

/-- What is true of a presence after some turns, and of all that was reported in them. -/
theorem attested_run (logoKey : String) (startTime : Nat) (turns : List Turn) :
    Attested ((start logoKey startTime).run turns).1 ((start logoKey startTime).run turns).2
      ((start logoKey startTime).deeds turns) := by
  simpa using (attested_start logoKey startTime).run turns

/-- A turn keeps what a report is made with. -/
theorem take_update (p : Presence) (turn : Turn) :
    update (p.take turn).1.logoKey (p.take turn).1.startTime = update p.logoKey p.startTime := by
  fun_cases take p turn with
  | case3 =>
    fun_cases step p with
    | case3 => grind [weigh]
    | _ => rfl
  | _ => rfl

/-- What a report is made with stays the same. -/
theorem run_update (p : Presence) (turns : List Turn) :
    update (p.run turns).1.logoKey (p.run turns).1.startTime = update p.logoKey p.startTime := by
  induction turns generalizing p with
  | nil => rfl
  | cons turn turns ih => rw [run, ih, take_update]

/-- A deed that one kind of turn comes to, and no other, is done in the turns of that kind. -/
theorem mem_deeds {d : Deed} {turn : Turn} (h : ∀ p turn', d = deed p turn' ↔ turn = turn') :
    d ∈ p.deeds turns ↔ turn ∈ turns := by
  induction turns generalizing p with
  | nil => simp [deeds]
  | cons turn' turns ih => rw [deeds, List.mem_cons, List.mem_cons, ih, h]

/-- What is published in some turns. -/
theorem mem_deeds_publish : .publish s ∈ p.deeds turns ↔ .publish s ∈ turns :=
  mem_deeds fun p turn => by cases turn <;> grind [deed]

/-- Whether the thread is told to stop in some turns. -/
theorem mem_deeds_halt : .halt ∈ p.deeds turns ↔ .halt ∈ turns :=
  mem_deeds fun p turn => by cases turn <;> grind [deed]

/-- Whether a snapshot is the blank one or was published. -/
def Published (ds : List Deed) (s : Snapshot) : Prop := s = .blank ∨ .publish s ∈ ds

/-- What was published stays so. -/
theorem Published.append (h : Published ds s) (after : List Deed) : Published (ds ++ after) s :=
  h.imp id fun hmem => List.mem_append_left after hmem

/-- All that is noted was published, if it is not blank. -/
theorem published_viewOf (ds : List Deed) : Published ds (viewOf ds).latest ∧
    Published ds (viewOf ds).seen ∧ ∀ s ∈ polled ds, Published ds s := by
  induction ds using List.reverseRecOn with
  | nil => exact ⟨.inl rfl, .inl rfl, nofun⟩
  | append_singleton ds d ih =>
    obtain ⟨hlatest, hseen, hpolled⟩ := ih
    rw [polled, viewOf_concat]
    have hkept : Published (ds ++ [d]) (viewOf ds).latest ∧ Published (ds ++ [d]) (viewOf ds).seen ∧
        ∀ s ∈ polled ds, Published (ds ++ [d]) s :=
      ⟨hlatest.append [d], hseen.append [d], fun s hs => (hpolled s hs).append [d]⟩
    cases d with
    | publish s => exact ⟨.inr List.mem_concat_self, hkept.2⟩
    | look => exact ⟨hkept.1, hkept.1, hkept.2.2⟩
    | weigh =>
      refine ⟨hkept.1, hkept.2.1, fun s hs => ?_⟩
      rcases List.mem_append.mp hs with hs | hs
      · exact hkept.2.2 s hs
      · rw [List.mem_singleton.mp hs]
        exact hkept.2.1
    | _ => exact hkept

/-- News were published, and after the intro. -/
theorem published_of_mem_news (h : s ∈ news (polled (p.deeds turns))) :
    s.introFinished = true ∧ .publish s ∈ turns := by
  obtain ⟨hmem, hintro⟩ := mem_of_mem_news h
  refine ⟨hintro, ?_⟩
  rcases (published_viewOf _).2.2 s hmem with rfl | hpublish
  · cases hintro
  · exact mem_deeds_publish.mp hpublish

/-- A snapshot is the latest one, the one that was seen last and the one that was polled last. -/
structure View.Holds (v : View) (s : Snapshot) : Prop where
  latest_eq : v.latest = s
  seen_eq : v.seen = s
  polled_eq : v.polled.getLast? = some s

/-- What every deed but a publication keeps is kept as long as nothing is published. -/
theorem viewOf_append_kept (P : View → Prop) (before : List Deed)
    (hstep : ∀ v d, (∀ s, d ≠ .publish s) → P v → P (v.after d))
    (hafter : ∀ s, .publish s ∉ after) (h : P (viewOf before)) :
    P (viewOf (before ++ after)) := by
  induction after using List.reverseRecOn with
  | nil => rwa [List.append_nil]
  | append_singleton after d ih =>
    simp only [List.mem_append, List.mem_singleton, not_or] at hafter
    rw [← List.append_assoc, viewOf_concat]
    exact hstep _ d (fun s hs => (hafter s).2 hs.symm) (ih fun s => (hafter s).1)

/-- The latest snapshot stays the latest as long as nothing is published. -/
theorem latest_append (h : (viewOf before).latest = s) (hafter : ∀ s, .publish s ∉ after) :
    (viewOf (before ++ after)).latest = s := by
  refine viewOf_append_kept (fun v => v.latest = s) before ?_ hafter h
  intro v d hd hlatest
  cases d with
  | publish s => exact absurd rfl (hd s)
  | _ => exact hlatest

/-- The latest snapshot is the one that was seen once the thread has looked. -/
theorem seen_append (h : (viewOf before).latest = s) (hafter : ∀ s, .publish s ∉ after)
    (hlook : .look ∈ after) : (viewOf (before ++ after)).seen = s := by
  obtain ⟨a, b, rfl⟩ := List.append_of_mem hlook
  simp only [List.mem_append, List.mem_cons, not_or] at hafter
  have hlatest := latest_append h fun s => (hafter s).1
  have hview : (viewOf (before ++ a ++ [.look])).latest = s ∧
      (viewOf (before ++ a ++ [.look])).seen = s := by
    rw [viewOf_concat]
    exact ⟨hlatest, hlatest⟩
  rw [← List.append_assoc, List.append_cons]
  refine (viewOf_append_kept (fun v => v.latest = s ∧ v.seen = s) _ ?_
    (fun s => (hafter s).2.2) hview).2
  intro v d hd hv
  cases d with
  | publish s => exact absurd rfl (hd s)
  | look => exact ⟨hv.1, hv.1⟩
  | _ => exact hv

/-- A snapshot that is published last, looked at and then weighed is what was polled last. -/
theorem getLast?_polled (hafter : ∀ s, .publish s ∉ after)
    (hpoll : List.Sublist [.look, .weigh] after) :
    (polled (before ++ .publish s :: after)).getLast? = some s := by
  obtain ⟨a, b, rfl, hlook, hweigh⟩ := List.cons_sublist_iff.mp hpoll
  obtain ⟨b, c, rfl⟩ := List.append_of_mem (List.singleton_sublist.mp hweigh)
  have hpublished : (viewOf (before ++ [.publish s])).latest = s := by
    rw [viewOf_concat, View.after]
  simp only [List.mem_append, List.mem_cons, not_or] at hafter
  have hab : ∀ s, .publish s ∉ a ++ b := fun s => by simp [hafter s]
  have hlatest := latest_append hpublished hab
  have hseen := seen_append hpublished hab (List.mem_append_left b hlook)
  have hview : (viewOf (before ++ [.publish s] ++ (a ++ b) ++ [.weigh])).Holds s := by
    rw [viewOf_concat]
    exact ⟨hlatest, hseen, by rw [View.after, List.getLast?_concat, hseen]⟩
  have heq : before ++ .publish s :: (a ++ (b ++ .weigh :: c)) =
      before ++ [.publish s] ++ (a ++ b) ++ [.weigh] ++ c := by simp
  rw [heq]
  refine (viewOf_append_kept (View.Holds · s) _ ?_ (fun s => (hafter s).2.2.2)
    hview).polled_eq
  intro v d hd hv
  cases d with
  | publish s => exact absurd rfl (hd s)
  | look => exact ⟨hv.latest_eq, hv.latest_eq, hv.polled_eq⟩
  | weigh => exact ⟨hv.latest_eq, hv.seen_eq, by rw [View.after, List.getLast?_concat, hv.seen_eq]⟩
  | _ => exact hv

/-- How many steps are left once the thread is told not to go on. -/
def Stage.stepsLeft : Stage → Nat
  | .looking => 4
  | .weighing _ => 3
  | .asking => 2
  | .leaving => 1
  | .gone => 0

/-- No stage is further from the end than four steps. -/
theorem Stage.stepsLeft_le (stage : Stage) : stage.stepsLeft ≤ 4 := by
  cases stage <;> simp [stepsLeft]

/-- A thread that has no steps left is gone. -/
theorem Stage.eq_gone {stage : Stage} (h : stage.stepsLeft = 0) : stage = .gone := by
  cases stage <;> first | rfl | cases h

/-- A thread that is told not to go on comes nearer to its end with each step. -/
theorem take_halted (h : p.running = false) (turn : Turn) :
    (p.take turn).1.running = false ∧
      (p.take turn).1.stage.stepsLeft = p.stage.stepsLeft - [turn].count .step := by
  cases turn with
  | publish s => exact ⟨h, rfl⟩
  | halt => exact ⟨rfl, rfl⟩
  | step =>
    rw [take]
    fun_cases step p with
    | case3 s hs => grind [weigh, Stage.stepsLeft]
    | _ => grind [Stage.stepsLeft]

/-- It comes nearer by as many steps as it takes. -/
theorem run_halted (h : p.running = false) (turns : List Turn) :
    (p.run turns).1.stage.stepsLeft = p.stage.stepsLeft - turns.count .step := by
  induction turns generalizing p with
  | nil => rfl
  | cons turn turns ih =>
    obtain ⟨hrunning, hsteps⟩ := take_halted h turn
    have hcount : (turn :: turns).count .step = [turn].count .step + turns.count .step := by
      rw [← List.singleton_append, List.count_append]
    rw [run, ih hrunning, hsteps, hcount, Nat.sub_sub]

/-- Some turns lead where their parts lead one after the other. -/
theorem fst_run_append (p : Presence) (a b : List Turn) :
    (p.run (a ++ b)).1 = ((p.run a).1.run b).1 := by
  induction a generalizing p with
  | nil => rfl
  | cons turn a ih => exact ih _

/-- A thread that is told to stop has gone after four more steps. -/
theorem stage_run_halt (p : Presence) (before after : List Turn) (h : 4 ≤ after.count .step) :
    (p.run (before ++ .halt :: after)).1.stage = .gone := by
  have hhalted : ((p.run before).1.take .halt).1.running = false := rfl
  have hleft := run_halted hhalted after
  have hfirst := Stage.stepsLeft_le ((p.run before).1.take .halt).1.stage
  refine Stage.eq_gone ?_
  rw [fst_run_append]
  exact hleft.trans (by omega)

/-- What is reported in some turns is reported in their parts, one after the other. -/
theorem snd_run_append (p : Presence) (a b : List Turn) :
    (p.run (a ++ b)).2 = (p.run a).2 ++ ((p.run a).1.run b).2 := by
  induction a generalizing p with
  | nil => rfl
  | cons turn a ih =>
    have hcons (turns : List Turn) : (p.run (turn :: turns)).2 =
        (p.take turn).2 ++ ((p.take turn).1.run turns).2 := rfl
    rw [List.cons_append, hcons, hcons, ih, List.append_assoc]
    rfl

/-- A presence that is to take a step of this number, and the step in which it asks for the last
time. -/
structure InStep (p : Presence) (n : Nat) (last : Option Nat) : Prop where
  running_eq : p.running = last.isNone
  deed_eq : p.deed .step = duty last n
  asks (k : Nat) (h : last = some k) : k % 3 = 0 ∧ k < n + 3

/-- At the start the thread is to take its first step. -/
theorem inStep_start (logoKey : String) (startTime : Nat) :
    InStep (start logoKey startTime) 0 none := ⟨rfl, rfl, nofun⟩

namespace InStep

/-- A publication leaves the thread where it is. -/
theorem publish (h : InStep p n last) (s : Snapshot) : InStep (p.publish s) n last :=
  ⟨h.running_eq, h.deed_eq, h.asks⟩

/-- A thread that is told to stop asks once more, and not again. -/
theorem halt (h : InStep p n last) : InStep p.halt n (last.or (some (nextAsk n))) := by
  cases last with
  | some k => exact ⟨rfl, h.deed_eq, h.asks⟩
  | none =>
    have hnext : n ≤ nextAsk n := by
      unfold nextAsk
      omega
    refine ⟨rfl, h.deed_eq.trans (if_pos hnext).symm, ?_⟩
    rintro k ⟨⟩
    unfold nextAsk
    omega

/-- What the thread does next, by what it does now. -/
theorem deed_step (p : Presence) : p.step.1.deed .step =
    match p.deed .step with
    | .ask => if p.running then .look else .leave
    | .look => .weigh
    | .weigh => .ask
    | _ => .rest := by
  cases hstage : p.stage with
  | asking => cases hrunning : p.running <;> simp [deed, Presence.step, hstage, hrunning]
  | weighing s => grind [deed, Presence.step, weigh]
  | _ => simp [deed, Presence.step, hstage]

/-- A step leaves the order to the thread as it is. -/
theorem running_step (p : Presence) : p.step.1.running = p.running := by
  rw [step]
  cases p.stage with
  | weighing s => grind [weigh]
  | _ => rfl

/-- After a duty comes the next one. -/
theorem duty_succ (last : Option Nat) (n : Nat)
    (hasks : ∀ k, last = some k → k % 3 = 0 ∧ k < n + 3) : duty last (n + 1) =
      match duty last n with
      | .ask => if last.isNone then .look else .leave
      | .look => .weigh
      | .weigh => .ask
      | _ => .rest := by
  cases last with
  | none => grind [duty, roundDeed]
  | some k =>
    obtain ⟨hround, hnear⟩ := hasks k rfl
    grind [duty, roundDeed]

/-- The thread takes a step. -/
theorem step (h : InStep p n last) : InStep p.step.1 (n + 1) last := by
  refine ⟨(running_step p).trans h.running_eq, ?_, fun k hk => ?_⟩
  · rw [deed_step, h.deed_eq, h.running_eq, duty_succ last n h.asks]
  · obtain ⟨hround, hnear⟩ := h.asks k hk
    exact ⟨hround, by omega⟩

end InStep

/-- The thread does what can be read off the turns. -/
theorem InStep.deeds_eq (h : InStep p n last) (turns : List Turn) :
    p.deeds turns = duties n last turns := by
  induction turns generalizing p n last with
  | nil => rfl
  | cons turn turns ih =>
    cases turn with
    | publish s => exact congrArg _ (ih (h.publish s))
    | halt => exact congrArg _ (ih h.halt)
    | step => exact congrArg₂ List.cons h.deed_eq (ih h.step)

/-- As long as the thread is not told to stop, its duties go on where they were. -/
theorem duties_append {a : List Turn} (ha : .halt ∉ a) (b : List Turn) :
    duties n last (a ++ b) = duties n last a ++ duties (n + a.count .step) last b := by
  induction a generalizing n with
  | nil => rfl
  | cons turn a ih =>
    rw [List.mem_cons, not_or] at ha
    cases turn with
    | publish s =>
      rw [List.cons_append, duties, ih ha.2, duties, List.cons_append,
        List.count_cons_of_ne (by simp)]
    | halt => exact absurd rfl ha.1
    | step =>
      rw [List.cons_append, duties, ih ha.2, duties, List.cons_append, List.count_cons_self,
        Nat.add_assoc, Nat.add_comm 1]

/-- What is published can be read off as it is. -/
theorem mem_duties_publish : .publish s ∈ duties n last turns ↔ .publish s ∈ turns := by
  induction turns generalizing n last with
  | nil => simp [duties]
  | cons turn turns ih =>
    cases turn with
    | publish other => simp [duties, ih]
    | halt => simp [duties, ih]
    | step =>
      have hduty : .publish s ≠ duty last n := by
        cases last with
        | none => grind [duty, roundDeed]
        | some k => grind [duty, roundDeed]
      simp [duties, ih, hduty]

/-- The steps of a thread that is not told to stop are those of its rounds, one after the other. -/
theorem sublist_duties (h : .halt ∉ turns) :
    List.Sublist ((List.range' n (turns.count .step)).map roundDeed) (duties n none turns) := by
  induction turns generalizing n with
  | nil => exact List.Sublist.slnil
  | cons turn turns ih =>
    rw [List.mem_cons, not_or] at h
    cases turn with
    | publish s =>
      rw [List.count_cons_of_ne (by simp), duties]
      exact (ih h.2).cons _
    | halt => exact absurd rfl h.1
    | step =>
      rw [List.count_cons_self, List.range'_succ, List.map_cons, duties]
      exact (ih h.2).cons_cons _

/-- In four steps of its rounds the thread looks and then weighs, wherever it begins. -/
theorem poll_sublist_duties (h : .halt ∉ turns) (hsteps : 4 ≤ turns.count .step) :
    List.Sublist [.look, .weigh] (duties n none turns) := by
  have hfour : List.Sublist ((List.range' n 4).map roundDeed)
      ((List.range' n (turns.count .step)).map roundDeed) := by
    obtain ⟨k, hk⟩ := Nat.exists_eq_add_of_le hsteps
    rw [hk, ← List.range'_append_1, List.map_append]
    exact List.sublist_append_left _ _
  have hpoll : List.Sublist [.look, .weigh] ((List.range' n 4).map roundDeed) := by
    have hrange : List.range' n 4 = [n, n + 1, n + 2, n + 3] := rfl
    have hcases : n % 3 = 0 ∨ n % 3 = 1 ∨ n % 3 = 2 := by omega
    rw [hrange]
    rcases hcases with hn | hn | hn
    · have hdeeds : [n, n + 1, n + 2, n + 3].map roundDeed = [.ask, .look, .weigh, .ask] := by
        simp [roundDeed, hn, Nat.add_mod]
      rw [hdeeds]
      decide
    · have hdeeds : [n, n + 1, n + 2, n + 3].map roundDeed = [.look, .weigh, .ask, .look] := by
        simp [roundDeed, hn, Nat.add_mod]
      rw [hdeeds]
      decide
    · have hdeeds : [n, n + 1, n + 2, n + 3].map roundDeed = [.weigh, .ask, .look, .weigh] := by
        simp [roundDeed, hn, Nat.add_mod]
      rw [hdeeds]
      decide
  exact (hpoll.trans hfour).trans (sublist_duties h)

/-- A round of a running thread that nothing comes between: it asks, looks and weighs. -/
theorem deeds_poll (hrunning : p.running = true) (hstage : p.stage = .asking) :
    p.deeds [.step, .step, .step] = [.ask, .look, .weigh] := by
  have hstep : InStep p 0 none := ⟨hrunning, by rw [deed, hstage]; rfl, nofun⟩
  exact hstep.deeds_eq _

/-- Such a round weighs the latest snapshot. -/
theorem poll_eq (hrunning : p.running = true) (hstage : p.stage = .asking) :
    p.poll = p.weigh p.published := by
  obtain ⟨logoKey, startTime, published, reported, running, stage⟩ := p
  cases hrunning
  cases hstage
  exact Prod.ext rfl (List.append_nil _)

/-- A round after the publication of a snapshot leaves it as the last one reported, if it came after
the intro. -/
theorem reported_poll_publish (hrunning : p.running = true) (hstage : p.stage = .asking)
    (hintro : s.introFinished = true) : (p.publish s).poll.1.reported = some s := by
  rw [poll_eq (p := p.publish s) hrunning hstage, weigh]
  split
  · next hdue =>
    have hsame : (!s.introFinished || p.reported == some s) = true := hdue
    rw [hintro] at hsame
    exact beq_iff_eq.mp hsame
  · rfl

/-- The thread does what can be read off the turns alone. Whichever way these fall, the updates are
the snapshots that were polled after the intro, without those that repeat the last one reported, and
all of them were published. A poll after the last publication of a snapshot leaves it as the last
one reported, and four steps are enough for a poll as long as the thread is not told to stop. The
report is taken back once, behind all updates, and it is taken back if the thread was told to stop
and has taken four more steps, and only if it was told to stop. -/
theorem told_run (logoKey : String) (startTime : Nat) (turns : List Turn) :
    (start logoKey startTime).deeds turns = duties 0 none turns ∧
      ((start logoKey startTime).run turns).2 =
        (news (polled (duties 0 none turns))).map (update logoKey startTime) ++
          (if .leave ∈ duties 0 none turns then [.clear] else []) ∧
      (∀ s ∈ news (polled (duties 0 none turns)), s.introFinished = true ∧ .publish s ∈ turns) ∧
      (∀ before s after, duties 0 none turns = before ++ .publish s :: after →
        (∀ other, .publish other ∉ after) → s.introFinished = true →
        List.Sublist [.look, .weigh] after →
        ((start logoKey startTime).run turns).1.reported = some s ∧
          (news (polled (duties 0 none turns))).getLast? = some s) ∧
      (∀ before s during after, turns = before ++ .publish s :: (during ++ after) →
        (∀ other, .publish other ∉ during ++ after) → s.introFinished = true →
        .halt ∉ before ++ during → 4 ≤ during.count .step →
        ((start logoKey startTime).run turns).1.reported = some s ∧
          (news (polled (duties 0 none turns))).getLast? = some s) ∧
      (.leave ∈ duties 0 none turns → .halt ∈ turns) ∧
      ∀ before after, turns = before ++ .halt :: after → 4 ≤ after.count .step →
        .leave ∈ duties 0 none turns := by
  have hdeeds := (inStep_start logoKey startTime).deeds_eq turns
  have h := attested_run logoKey startTime turns
  rw [hdeeds] at h
  have hpolls : ∀ before s after, duties 0 none turns = before ++ .publish s :: after →
      (∀ other, .publish other ∉ after) → s.introFinished = true →
      List.Sublist [.look, .weigh] after →
      ((start logoKey startTime).run turns).1.reported = some s ∧
        (news (polled (duties 0 none turns))).getLast? = some s := by
    intro before s after heq hlast hintro hpoll
    have hpolled : (polled (duties 0 none turns)).getLast? = some s := by
      rw [heq]
      exact getLast?_polled hlast hpoll
    have hnews := getLast?_news hintro hpolled
    refine ⟨?_, hnews⟩
    rw [h.reported_eq, ← getLast?_destutter]
    exact hnews
  refine ⟨hdeeds, ?_, ?_, hpolls, ?_, ?_, ?_⟩
  · rw [h.told_eq, run_update]
    rfl
  · rw [← hdeeds]
    exact fun s hs => published_of_mem_news hs
  · rintro before s during after rfl hlast hintro hrunning hsteps
    -- Among any four steps of a thread that goes on a look comes before a weighing.
    rw [List.mem_append, not_or] at hrunning
    refine hpolls (duties 0 none before) s
      (duties (0 + before.count .step) none (during ++ after)) ?_ (fun other hother => ?_) hintro ?_
    · rw [duties_append hrunning.1, duties]
    · exact hlast other (mem_duties_publish.mp hother)
    · rw [duties_append hrunning.2]
      exact (poll_sublist_duties hrunning.2 hsteps).trans (List.sublist_append_left _ _)
  · intro hleave
    have hhalt := h.running_eq.mp (h.halted (.inr (h.gone_iff.mpr hleave)))
    rw [← hdeeds] at hhalt
    exact mem_deeds_halt.mp hhalt
  · rintro before after rfl hcount
    exact h.gone_iff.mp (stage_run_halt _ before after hcount)

/-- The first snapshot is published and polled, the second one is looked at before the thread is
told to stop and weighed after that. -/
theorem told_run_two :
    ((start "logo" 7).run [.publish ⟨false, true, none, false⟩, .step, .step, .step,
        .publish ⟨true, true, none, false⟩, .step, .step, .halt, .step, .step, .step, .step]) =
      (⟨"logo", 7, ⟨true, true, none, false⟩, some ⟨true, true, none, false⟩, false, .gone⟩,
        [.update ⟨"In main menu", none, "logo", 7⟩,
          .update ⟨"Playing scenario", some "Unknown scenario", "logo", 7⟩, .clear]) ∧
    (news (polled (duties 0 none [.publish ⟨false, true, none, false⟩, .step, .step, .step,
        .publish ⟨true, true, none, false⟩, .step, .step, .halt, .step, .step, .step,
        .step]))).getLast? = some ⟨true, true, none, false⟩ ∧
    .leave ∈ duties 0 none [.publish ⟨false, true, none, false⟩, .step, .step, .step,
      .publish ⟨true, true, none, false⟩, .step, .step, .halt, .step, .step, .step, .step] := by
  obtain ⟨-, -, -, hpoll, -, -, hstop⟩ := told_run "logo" 7 [.publish ⟨false, true, none, false⟩,
    .step, .step, .step, .publish ⟨true, true, none, false⟩, .step, .step, .halt, .step, .step,
    .step, .step]
  refine ⟨rfl, ?_, ?_⟩
  · exact (hpoll [.publish ⟨false, true, none, false⟩, .ask, .look, .weigh]
      ⟨true, true, none, false⟩ [.ask, .look, .halt, .weigh, .ask, .leave, .rest] rfl
      (by simp) rfl (by decide)).2
  · exact hstop [.publish ⟨false, true, none, false⟩, .step, .step, .step,
      .publish ⟨true, true, none, false⟩, .step, .step] [.step, .step, .step, .step] rfl (by decide)

/-- Wherever the thread is when it is stopped, it is gone then, and the report was taken back once,
behind all updates. -/
theorem told_stop (logoKey : String) (startTime : Nat) (turns : List Turn) :
    let p := ((start logoKey startTime).run turns).1
    p.stop.1.stage = .gone ∧
      ((start logoKey startTime).run turns).2 ++ p.stop.2 =
        (news (polled (duties 0 none (turns ++ [.halt, .step, .step, .step, .step])))).map
          (update logoKey startTime) ++ [.clear] := by
  intro p
  have h := attested_run logoKey startTime (turns ++ [.halt, .step, .step, .step, .step])
  rw [(inStep_start logoKey startTime).deeds_eq] at h
  have hgone := stage_run_halt (start logoKey startTime) turns [.step, .step, .step, .step]
    (by decide)
  have hstop : p.stop.1 =
      ((start logoKey startTime).run (turns ++ [.halt, .step, .step, .step, .step])).1 :=
    (fst_run_append _ _ _).symm
  rw [hstop]
  refine ⟨hgone, ?_⟩
  rw [stop, ← snd_run_append, h.told_eq, run_update, if_pos (h.gone_iff.mp hgone)]
  rfl

end Presence

end VisualNovel

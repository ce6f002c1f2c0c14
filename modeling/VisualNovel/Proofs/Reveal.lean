import VisualNovel.Reveal

/-!
# How texts appear

Whatever time, speed and texts are given to it, a text appears by at most one character a step
and never beyond its end. What is seen of it is a beginning that ends between two characters,
and it is the whole text exactly if the text is complete. After a step the gauge is never over
its threshold, since an empty gauge is not; so a step that is paused changes nothing. This is
all that is needed of the arithmetic of the gauge.
-/

namespace VisualNovel.Reveal

/-- What can happen to a text that appears: it begins anew, or it is given some time. -/
inductive Event where
  | reset
  | step (text : String) (dt : Float32) (speed : UInt32) (paused : Bool)

/-- How far the text has appeared after an event. -/
def after (r : Reveal) : Event → Reveal
  | .reset => start
  | .step text dt speed paused => r.step text dt speed paused

/-- How far the text has appeared after some events, one after the other. -/
def ofEvents (events : List Event) : Reveal := events.foldl after start

/-- The last event happens after the others. -/
theorem ofEvents_concat (events : List Event) (event : Event) :
    ofEvents (events ++ [event]) = (ofEvents events).after event := by
  rw [ofEvents, List.foldl_append, List.foldl_cons, List.foldl_nil, ofEvents]

variable {r : Reveal}

/-- An empty gauge is not over the threshold. -/
theorem not_threshold_lt_zero : ¬ (0 : Float32) > threshold := by decide

/-- The gauge is not over its threshold. -/
def Calm (r : Reveal) : Prop := ¬ r.gauge > threshold

/-- A step leaves a calm gauge, and at most one more character of the text appears. -/
theorem exists_step_eq (r : Reveal) (text : String) (dt : Float32) (speed : UInt32)
    (paused : Bool) :
    ∃ gauge revealed, r.step text dt speed paused = ⟨gauge, revealed⟩ ∧
      Calm ⟨gauge, revealed⟩ ∧
      (revealed = r.revealed ∨ r.revealed < text.length ∧ revealed = r.revealed + 1) := by
  rw [step]
  split
  · refine ⟨0, _, rfl, not_threshold_lt_zero, ?_⟩
    by_cases hmore : r.revealed < text.length
    · exact Or.inr ⟨hmore, if_pos hmore⟩
    · exact Or.inl (if_neg hmore)
  · next hcalm => exact ⟨_, _, rfl, hcalm, Or.inl rfl⟩

/-- Before a text appears the gauge is not over its threshold. -/
theorem calm_start : start.Calm := not_threshold_lt_zero

/-- After every event the gauge is not over its threshold. -/
theorem calm_after (r : Reveal) (event : Event) : (r.after event).Calm := by
  cases event with
  | reset => exact calm_start
  | step text dt speed paused =>
    obtain ⟨gauge, revealed, hstep, hcalm, _⟩ := r.exists_step_eq text dt speed paused
    rw [after, hstep]
    exact hcalm

/-- The gauge is never over its threshold between two steps. -/
theorem calm_ofEvents (events : List Event) : (ofEvents events).Calm := by
  rcases List.eq_nil_or_concat events with rfl | ⟨before, event, rfl⟩
  · exact calm_start
  · rw [List.concat_eq_append, ofEvents_concat]
    exact calm_after _ event

/-- A paused step changes nothing, where the gauge is not over its threshold. -/
theorem Calm.step_paused (h : r.Calm) (text : String) (dt : Float32) (speed : UInt32) :
    r.step text dt speed true = r := by
  rw [step, charge, if_pos rfl]
  exact if_neg h

/-- How far a step can lead. -/
structure Advances (text : String) (before after : Reveal) : Prop where
  kept : before.revealed ≤ after.revealed
  slow : after.revealed ≤ before.revealed + 1
  bounded : after.revealed ≤ max before.revealed text.length

/-- A step lets a text appear further, or leaves it. -/
theorem advances_step (r : Reveal) (text : String) (dt : Float32) (speed : UInt32)
    (paused : Bool) : Advances text r (r.step text dt speed paused) := by
  obtain ⟨gauge, revealed, hstep, _, hstay | ⟨hmore, hnext⟩⟩ :=
    r.exists_step_eq text dt speed paused
  · subst hstay
    rw [hstep]
    exact ⟨Nat.le_refl _, Nat.le_succ _, Nat.le_max_left _ _⟩
  · subst hnext
    rw [hstep]
    exact ⟨Nat.le_succ _, Nat.le_refl _, Nat.le_trans hmore (Nat.le_max_right _ _)⟩

/-- The number of bytes before a character of a text. -/
def offset (text : String) (n : Nat) : Nat := (String.ofList (text.toList.take n)).utf8ByteSize

/-- What is seen of a text. -/
structure Shows (r : Reveal) (text shown : String) : Prop where
  /-- It is the beginning of the text. -/
  beginning : ∃ hidden, text = shown ++ hidden
  /-- It has as many characters as have appeared, or all. -/
  length_eq : shown.length = min r.revealed text.length
  /-- Its bytes are those of the text before the next character. -/
  bytes_eq : shown.toByteArray = text.toByteArray.extract 0 (offset text r.revealed)
  /-- The text is cut between two characters. -/
  boundary : (⟨offset text r.revealed⟩ : String.Pos.Raw).IsValid text
  /-- It is the whole text exactly if the text is complete. -/
  whole : shown = text ↔ r.isComplete text = true

/-- What has appeared of a text and what has not make up the text. -/
theorem visible_append (r : Reveal) (text : String) :
    r.visible text ++ String.ofList (text.toList.drop r.revealed) = text := by
  rw [visible, ← String.ofList_append, List.take_append_drop, String.ofList_toList]

/-- So many characters have appeared as are revealed, but no more than there are. -/
theorem length_visible (r : Reveal) (text : String) :
    (r.visible text).length = min r.revealed text.length := by
  rw [visible, String.length_ofList, List.length_take, String.length_toList]

/-- All of a text is seen exactly if the text is complete. -/
theorem visible_eq_iff (r : Reveal) (text : String) :
    r.visible text = text ↔ r.isComplete text = true := by
  rw [isComplete, decide_eq_true_eq]
  constructor
  · intro h
    have hlength := r.length_visible text
    rw [h] at hlength
    omega
  · intro h
    rw [visible, List.take_of_length_le (by rwa [String.length_toList]), String.ofList_toList]

/-- What has appeared of a text is what shows of it. -/
theorem shows_visible (r : Reveal) (text : String) : r.Shows text (r.visible text) := by
  have hall : r.visible text ++ String.ofList (text.toList.drop r.revealed) = text :=
    r.visible_append text
  have hsize : (r.visible text).toByteArray.size = offset text r.revealed := rfl
  constructor
  case beginning => exact ⟨_, hall.symm⟩
  case length_eq => exact r.length_visible text
  case bytes_eq =>
    have hbytes := congrArg String.toByteArray hall
    rw [String.toByteArray_append] at hbytes
    rw [← hbytes, ByteArray.extract_append_eq_left hsize.symm]
  case boundary =>
    exact String.Pos.Raw.isValid_iff_exists_append.mpr ⟨_, _, hall.symm, rfl⟩
  case whole => exact r.visible_eq_iff text

example : (⟨0, 2⟩ : Reveal).visible "Héllo" = "Hé" ∧ offset "Héllo" 2 = 3 := by decide

end VisualNovel.Reveal

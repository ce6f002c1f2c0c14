import VisualNovel.Proofs.Scenario.RoundTrip

/-!
# Simple scenarios in the advanced layout

A game that is switched to the advanced layout keeps the scenarios that it has. Whatever fits
a position in the simple layout fits it in the advanced one as well. Only speakers with more
than five fields are read differently there, and a simple scenario is never written with
such lines; the advanced header would need four fields, and the overlay a line more.
-/

namespace VisualNovel.Scenario

/-- What fits in the narrow layout fits in the wide one. -/
theorem FitsAt.advanced {position count : Nat} (h : FitsAt .simple position count) :
    FitsAt .advanced position count := by
  rcases h with ⟨hp, hc | ⟨hl, _⟩⟩ | h | h | h | ⟨_, hl, _⟩
  · exact Or.inl ⟨hp, Or.inl hc⟩
  · cases hl
  · exact Or.inr (Or.inl h)
  · exact Or.inr (Or.inr (Or.inl h))
  · exact Or.inr (Or.inr (Or.inr (Or.inl h)))
  · cases hl

section Body

variable {body : List (List String)}

/-- Where all lines fit in the simple layout, the advanced one finds the same in their
fields. -/
theorem fieldAt_advanced
    (hfits : ∀ i fields, body[i]? = some fields → FitsAt .simple i fields.length)
    (position i : Nat) :
    fieldAt .advanced body position i = fieldAt .simple body position i := by
  cases h : body[position]? with
  | none => rw [fieldAt_of_none h, fieldAt_of_none h]
  | some fields =>
    have hsimple := hfits position fields h
    rw [fieldAt_of_some h, fieldAt_of_some h, if_pos hsimple, if_pos hsimple.advanced]

/-- A line has no more fields than all lines are allowed to have. -/
theorem countAt_le {n : Nat} (h : ∀ fields ∈ body, fields.length ≤ n) (position : Nat) :
    countAt body position ≤ n := by
  rw [countAt]
  cases hp : body[position]? with
  | none => exact Nat.zero_le n
  | some fields => exact h fields (List.mem_of_getElem? hp)

/-- If no line has enough fields for a portrait in layers, both layouts tell the same scene. -/
theorem sceneOf_advanced
    (hfits : ∀ i fields, body[i]? = some fields → FitsAt .simple i fields.length)
    (hnarrow : ∀ fields ∈ body, fields.length ≤ 5) :
    sceneOf .advanced body = sceneOf .simple body := by
  have hfield := fieldAt_advanced hfits
  have hspeaker (position : Nat) :
      speakerOf .advanced body position = speakerOf .simple body position := by
    have hlayered : ¬ 5 < countAt body position :=
      Nat.not_lt.mpr (countAt_le hnarrow position)
    simp [speakerOf, hfield, hlayered]
  have hchoice (position : Nat) :
      choiceOf .advanced body position = choiceOf .simple body position := by
    simp [choiceOf, hfield]
  simp [sceneOf, hfield, hspeaker, hchoice]

end Body

/-- Narrow lines that are read as a scene in the simple layout are so in the advanced one. -/
theorem ReadAs.advanced {lines : List String} {s : Scene} (h : ReadAs .simple lines s)
    (hnarrow : ∀ fields ∈ lines.map splitFields, fields.length ≤ 5) :
    ReadAs .advanced lines s where
  unmarked := h.unmarked
  fitting i fields hi := (h.fitting i fields hi).advanced
  assembled := by
    rw [assemble_eq_sceneOf, sceneOf_advanced h.fitting hnarrow, ← assemble_eq_sceneOf,
      h.assembled]

/-- No line of a simple block has more than three fields. -/
theorem length_le_of_mem_blockFields {s : Scene} {fields : List String}
    (h : fields ∈ blockFields .simple s) : fields.length ≤ 3 := by
  obtain ⟨values, hvalues, rfl⟩ := List.mem_map.mp h
  rw [List.length_map]
  rcases mem_sceneLines.mp hvalues with rfl | ⟨p, _, rfl⟩ | rfl | ⟨c, _, rfl⟩ | ⟨hl, _⟩
  · exact Nat.le_refl 3
  · exact Nat.le_refl 3
  · exact Nat.le_add_left 1 2
  · exact Nat.le_succ 2
  · cases hl

/-- The block of a scene that is storable in the simple layout is read as this scene in the
advanced one. -/
theorem readAs_advanced_blockBack {s : Scene} (h : Storable .simple s) :
    ReadAs .advanced (blockBack .simple s) s := by
  refine (readAs_blockBack h).advanced fun fields hfields => ?_
  rw [map_splitFields_blockBack h] at hfields
  exact Nat.le_trans (length_le_of_mem_blockFields hfields) (by decide)

/-- Scenes that come back in the simple layout also come back when what was written is read
in the advanced one; no line is skipped then, and no block left open. -/
theorem read_advanced_write_simple {scenes : List Scene}
    (h : Scenario.scenes .simple (write .simple scenes) = scenes) :
    read .advanced (write .simple scenes) = ⟨scenes, [], 0⟩ := by
  have hstorable : ∀ s ∈ scenes, Storable .simple s := storable_of_scenes_write h
  rw [read, lines_write fun s hs => (hstorable s hs).plain]
  exact ReadAs.readLines_blocks (fun s hs => readAs_advanced_blockBack (hstorable s hs)) 1

/-- A scene of a simple game: someone asks, and there are two answers. -/
def simpleScene : Scene := { Scene.blank with
  background := some "club"
  music := some ""
  sound := some "door"
  speakers := ⟨⟨some "Ann", some "ann", some "Stay?", none, none, none⟩, .blank, .blank, .blank⟩
  mainLine := some "Well..."
  choices := ⟨⟨some "Yes", none⟩, ⟨some "No", some "end.sc"⟩, .blank, .blank⟩ }

/-- Two scenes that come back from the simple layout, and so also in the advanced one. -/
theorem read_advanced_write_simple_simpleScene :
    Scenario.scenes .simple (write .simple [simpleScene, .blank]) = [simpleScene, .blank] ∧
      read .advanced (write .simple [simpleScene, .blank]) = ⟨[simpleScene, .blank], [], 0⟩ := by
  have hstorable : ∀ s ∈ [simpleScene, .blank], Storable .simple s := by decide
  have hsimple :
      Scenario.scenes .simple (write .simple [simpleScene, .blank]) = [simpleScene, .blank] := by
    rw [Scenario.scenes, read_write hstorable]
  exact ⟨hsimple, read_advanced_write_simple hsimple⟩

end VisualNovel.Scenario

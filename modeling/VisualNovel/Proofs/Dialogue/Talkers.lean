import VisualNovel.Dialogue
import VisualNovel.Proofs.Quartet

/-!
# Who talks in a scene

Those who talk are the speakers that have a line, in the order of their slots, and behind them
the main character if it has one. The dialogue of a scene follows from this one list: its
banner has their names, its text is their first line that is not empty, and in focus is the
main character, or else the first slot that talks. Only a main character that talks alone can
hide its name.
-/

namespace VisualNovel.Dialogue

variable {scene : Scene} {player : String}

/-- Whether the speaker in a slot has a line. -/
def Talks (scene : Scene) (slot : Nat) : Prop :=
  ∃ s, scene.speakers.get? slot = some s ∧ s.line.isSome = true

/-- Whether the main character has a line and nobody else has. -/
def Alone (scene : Scene) : Prop :=
  scene.mainLine.isSome = true ∧ ∀ slot, ¬ Talks scene slot

/-- One who talks: the name in the banner, and what is said. -/
structure Talker where
  name : String
  line : String
deriving DecidableEq, Repr

/-- All who talk in a scene, the main character last. A speaker without a name has an empty
one, and the main character has that of the player. -/
def talkersOf (scene : Scene) (player : String) : List Talker :=
  ((List.range Quartet.size).filterMap fun slot => (scene.speakers.get? slot).bind fun s =>
    s.line.map fun line => ⟨s.name.getD "", line⟩) ++
  (scene.mainLine.map fun line => ⟨player, line⟩).toList

/-- The first line that is not empty, or an empty one if there is none. -/
def firstLine : List String → String
  | [] => ""
  | line :: lines => if line = "" then firstLine lines else line

/-- What a dialogue is, said by those who talk in its scene. -/
structure Says (scene : Scene) (player : String) (d : Dialogue) : Prop where
  focus_main : d.focus = .mainCharacter ↔ scene.mainLine.isSome = true
  focus_speaker (slot : Nat) : d.focus = .speaker slot ↔
    scene.mainLine = none ∧ Talks scene slot ∧ ∀ earlier < slot, ¬ Talks scene earlier
  focus_nobody : d.focus = .nobody ↔ scene.mainLine = none ∧ ∀ slot, ¬ Talks scene slot
  hidden {kept : String} : Alone scene →
    firstLine ((talkersOf scene player).map (·.line)) = kept ++ "@" →
      d.banner = "" ∧ d.text = substituteName kept player
  shown : ¬ (Alone scene ∧
      ∃ kept, firstLine ((talkersOf scene player).map (·.line)) = kept ++ "@") →
    d.banner = "&".intercalate ((talkersOf scene player).map (·.name)) ∧
      d.text = substituteName (firstLine ((talkersOf scene player).map (·.line))) player

/-- A speaker is among the talkers of a scene just if it has a line. -/
theorem mem_talkers {slot : Nat} {s : Speaker} :
    (slot, s) ∈ talkers scene ↔ scene.speakers.get? slot = some s ∧ s.line.isSome = true := by
  simp only [talkers, List.mem_filter, List.mem_map, Speaker.talking]
  constructor
  · rintro ⟨⟨⟨t, i⟩, hmem, heq⟩, htalking⟩
    cases heq
    exact ⟨Quartet.mem_zipIdx.mp hmem, htalking⟩
  · rintro ⟨hs, htalking⟩
    exact ⟨⟨(s, slot), Quartet.mem_zipIdx.mpr hs, rfl⟩, htalking⟩

/-- A slot is among the talkers just if its speaker talks. -/
theorem exists_mem_talkers {slot : Nat} : (∃ s, (slot, s) ∈ talkers scene) ↔ Talks scene slot := by
  simp only [mem_talkers, Talks]

/-- Speakers talk in the order of their slots. -/
theorem pairwise_talkers (scene : Scene) : (talkers scene).Pairwise (·.1 < ·.1) :=
  (scene.speakers.pairwise_zipIdx.map (fun p : Speaker × Nat => (p.2, p.1))
    fun _ _ h => h).filter _

/-- A scene has no talkers just if nobody talks in any slot. -/
theorem talkers_eq_nil_iff : talkers scene = [] ↔ ∀ slot, ¬ Talks scene slot := by
  simp only [← exists_mem_talkers, List.eq_nil_iff_forall_not_mem, Prod.forall, not_exists]

/-- The first who talks is the one in the first slot that talks. -/
theorem head_talkers_iff {k slot : Nat} {s : Speaker} {rest : List (Nat × Speaker)}
    (h : talkers scene = (k, s) :: rest) :
    k = slot ↔ Talks scene slot ∧ ∀ earlier < slot, ¬ Talks scene earlier := by
  have hfirst : Talks scene k := exists_mem_talkers.mp ⟨s, by simp [h]⟩
  have hleast : ∀ j, Talks scene j → k ≤ j := by
    intro j hj
    obtain ⟨t, ht⟩ := exists_mem_talkers.mpr hj
    have hordered := pairwise_talkers scene
    rw [h, List.pairwise_cons] at hordered
    rw [h, List.mem_cons] at ht
    rcases ht with ht | ht
    · exact Nat.le_of_eq (congrArg Prod.fst ht).symm
    · exact Nat.le_of_lt (hordered.1 _ ht)
  constructor
  · rintro rfl
    exact ⟨hfirst, fun j hj htalks => absurd (hleast j htalks) (Nat.not_le_of_lt hj)⟩
  · rintro ⟨hslot, hbefore⟩
    refine Nat.le_antisymm (hleast slot hslot) (Nat.le_of_not_lt fun hlt => ?_)
    exact hbefore k hlt hfirst

/-- What is picked from all who talk in their slots is what is picked from the speakers. -/
theorem filterMap_talkers {β : Type} (scene : Scene) (f : Speaker → Option β) :
    (talkers scene).filterMap (fun t => f t.2) =
      scene.speakers.toList.filterMap fun s => if s.line.isSome then f s else none := by
  rw [talkers, List.filterMap_filter, List.filterMap_map]
  conv_rhs => rw [← List.zipIdx_map_fst 0 scene.speakers.toList, List.filterMap_map]
  rfl

/-- The lines of all who talk are the lines of the dialogue. -/
theorem map_line_talkersOf (scene : Scene) (player : String) :
    (talkersOf scene player).map (·.line) = linesOf scene := by
  rw [talkersOf, Quartet.filterMap_range, linesOf, filterMap_talkers, List.map_append,
    List.map_filterMap]
  congr 1
  · apply List.filterMap_congr
    intro s _
    cases s.line <;> rfl
  · cases scene.mainLine <;> rfl

/-- The names of all who talk are the names in the banner. -/
theorem map_name_talkersOf (scene : Scene) (player : String) :
    (talkersOf scene player).map (·.name) = namesOf scene player := by
  have hnames : (talkers scene).map (·.2.name.getD "") =
      (talkers scene).filterMap fun t => some (t.2.name.getD "") :=
    (congrFun List.filterMap_eq_map' (talkers scene)).symm
  rw [talkersOf, Quartet.filterMap_range, namesOf, hnames,
    filterMap_talkers scene fun s => some (s.name.getD ""), List.map_append, List.map_filterMap]
  congr 1
  · apply List.filterMap_congr
    intro s _
    cases s.line <;> rfl
  · rw [Scene.mainTalking]
    cases scene.mainLine <;> rfl

/-- The first line that is not empty is found by its search. -/
theorem firstLine_eq (lines : List String) : firstLine lines = (lines.find? (· ≠ "")).getD "" := by
  induction lines with
  | nil => rfl
  | cons line lines ih =>
    by_cases h : line = "" <;> simp [firstLine, h, ih]

/-- The text of a dialogue, before anything is done to it, is the first line that is said. -/
theorem firstLine_talkersOf (scene : Scene) (player : String) :
    firstLine ((talkersOf scene player).map (·.line)) = rawText scene := by
  rw [map_line_talkersOf, firstLine_eq, rawText]

/-- A text is another one with a sign behind it just if the sign is its last character. -/
theorem eq_append_sign_iff {raw kept : String} :
    raw = kept ++ "@" ↔
      raw.toList.getLast? = some '@' ∧ kept = String.ofList raw.toList.dropLast := by
  rw [← String.toList_inj, ← String.toList_inj, String.toList_append, String.toList_ofList]
  constructor
  · intro h
    simp [h]
  · rintro ⟨hlast, hkept⟩
    rw [hkept, String.toList_ofList]
    exact (List.dropLast_append_getLast? '@' hlast).symm

/-- The main character is alone just if the test of the program says so. -/
theorem alone_iff : Alone scene ↔ (scene.mainTalking && (talkers scene).isEmpty) = true := by
  rw [Alone, ← talkers_eq_nil_iff, Bool.and_eq_true, List.isEmpty_iff, Scene.mainTalking]

/-- A name is hidden exactly if the main character talks alone and its line ends in a sign. -/
theorem hidesName_iff : hidesName scene = true ↔
    Alone scene ∧ ∃ kept, rawText scene = kept ++ "@" := by
  rw [hidesName, Bool.and_eq_true, ← alone_iff, beq_iff_eq]
  simp only [eq_append_sign_iff, exists_and_left, exists_eq, and_true]

/-- A dialogue has the focus of its scene. -/
theorem focus_ofScene (scene : Scene) (player : String) :
    (ofScene scene player).focus = focusOf scene := by
  rw [ofScene]
  split <;> rfl

/-- The dialogue of a scene is what those who talk in it say. -/
theorem says_ofScene (scene : Scene) (player : String) :
    Says scene player (ofScene scene player) := by
  constructor
  case focus_main =>
    rw [focus_ofScene, focusOf, Scene.mainTalking]
    split
    · next h => exact iff_of_true rfl h
    · next h => exact iff_of_false (by split <;> simp) h
  case focus_speaker =>
    intro slot
    rw [focus_ofScene, focusOf, Scene.mainTalking]
    split
    · next h => exact iff_of_false (by simp) fun hnone => by simp [hnone.1] at h
    · next h =>
      have hmain : scene.mainLine = none := by simpa using h
      split
      · next k s rest htalkers => simpa [hmain] using head_talkers_iff htalkers
      · next htalkers =>
        exact iff_of_false (by simp) fun hslot => talkers_eq_nil_iff.mp htalkers slot hslot.2.1
  case focus_nobody =>
    rw [focus_ofScene, focusOf, Scene.mainTalking, ← talkers_eq_nil_iff]
    split
    · next h => exact iff_of_false (by simp) fun hnone => by simp [hnone.1] at h
    · next h =>
      have hmain : scene.mainLine = none := by simpa using h
      split
      · next htalkers => simp [htalkers]
      · next htalkers => simp [htalkers, hmain]
  case hidden =>
    intro kept halone hraw
    rw [firstLine_talkersOf] at hraw
    have hhides : hidesName scene = true := hidesName_iff.mpr ⟨halone, kept, hraw⟩
    rw [ofScene, if_pos hhides, ← (eq_append_sign_iff.mp hraw).2]
    exact ⟨rfl, rfl⟩
  case shown =>
    intro hshown
    rw [firstLine_talkersOf, ← hidesName_iff] at hshown
    rw [firstLine_talkersOf, map_name_talkersOf, ofScene, if_neg hshown]
    exact ⟨rfl, rfl⟩

end VisualNovel.Dialogue

import Mathlib.Tactic.IntervalCases
import VisualNovel.Proofs.Scenario.Grammar
import VisualNovel.Proofs.Scenario.Written

/-!
# Writing scenarios and reading them back

A scenario that is written and read comes back exactly if all of its scenes are
storable. Where a value holds a separator, a line feed or the word for nothing, it
cannot be among the values that are read. Where a line is lost, or a marker stands in
the place of a line, the parts behind it come from other lines; that they are the same
by accident is ruled out from the last choice of the block backwards.
-/

namespace VisualNovel.Scenario

open Text

theorem splitFields_blank_choice :
    splitFields (lineBack (choiceLine .blank)) = [absent, absent] := by
  decide

theorem lastBack_none : lastBack none = absent := by decide

theorem absent_ne_marker : absent ≠ startMarker ∧ absent ≠ endMarker := by decide

/-- A line of one value is never read as a choice. -/
theorem readChoice_lastBack {v : Option String} (hv : ∀ x ∈ v, Plain x) :
    readChoice (splitFields (lastBack v)) = none := by
  have hf := splitFields_lineBack [] v (by simpa using hv)
  rw [List.nil_append, lineBack_singleton] at hf
  rw [hf]
  split <;> rfl

/-- Of the line of an overlay a block has nothing if there is none or a marker takes its
place. -/
theorem content_overlayLines (layout : Layout) (s : Scene) :
    content (overlayLines layout s) = [] ∨
      layout.isAdvanced = true ∧
        content (overlayLines layout s) = [splitFields (lastBack s.overlay)] ∧
        lastBack s.overlay ≠ startMarker ∧ lastBack s.overlay ≠ endMarker := by
  rw [overlayLines]
  split
  · next hl =>
    by_cases hs : lastBack s.overlay = startMarker
    · exact Or.inl (by rw [hs, content_startMarker]; rfl)
    · by_cases he : lastBack s.overlay = endMarker
      · exact Or.inl (by rw [he, content_endMarker])
      · exact Or.inr ⟨hl, content_cons ⟨hs, he⟩ [], hs, he⟩
  · exact Or.inl rfl

/-- No choice is read from the line of an overlay. -/
theorem choiceAt_content_overlayLines {layout : Layout} {s : Scene}
    (hs : ∀ x ∈ s.overlay, Plain x) : choiceAt (content (overlayLines layout s)) 0 = .blank := by
  rcases content_overlayLines layout s with ho | ⟨_, ho, _⟩
  · rw [ho]
    rfl
  · rw [ho]
    rw [choiceAt_eq List.getElem?_cons_zero, readChoice_lastBack hs]
    rfl

section Markers

variable {layout : Layout} {s : Scene}

/-- Where the line of the main character is missing, the lines behind it move up by one. If
the scene comes back all the same, the last choice is blank, and so the one before it, up to
the line of the main character itself. -/
theorem mainLine_eq_none_of_shift {fore tail : List (List String)} (hfore : fore.length = 5)
    (htail : choiceAt tail 0 = .blank)
    (h : assemble layout (fore ++ ((choiceLines s).map splitFields ++ tail)) = s) :
    s.mainLine = none := by
  generalize hlines : fore ++ ((choiceLines s).map splitFields ++ tail) = lines at h
  have hlook (i : Nat) : lines[i + 5]? = ((choiceLines s).map splitFields ++ tail)[i]? := by
    rw [← hlines, List.getElem?_append_right (by omega), hfore, Nat.add_sub_cancel]
  have hstep {i : Nat} {c d : Choice} (hread : choiceAt lines (i + 5) = c) (hd : d = .blank)
      (hi : ((choiceLines s).map splitFields ++ tail)[i]? =
        some (splitFields (lineBack (choiceLine d)))) : c = .blank := by
    rw [← hread, choiceAt, hlook, hi, hd, splitFields_blank_choice]
    rfl
  have hfourth : s.choices.fourth = .blank := by
    have hread : choiceAt lines 9 = s.choices.fourth := congrArg (·.choices.fourth) h
    rw [← hread, choiceAt, hlook 4]
    exact htail
  have hthird : s.choices.third = .blank :=
    hstep (i := 3) (congrArg (·.choices.third) h) hfourth rfl
  have hsecond : s.choices.second = .blank :=
    hstep (i := 2) (congrArg (·.choices.second) h) hthird rfl
  have hfirst : s.choices.first = .blank :=
    hstep (i := 1) (congrArg (·.choices.first) h) hsecond rfl
  have hread : valueAt lines mainPosition = s.mainLine := congrArg Scene.mainLine h
  have hfive : lines[5]? = some [absent, absent] := by
    rw [hlook 0, ← splitFields_blank_choice, ← hfirst]
    rfl
  rw [← hread, valueAt, mainPosition, hfive]
  rfl

/-- Where a scene comes back, no marker takes the place of the main character's line. -/
theorem mainLine_ne_marker (hoverlay : ∀ x ∈ s.overlay, Plain x)
    (h : assemble layout (content (blockBack layout s)) = s) :
    lastBack s.mainLine ≠ startMarker ∧ lastBack s.mainLine ≠ endMarker := by
  refine ⟨fun hm => ?_, fun hm => ?_⟩
  · rw [blockBack, hm, content_append ne_marker_of_mem_foreLines, content_startMarker,
      content_append ne_marker_of_mem_choiceLines] at h
    have hnone := mainLine_eq_none_of_shift (by simp [foreLines])
      (choiceAt_content_overlayLines hoverlay) h
    rw [hnone, lastBack_none] at hm
    exact absent_ne_marker.1 hm
  · rw [blockBack, hm, content_append ne_marker_of_mem_foreLines, content_endMarker,
      List.append_nil] at h
    have hnone : s.mainLine = none := (congrArg Scene.mainLine h).symm
    rw [hnone, lastBack_none] at hm
    exact absent_ne_marker.2 hm

end Markers

section Back

variable {layout : Layout} {s : Scene}

/-- Where a scene comes back, its overlay stands on a line of its own, and this line counts. -/
theorem content_overlayLines_of_assemble {fore : List (List String)} (hfore : fore.length = 10)
    (hl : layout.isAdvanced = true)
    (h : assemble layout (fore ++ content (overlayLines layout s)) = s) :
    content (overlayLines layout s) = [splitFields (lastBack s.overlay)] ∧
      lastBack s.overlay ≠ startMarker ∧ lastBack s.overlay ≠ endMarker := by
  rcases content_overlayLines layout s with ho | ⟨_, ho⟩
  · rw [ho, List.append_nil] at h
    have hread : (assemble layout fore).overlay = s.overlay := congrArg Scene.overlay h
    have hnone : s.overlay = none := by
      rw [← hread, assemble, if_pos hl]
      exact valueAt_of_none (List.getElem?_eq_none (Nat.le_of_eq hfore))
    rw [overlayLines, if_pos hl, hnone, lastBack_none, content_cons absent_ne_marker] at ho
    exact absurd ho (List.cons_ne_nil _ _)
  · exact ho

/-- The lines of a block that count where no marker takes the place of the main character's
line. -/
theorem content_blockBack
    (hm : lastBack s.mainLine ≠ startMarker ∧ lastBack s.mainLine ≠ endMarker) :
    content (blockBack layout s) = ((foreLines layout s).map splitFields ++
      splitFields (lastBack s.mainLine) :: (choiceLines s).map splitFields) ++
        content (overlayLines layout s) := by
  rw [blockBack, content_append ne_marker_of_mem_foreLines, content_cons hm,
    content_append ne_marker_of_mem_choiceLines]
  simp

/-- Every value that stands last on its line is closed where the scene comes back. -/
theorem closed_of_assemble (hplain : ∀ v ∈ s.stored layout, ∀ x ∈ v, Plain x)
    {rest : List (List String)}
    (h : assemble layout (((foreLines layout s).map splitFields ++
      splitFields (lastBack s.mainLine) :: (choiceLines s).map splitFields) ++ rest) = s)
    (hrest : layout.isAdvanced = true → rest = [splitFields (lastBack s.overlay)]) :
    ∀ v ∈ s.last layout, Closed v := by
  have hvalues : ∀ values ∈ sceneLines layout s, ∀ v ∈ values, ∀ x ∈ v, Plain x :=
    fun values hv v hvm => hplain v (mem_stored_of_mem_sceneLines hv hvm)
  generalize hlines : _ ++ rest = lines at h
  have hsound : Closed s.sound := by
    have hzero : lines[0]? = some (splitFields (lineBack (headerLine layout s))) := by
      rw [← hlines]
      rfl
    have hoverlay : (headerOf layout lines).backgroundOverlay = s.backgroundOverlay :=
      (congrArg Scene.backgroundOverlay h :)
    have hmusic : (headerOf layout lines).music = s.music := (congrArg Scene.music h :)
    have hsound : (headerOf layout lines).sound = s.sound := (congrArg Scene.sound h :)
    exact closed_of_headerOf (hvalues _ (by simp [sceneLines])) hzero hoverlay hmusic hsound
  have hoverlay : layout.isAdvanced = true → Closed s.overlay := by
    intro hl
    have hten : lines[10]? = some (splitFields (lastBack s.overlay)) := by
      rw [← hlines, hrest hl]
      rfl
    have hread : (assemble layout lines).overlay = s.overlay := congrArg Scene.overlay h
    rw [assemble, if_pos hl] at hread
    exact closed_of_valueAt (hvalues [s.overlay] (by simp [sceneLines, hl]) _ (by simp)) hten hread
  have hmain : Closed s.mainLine :=
    closed_of_valueAt (hvalues [s.mainLine] (by simp [sceneLines]) _ (by simp))
      (by rw [← hlines]; rfl) (congrArg Scene.mainLine h)
  have hspeaker {p : Speaker} (hp : p ∈ s.speakers.toList) {i : Nat}
      (hi : lines[i]? = some (splitFields (lineBack (speakerLine layout p))))
      (hread : speakerAt layout lines i = p) : Closed (p.last layout) :=
    closed_of_speakerAt (hvalues _ (mem_sceneLines.mpr (Or.inr (Or.inl ⟨p, hp, rfl⟩)))) hi hread
  have hchoice {c : Choice} (hc : c ∈ s.choices.toList) {i : Nat}
      (hi : lines[i]? = some (splitFields (lineBack (choiceLine c))))
      (hread : choiceAt lines i = c) : Closed c.target :=
    closed_of_choiceAt
      (hvalues _ (mem_sceneLines.mpr (Or.inr (Or.inr (Or.inr (Or.inl ⟨c, hc, rfl⟩)))))) hi hread
  simp only [Scene.last, Scene.alone, Quartet.toList, List.forall_mem_append, List.map_cons,
    List.forall_mem_singleton, List.map_nil, List.forall_mem_cons]
  refine ⟨⟨⟨hsound, ?_⟩, ?_⟩, hmain, ?_⟩
  · exact ⟨hspeaker (by simp [Quartet.toList]) (by rw [← hlines]; rfl)
        (congrArg (·.speakers.first) h),
      hspeaker (by simp [Quartet.toList]) (by rw [← hlines]; rfl)
        (congrArg (·.speakers.second) h),
      hspeaker (by simp [Quartet.toList]) (by rw [← hlines]; rfl)
        (congrArg (·.speakers.third) h),
      hspeaker (by simp [Quartet.toList]) (by rw [← hlines]; rfl)
        (congrArg (·.speakers.fourth) h)⟩
  · exact ⟨hchoice (by simp [Quartet.toList]) (by rw [← hlines]; rfl)
        (congrArg (·.choices.first) h),
      hchoice (by simp [Quartet.toList]) (by rw [← hlines]; rfl)
        (congrArg (·.choices.second) h),
      hchoice (by simp [Quartet.toList]) (by rw [← hlines]; rfl)
        (congrArg (·.choices.third) h),
      hchoice (by simp [Quartet.toList]) (by rw [← hlines]; rfl)
        (congrArg (·.choices.fourth) h)⟩
  · split
    · next hl => simpa using hoverlay hl
    · simp

/-- A closed value is read back as it is. -/
theorem lastBack_eq_writeField {v : Option String} (h : Closed v) : lastBack v = writeField v := by
  cases v with
  | none => exact lastBack_none
  | some x => exact withoutReturn_eq_self_iff.mpr (h x rfl).2

/-- A block that comes back is that of a storable scene. -/
theorem storable_of_assemble (hplain : ∀ v ∈ s.stored layout, ∀ x ∈ v, Plain x)
    (hfits : s.Fits layout) (h : assemble layout (content (blockBack layout s)) = s) :
    Storable layout s := by
  have hoverlay : ∀ x ∈ s.overlay, Plain x := by
    intro x hx
    cases hl : layout.isAdvanced with
    | true => exact hplain s.overlay (by simp [Scene.stored, hl]) x hx
    | false => simp [(hfits hl).2.1] at hx
  have hmain := mainLine_ne_marker hoverlay h
  rw [content_blockBack hmain] at h
  have hover (hl : layout.isAdvanced = true) :=
    content_overlayLines_of_assemble (by simp [foreLines, choiceLines]) hl h
  have hclosed := closed_of_assemble hplain h fun hl => (hover hl).1
  have hunmarked : ∀ v ∈ s.alone layout,
      lastBack v ≠ startMarker ∧ lastBack v ≠ endMarker := by
    simp only [Scene.alone, List.forall_mem_append, List.forall_mem_singleton]
    refine ⟨hmain, ?_⟩
    split
    · next hl => simpa using (hover hl).2
    · simp
  refine ⟨hplain, hclosed, fun v hv x hx => ?_, hfits⟩
  have hv' : v ∈ s.last layout := List.mem_append_right _ hv
  have hmark := hunmarked v hv
  rwa [lastBack_eq_writeField (hclosed v hv'), hx] at hmark

end Back

/-- Lines that are read as a scene when they stand between markers: none of them is a marker,
each fits its position, and the scene is assembled from them. -/
structure ReadAs (layout : Layout) (lines : List String) (s : Scene) : Prop where
  unmarked : ∀ line ∈ lines, line ≠ startMarker ∧ line ≠ endMarker
  fitting : ∀ i fields, (lines.map splitFields)[i]? = some fields → FitsAt layout i fields.length
  assembled : assemble layout (lines.map splitFields) = s

namespace ReadAs

variable {layout : Layout} {lines : List String} {s : Scene}

/-- All lines count. -/
theorem body_eq (h : ReadAs layout lines s) (number : Nat) :
    body (lines.zipIdx number) = lines.zipIdx number := by
  rw [body, List.filter_eq_self]
  intro line hline
  simpa using (h.unmarked line.1 (List.fst_mem_of_mem_zipIdx hline)).1

/-- No line is skipped. -/
theorem misfits_eq (h : ReadAs layout lines s) (number : Nat) :
    misfits layout (lines.zipIdx number) = [] := by
  rw [misfits, misfitsFrom, List.filterMap_eq_nil_iff]
  rintro ⟨⟨line, lineNumber⟩, i⟩ hline
  have hi : (lines.map splitFields)[i]? = some (splitFields line) := by
    rw [List.mem_zipIdx_iff_getElem?, List.getElem?_zipIdx] at hline
    obtain ⟨_, hline, heq⟩ := Option.map_eq_some_iff.mp hline
    rw [List.getElem?_map, hline, Option.map_some, (Prod.mk.inj heq).1]
  exact if_pos (h.fitting i _ hi)

/-- A block of such lines is read as the scene, and no line of it is skipped. -/
theorem readLines_block (h : ReadAs layout lines s) (number : Nat) (rest : List String) :
    readLines layout number none (startMarker :: lines ++ endMarker :: rest) =
      let reading := readLines layout (number + 1 + lines.length + 1) none rest
      { reading with scenes := s :: reading.scenes } := by
  have hmisfits : misfitsFrom layout 0 (lines.zipIdx (number + 1)) = [] := h.misfits_eq _
  rw [List.cons_append, readLines_startMarker,
    readLines_inside layout fun line hline => (h.unmarked line hline).2]
  simp [readLines_endMarker, Block.start, h.body_eq, hmisfits, bodyFields_zipIdx,
    fill_eq_assemble, h.assembled]

/-- Blocks of such lines, one after the other. -/
theorem readLines_blocks {scenes : List Scene} {linesOf : Scene → List String}
    (h : ∀ s ∈ scenes, ReadAs layout (linesOf s) s) (number : Nat) :
    readLines layout number none
      (scenes.flatMap fun s => startMarker :: linesOf s ++ [endMarker]) = ⟨scenes, [], 0⟩ := by
  induction scenes generalizing number with
  | nil => rfl
  | cons s scenes ih =>
    obtain ⟨hs, hscenes⟩ := List.forall_mem_cons.mp h
    rw [List.flatMap_cons, List.append_assoc, List.singleton_append, hs.readLines_block,
      ih hscenes]

end ReadAs

/-- Every line of a block ends in a value that stands last. -/
theorem exists_concat_of_mem_sceneLines {layout : Layout} {s : Scene}
    {values : List (Option String)} (h : values ∈ sceneLines layout s) :
    ∃ vs, ∃ v ∈ s.last layout, values = vs ++ [v] := by
  rcases mem_sceneLines.mp h with rfl | ⟨p, hp, rfl⟩ | rfl | ⟨c, hc, rfl⟩ | ⟨hl, rfl⟩
  · cases layout with
    | simple => exact ⟨[s.background, s.music], s.sound, by simp [Scene.last], rfl⟩
    | advanced =>
      exact ⟨[s.background, s.backgroundOverlay, s.music], s.sound, by simp [Scene.last], rfl⟩
  · have hlast : p.last layout ∈ s.last layout := by
      simp only [Scene.last, List.mem_append, List.mem_map]
      exact Or.inl (Or.inl (Or.inr ⟨p, hp, rfl⟩))
    cases layout with
    | simple => exact ⟨[p.name, p.texture], p.line, hlast, rfl⟩
    | advanced =>
      exact ⟨[p.name, p.texture, p.line, p.textureLeft, p.textureRight], p.textureHead, hlast, rfl⟩
  · exact ⟨[], s.mainLine, by simp [Scene.last, Scene.alone], rfl⟩
  · have hlast : c.target ∈ s.last layout := by
      simp only [Scene.last, List.mem_append, List.mem_map]
      exact Or.inl (Or.inr ⟨c, hc, rfl⟩)
    exact ⟨[c.label], c.target, hlast, rfl⟩
  · exact ⟨[], s.overlay, by simp [Scene.last, Scene.alone, hl], rfl⟩

/-- The fields of a block, line by line. -/
def blockFields (layout : Layout) (s : Scene) : List (List String) :=
  (sceneLines layout s).map (·.map writeField)

/-- Every line of a block fits its position. -/
theorem fitting_blockFields {layout : Layout} {s : Scene} {i : Nat} {fields : List String}
    (h : (blockFields layout s)[i]? = some fields) : FitsAt layout i fields.length := by
  have hi : i < (blockFields layout s).length := (List.getElem?_eq_some_iff.mp h).1
  cases layout with
  | simple =>
    change i < 10 at hi
    interval_cases i <;> obtain rfl := Option.some.inj h <;>
      simp [FitsAt, headerLine, speakerLine, choiceLine]
  | advanced =>
    change i < 11 at hi
    interval_cases i <;> obtain rfl := Option.some.inj h <;>
      simp [FitsAt, headerLine, speakerLine, choiceLine]

section Stored

variable {layout : Layout} {s : Scene}

/-- A speaker is read from its own line, if every field is read back and the layout has every part.
-/
theorem readSpeaker_speakerLine {p : Speaker}
    (hread : ∀ v ∈ p.stored layout, readField (writeField v) = v)
    (hfits : layout.isAdvanced = false →
      p.textureLeft = none ∧ p.textureRight = none ∧ p.textureHead = none) :
    readSpeaker layout .blank ((speakerLine layout p).map writeField) = some p := by
  obtain ⟨name, texture, line, left, right, head⟩ := p
  cases layout with
  | simple =>
    obtain ⟨rfl, rfl, rfl⟩ := hfits rfl
    simp only [Speaker.stored, List.forall_mem_append, List.forall_mem_cons] at hread
    obtain ⟨⟨hname, htexture, hline, -⟩, -⟩ := hread
    simp [speakerLine, readSpeaker, Speaker.blank, hname, htexture, hline]
  | advanced =>
    simp only [Speaker.stored, Layout.isAdvanced, if_true, List.forall_mem_append,
      List.forall_mem_cons] at hread
    obtain ⟨⟨hname, htexture, hline, -⟩, hleft, hright, hhead, -⟩ := hread
    simp [speakerLine, readSpeaker, hname, htexture, hline, hleft, hright, hhead]

/-- A button is read from its own line, if both fields are read back. -/
theorem readChoice_choiceLine {c : Choice}
    (hlabel : readField (writeField c.label) = c.label)
    (htarget : readField (writeField c.target) = c.target) :
    readChoice ((choiceLine c).map writeField) = some c := by
  simp [choiceLine, readChoice, hlabel, htarget]

/-- The scene of a block is read from its fields. -/
theorem assemble_blockFields (h : Storable layout s) :
    assemble layout (blockFields layout s) = s := by
  have hread : ∀ v ∈ s.stored layout, readField (writeField v) = v := by
    intro v hv
    rw [readField_writeField]
    rintro rfl
    exact (h.plain _ hv absent rfl).ne_absent rfl
  have hfits := h.fits
  obtain ⟨background, backdrop, music, sound, speakers, mainLine, choices, overlay⟩ := s
  simp only [Scene.stored, List.forall_mem_append, List.forall_mem_cons, List.forall_mem_flatMap]
    at hread
  obtain ⟨⟨⟨⟨hbackground, hmusic, hsound, hmain, -⟩, hspeakers⟩, hchoices⟩, hoverlays⟩ := hread
  have hspeaker : ∀ p ∈ speakers.toList,
      readSpeaker layout .blank ((speakerLine layout p).map writeField) = some p :=
    fun p hp => readSpeaker_speakerLine (hspeakers p hp) fun hl => (hfits hl).2.2 p hp
  have hchoice : ∀ c ∈ choices.toList, readChoice ((choiceLine c).map writeField) = some c :=
    fun c hc => readChoice_choiceLine (hchoices c hc).1 (hchoices c hc).2.1
  simp only [Quartet.toList, List.forall_mem_cons] at hspeaker hchoice
  cases layout with
  | simple =>
    obtain ⟨rfl, rfl, -⟩ := hfits rfl
    simp [assemble, blockFields, sceneLines, Quartet.toList, headerOf, speakerAt, choiceAt, valueAt,
      mainPosition, Layout.isAdvanced, headerLine, readHeader, readSingle, Scene.blank,
      hbackground, hmusic, hsound, hmain, hspeaker, hchoice]
  | advanced =>
    simp only [Layout.isAdvanced, if_true, List.forall_mem_cons] at hoverlays
    obtain ⟨hbackdrop, hoverlay, -⟩ := hoverlays
    simp [assemble, blockFields, sceneLines, Quartet.toList, headerOf, speakerAt, choiceAt, valueAt,
      mainPosition, overlayPosition, Layout.isAdvanced, headerLine, readHeader, readSingle,
      hbackground, hmusic, hsound, hmain, hspeaker, hchoice, hbackdrop, hoverlay]

/-- The lines of a block of a storable scene have the fields that were written. -/
theorem map_splitFields_blockBack (h : Storable layout s) :
    (blockBack layout s).map splitFields = blockFields layout s := by
  rw [blockBack_eq_map, blockFields, List.map_map]
  apply List.map_congr_left
  intro values hvalues
  obtain ⟨vs, v, hv, rfl⟩ := exists_concat_of_mem_sceneLines hvalues
  have hplain : ∀ w ∈ vs ++ [v], ∀ x ∈ w, Plain x :=
    fun w hw => h.plain w (mem_stored_of_mem_sceneLines hvalues hw)
  have hlast : lastBack v ≠ "" :=
    ((readField_lastBack_iff (hplain v (by simp))).mpr (h.closed v hv)).1
  rw [Function.comp_apply, splitFields_lineBack vs v hplain, if_neg hlast,
    lastBack_eq_writeField (h.closed v hv), List.map_append, List.map_singleton]

/-- No line of a block of a storable scene is a marker. -/
theorem ne_marker_of_mem_blockBack (h : Storable layout s) :
    ∀ line ∈ blockBack layout s, line ≠ startMarker ∧ line ≠ endMarker := by
  have halone : ∀ v ∈ s.alone layout, lastBack v ≠ startMarker ∧ lastBack v ≠ endMarker := by
    intro v hv
    rw [lastBack_eq_writeField (h.closed v (List.mem_append_right _ hv))]
    cases v with
    | none => exact absent_ne_marker
    | some x => exact h.unmarked _ hv x rfl
  simp only [blockBack, List.forall_mem_append, List.forall_mem_cons]
  refine ⟨ne_marker_of_mem_foreLines, halone _ (by simp [Scene.alone]),
    ne_marker_of_mem_choiceLines, ?_⟩
  rw [overlayLines]
  split
  · next hl => simpa using halone s.overlay (by simp [Scene.alone, hl])
  · simp

/-- The block of a storable scene is read as that scene. -/
theorem readAs_blockBack (h : Storable layout s) : ReadAs layout (blockBack layout s) s where
  unmarked := ne_marker_of_mem_blockBack h
  fitting i fields hi := by
    rw [map_splitFields_blockBack h] at hi
    exact fitting_blockFields hi
  assembled := by rw [map_splitFields_blockBack h, assemble_blockFields h]

end Stored

variable {layout : Layout} {scenes : List Scene}

/-- Scenes with plain values that fit their layout are storable if they are read back from
their blocks. -/
theorem storable_of_readLines_blocks
    (hplain : ∀ s ∈ scenes, ∀ v ∈ s.stored layout, ∀ x ∈ v, Plain x)
    (hfits : ∀ s ∈ scenes, s.Fits layout) (number : Nat)
    (h : (readLines layout number none
      (scenes.flatMap fun s => startMarker :: blockBack layout s ++ [endMarker])).scenes = scenes) :
    ∀ s ∈ scenes, Storable layout s := by
  induction scenes generalizing number with
  | nil => simp
  | cons s scenes ih =>
    rw [List.forall_mem_cons] at hplain hfits
    rw [List.flatMap_cons, List.append_assoc, List.singleton_append] at h
    have hs : Storable layout s := by
      have hhead := congrArg List.head? h
      rw [List.cons_append, readLines, if_pos rfl, head?_scenes_readLines, Option.getD_none,
        List.head?_cons, Block.start, fill_eq_assemble] at hhead
      exact storable_of_assemble hplain.1 hfits.1 (Option.some.inj hhead)
    rw [(readAs_blockBack hs).readLines_block] at h
    exact List.forall_mem_cons.mpr ⟨hs, ih hplain.2 hfits.2 _ (List.cons.inj h).2⟩

/-- Storable scenes are read back, and nothing is skipped or left open. -/
theorem read_write (h : ∀ s ∈ scenes, Storable layout s) :
    read layout (write layout scenes) = ⟨scenes, [], 0⟩ := by
  rw [read, lines_write fun s hs => (h s hs).plain,
    ReadAs.readLines_blocks fun s hs => readAs_blockBack (h s hs)]

/-- Scenes that are read back are storable. -/
theorem storable_of_scenes_write (h : Scenario.scenes layout (write layout scenes) = scenes) :
    ∀ s ∈ scenes, Storable layout s := by
  have hread : ∀ s ∈ scenes, s ∈ Scenario.scenes layout (write layout scenes) :=
    fun s hs => h.symm ▸ hs
  have hplain : ∀ s ∈ scenes, ∀ v ∈ s.stored layout, ∀ x ∈ v, Plain x :=
    fun s hs v hv => plain_of_mem_scenes (hread s hs) (stored_subset layout s hv)
  have hfits : ∀ s ∈ scenes, s.Fits layout := fun s hs => fits_of_mem_scenes (hread s hs)
  rw [Scenario.scenes, read, lines_write hplain] at h
  exact storable_of_readLines_blocks hplain hfits 1 h

/-- A scenario comes back exactly if all of its scenes are storable, and then its reading
skips no line and leaves no block open. -/
theorem scenes_write_eq_iff (layout : Layout) (scenes : List Scene) :
    (Scenario.scenes layout (write layout scenes) = scenes ↔ ∀ s ∈ scenes, Storable layout s) ∧
      (read layout (write layout scenes) = ⟨scenes, [], 0⟩ ↔ ∀ s ∈ scenes, Storable layout s) := by
  exact ⟨⟨storable_of_scenes_write, fun h => congrArg Reading.scenes (read_write h)⟩,
    fun h => storable_of_scenes_write (congrArg Reading.scenes h), read_write⟩

end VisualNovel.Scenario

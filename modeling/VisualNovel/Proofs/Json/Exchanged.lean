import VisualNovel.Config
import VisualNovel.Playback.Frame
import VisualNovel.Playback.Input
import VisualNovel.Proofs.Json.Kept
import VisualNovel.Proofs.Save

/-!
# Nothing that is exchanged is lost

Inputs, scenes, states, positions, saves, histories, settings, frames and configurations are
read back from their texts as they were, whatever characters their strings have. Their
indexes, serials and moments have to fit into 64 bits, as those of a running game do.
-/

namespace VisualNovel

open Json

/-- The index of a playing state fits. -/
def State.Fits (s : State) : Prop := ∀ scene ∈ s.scene?, scene ≤ Text.maxIndex

/-- The index of a position fits. -/
def Position.Fits (p : Position) : Prop := p.scene ≤ Text.maxIndex

/-- The index of a save fits, if there is one. -/
def SaveRecord.Fits (r : SaveRecord) : Prop := ∀ scene ∈ r.scene, scene ≤ Text.maxIndex

/-- The moment of an event fits. -/
def Event.Fits (e : Event) : Prop := e.time ≤ Text.maxIndex

/-- The moments of all events fit, and so does the limit. -/
structure History.Fits (h : History) : Prop where
  events : ∀ e ∈ h.events, e.Fits
  limit : h.limit ≤ Text.maxIndex

/-- The slot in focus fits. -/
def Focus.Fits : Focus → Prop
  | .speaker slot => slot ≤ Text.maxIndex
  | _ => True

/-- The indexes and serials of a frame fit. -/
structure Frame.Fits (f : Frame) : Prop where
  state : f.state.Fits
  serial : f.serial ≤ Text.maxIndex
  sprites : ∀ s ∈ f.sprites, s.slot ≤ Text.maxIndex
  focus : f.focus.Fits
  choices : ∀ c ∈ f.choices, c.index ≤ Text.maxIndex
  sound : ∀ cue ∈ f.sound, cue.serial ≤ Text.maxIndex

/-- The index of a request to change a scenario fits. -/
def EditorInput.Fits : EditorInput → Prop
  | .selectScene index => index ≤ Text.maxIndex
  | .setSpeakerLine slot _ => slot ≤ Text.maxIndex
  | .setSpeakerName slot _ => slot ≤ Text.maxIndex
  | .setChoice index _ _ => index ≤ Text.maxIndex
  | .setSpeakerTexture slot _ _ => slot ≤ Text.maxIndex
  | _ => True

/-- The index of a request fits. -/
def Input.Fits : Input → Prop
  | .loadSave record => record.Fits
  | .activateChoice index => index ≤ Text.maxIndex
  | .editor input => input.Fits
  | _ => True

/-- A playing state is kept if its index fits. -/
theorem kept_state {s : State} (h : s.Fits) : Kept s := by
  cases s with
  | playing scenario scene =>
    have hscene : Kept scene := kept_nat (h scene rfl)
    refine Holds.variant (?_ : Holds State.decodePlaying _ _) rfl
    refine holds_record (by rfl) (by rfl) ?_ ?_
    · simp [hscene]
    · simp [Fields.required, Fields.get?, hscene]
  | _ => exact ⟨.text _, rfl⟩

/-- A position is kept if its index fits. -/
theorem kept_position {p : Position} (h : p.Fits) : Kept p := by
  have hscene : Kept p.scene := kept_nat h
  refine holds_record (by rfl) (by rfl) ?_ ?_
  · simp [hscene]
  · simp [Fields.required, Fields.get?, hscene]

/-- A save is kept if its index fits. -/
theorem kept_save {r : SaveRecord} (h : r.Fits) : Kept r :=
  ⟨r.written_encode, SaveRecord.decode_encode h⟩

/-- An event is kept if its moment fits. -/
theorem kept_event {e : Event} (h : e.Fits) : Kept e := by
  cases e with
  | dialogue speaker content time =>
    have htime : Kept time := kept_nat h
    refine Holds.variant (?_ : Holds Event.decodeDialogue _ _) rfl
    refine holds_record (by rfl) (by rfl) ?_ ?_
    · simp [htime]
    · simp [Fields.required, Fields.get?, htime]
  | scenarioSwitch scenario time =>
    have htime : Kept time := kept_nat h
    refine Holds.variant (?_ : Holds Event.decodeSwitch _ _) rfl
    refine holds_record (by rfl) (by rfl) ?_ ?_
    · simp [htime]
    · simp [Fields.required, Fields.get?, htime]

/-- A history is kept if its moments and its limit fit. -/
theorem kept_history {h : History} (hfits : h.Fits) : Kept h := by
  have hevents : Kept h.events := kept_list fun e he => kept_event (hfits.events e he)
  have hlimit : Kept h.limit := kept_nat hfits.limit
  refine holds_record (by rfl) (by rfl) ?_ ?_
  · simp [hevents, hlimit]
  · simp [Fields.required, Fields.get?, hevents, hlimit]

/-- Four values are kept together if each of them is kept. -/
theorem kept_quartet {α : Type} [Codec α] {q : Quartet α} (h : ∀ a ∈ q.toList, Kept a) :
    Kept q := by
  obtain ⟨hwritten, hfound⟩ := kept_list h
  refine ⟨hwritten, ?_⟩
  change (decode (encode q.toList)).bind Quartet.ofList? = some q
  rw [hfound, Option.bind_some, Quartet.ofList?_toList]

theorem kept_speaker (s : Speaker) : Kept s := by
  refine holds_record (by rfl) (by rfl) ?_ ?_
  · simp
  · simp [Fields.optional, Fields.get?]

theorem kept_choice (c : Choice) : Kept c := by
  refine holds_record (by rfl) (by rfl) ?_ ?_
  · simp
  · simp [Fields.optional, Fields.get?]

/-- The main character's line is found in the record of its line. -/
theorem holds_mainLine (line : Option String) :
    Holds Scene.decodeMainLine (.record [("line", encode line)]) line := by
  refine holds_record (by rfl) (by rfl) ?_ ?_
  · simp
  · simp [Fields.optional, Fields.get?]

/-- Every scene is kept. -/
theorem kept_scene (s : Scene) : Kept s := by
  have hspeakers : Kept s.speakers := kept_quartet fun a _ => kept_speaker a
  have hchoices : Kept s.choices := kept_quartet fun c _ => kept_choice c
  have hmain := holds_mainLine s.mainLine
  refine holds_record (by rfl) (by rfl) ?_ ?_
  · simp [hspeakers, hchoices, hmain.written]
  · simp [Fields.required, Fields.optional, Fields.get?, hspeakers, hchoices, hmain.found]

@[simp] theorem kept_layout (l : Layout) : Kept l := by
  cases l <;> exact ⟨.text _, rfl⟩

@[simp] theorem kept_lookup (l : TextureLookup) : Kept l := by
  cases l <;> exact ⟨.text _, rfl⟩

theorem kept_settings (s : Settings) : Kept s := by
  refine holds_record (by rfl) (by rfl) ?_ ?_
  · simp
  · simp [Fields.required, Fields.get?]

@[simp] theorem kept_directories (d : Directories) : Kept d := by
  refine holds_record (by rfl) (by rfl) ?_ ?_
  · simp
  · simp [Fields.orElse, Fields.get?]

@[simp] theorem kept_presence (p : PresenceConfig) : Kept p := by
  refine holds_record (by rfl) (by rfl) ?_ ?_
  · simp
  · simp [Fields.orElse, Fields.get?]

@[simp] theorem kept_game (g : GameConfig) : Kept g := by
  refine holds_record (by rfl) (by rfl) ?_ ?_
  · simp
  · simp [Fields.orElse, Fields.get?]

@[simp] theorem kept_audio (a : AudioConfig) : Kept a := by
  refine holds_record (by rfl) (by rfl) ?_ ?_
  · simp
  · simp [Fields.orElse, Fields.get?]

theorem kept_config (c : Config) : Kept c := by
  refine holds_record (by rfl) (by rfl) ?_ ?_
  · simp
  · simp [Fields.orElse, Fields.get?]

/-- A focus is kept if its slot fits. -/
theorem kept_focus {f : Focus} (h : f.Fits) : Kept f := by
  cases f with
  | nobody => exact ⟨.text _, rfl⟩
  | speaker slot =>
    have hslot : Kept slot := kept_nat h
    exact (hslot.wrap Focus.speaker).variant rfl
  | mainCharacter => exact ⟨.text _, rfl⟩

/-- A sprite is kept if its slot fits. -/
theorem kept_sprite {s : Sprite} (h : s.slot ≤ Text.maxIndex) : Kept s := by
  have hslot : Kept s.slot := kept_nat h
  have hparts : Kept s.parts := kept_list fun part _ => kept_string part
  refine holds_record (by rfl) (by rfl) ?_ ?_
  · simp [hslot, hparts]
  · simp [Fields.required, Fields.get?, hslot, hparts]

/-- A button that is offered is kept if its index fits. -/
theorem kept_offered {c : OfferedChoice} (h : c.index ≤ Text.maxIndex) : Kept c := by
  have hindex : Kept c.index := kept_nat h
  refine holds_record (by rfl) (by rfl) ?_ ?_
  · simp [hindex]
  · simp [Fields.required, Fields.get?, hindex]

/-- A cue is kept if its serial fits. -/
theorem kept_cue {c : SoundCue} (h : c.serial ≤ Text.maxIndex) : Kept c := by
  have hserial : Kept c.serial := kept_nat h
  refine holds_record (by rfl) (by rfl) ?_ ?_
  · simp [hserial]
  · simp [Fields.required, Fields.get?, hserial]

/-- A frame is kept if its indexes and serials fit. -/
theorem kept_frame {f : Frame} (h : f.Fits) : Kept f := by
  have hstate : Kept f.state := kept_state h.state
  have hserial : Kept f.serial := kept_nat h.serial
  have hsprites : Kept f.sprites := kept_list fun s hs => kept_sprite (h.sprites s hs)
  have hfocus : Kept f.focus := kept_focus h.focus
  have hchoices : Kept f.choices := kept_list fun c hc => kept_offered (h.choices c hc)
  have hsound : Kept f.sound := kept_option (fun cue hcue => kept_cue (h.sound cue hcue)) nofun
  refine holds_record (by rfl) (by rfl) ?_ ?_
  · simp [hstate, hserial, hsprites, hfocus, hchoices, hsound]
  · simp [Fields.required, Fields.optional, Fields.get?, hstate, hserial, hsprites, hfocus,
      hchoices, hsound]

@[simp] theorem kept_part (p : PortraitPart) : Kept p := by
  cases p <;> exact ⟨.text _, rfl⟩

/-- A request with a name is found in the record of the name. -/
theorem holds_named (make : String → EditorInput) (name : String) :
    Holds (EditorInput.decodeNamed make) (.record [("name", encode name)]) (make name) := by
  refine holds_record (by rfl) (by rfl) ?_ ?_
  · simp
  · simp [Fields.required, Fields.get?]

/-- A request to change a scenario is kept if its index fits. -/
theorem kept_editorInput {input : EditorInput} (h : input.Fits) : Kept input := by
  cases input with
  | selectScene index =>
    have hindex : Kept index := kept_nat h
    refine Holds.variant (?_ : Holds (EditorInput.decodeVariant "SelectScene") _ _) rfl
    refine holds_record (by rfl) (by rfl) ?_ ?_
    · simp [hindex]
    · simp [Fields.required, Fields.get?, hindex]
  | appendBlankScene => exact ⟨.text _, rfl⟩
  | duplicateScene => exact ⟨.text _, rfl⟩
  | removeScene => exact ⟨.text _, rfl⟩
  | setSpeakerLine slot text =>
    have hslot : Kept slot := kept_nat h
    refine Holds.variant (?_ : Holds (EditorInput.decodeVariant "SetSpeakerLine") _ _) rfl
    refine holds_record (by rfl) (by rfl) ?_ ?_
    · simp [hslot]
    · simp [Fields.required, Fields.get?, hslot]
  | setSpeakerName slot name =>
    have hslot : Kept slot := kept_nat h
    refine Holds.variant (?_ : Holds (EditorInput.decodeVariant "SetSpeakerName") _ _) rfl
    refine holds_record (by rfl) (by rfl) ?_ ?_
    · simp [hslot]
    · simp [Fields.required, Fields.get?, hslot]
  | setMainLine text =>
    refine Holds.variant (?_ : Holds (EditorInput.decodeVariant "SetMainLine") _ _) rfl
    refine holds_record (by rfl) (by rfl) ?_ ?_
    · simp
    · simp [Fields.required, Fields.get?]
  | setChoice index label target =>
    have hindex : Kept index := kept_nat h
    refine Holds.variant (?_ : Holds (EditorInput.decodeVariant "SetButton") _ _) rfl
    refine holds_record (by rfl) (by rfl) ?_ ?_
    · simp [hindex]
    · simp [Fields.required, Fields.get?, hindex]
  | setBackground name => exact (holds_named .setBackground name).variant rfl
  | setBackgroundOverlay name => exact (holds_named .setBackgroundOverlay name).variant rfl
  | setOverlay name => exact (holds_named .setOverlay name).variant rfl
  | setMusic name => exact (holds_named .setMusic name).variant rfl
  | setSound name => exact (holds_named .setSound name).variant rfl
  | setSpeakerTexture slot part name =>
    have hslot : Kept slot := kept_nat h
    refine Holds.variant (?_ : Holds (EditorInput.decodeVariant "SetSpeakerTexture") _ _) rfl
    refine holds_record (by rfl) (by rfl) ?_ ?_
    · simp [hslot]
    · simp [Fields.required, Fields.get?, hslot]

/-- A request of an author is read behind its name, even if it is a name alone itself. -/
theorem decode_variant_editor (v : Value) :
    (decode (Value.variant "Editor" v) : Option Input) = (decode v).map Input.editor := by
  have hbare : decodeName Input.bareNames (Value.variant "Editor" v) = none := by
    change (if isBareVariant (some v) then none else none) = none
    rw [ite_self]
  simp only [decode, hbare]
  rfl

/-- A request is kept if its index fits. -/
theorem kept_input {input : Input} (h : input.Fits) : Kept input := by
  cases input with
  | openScenarioSelect => exact ⟨.text _, rfl⟩
  | openSaveSelect => exact ⟨.text _, rfl⟩
  | back => exact ⟨.text _, rfl⟩
  | startNewGame scenario player =>
    refine Holds.variant (?_ : Holds (Input.decodeVariant "StartNewGame") _ _) rfl
    refine holds_record (by rfl) (by rfl) ?_ ?_
    · simp
    · simp [Fields.required, Fields.optional, Fields.get?]
  | loadSave record =>
    have hrecord : Kept record := kept_save h
    refine Holds.variant (?_ : Holds (Input.decodeVariant "LoadSave") _ _) rfl
    refine holds_record (by rfl) (by rfl) ?_ ?_
    · simp [hrecord]
    · simp [Fields.required, Fields.get?, hrecord]
  | advance => exact ⟨.text _, rfl⟩
  | activateChoice index =>
    have hindex : Kept index := kept_nat h
    refine Holds.variant (?_ : Holds (Input.decodeVariant "ActivateButton") _ _) rfl
    refine holds_record (by rfl) (by rfl) ?_ ?_
    · simp [hindex]
    · simp [Fields.required, Fields.get?, hindex]
  | togglePause => exact ⟨.text _, rfl⟩
  | exitToMainMenu => exact ⟨.text _, rfl⟩
  | editor input => exact ((kept_editorInput h).wrap Input.editor).variant (decode_variant_editor _)

/-- The texts of all that is exchanged, compact or on indented lines, are read as what was
written, and no two values of a type have the same text. -/
theorem exchanged_lossless :
    Lossless Input.Fits ∧ Lossless (fun _ : Scene => True) ∧ Lossless State.Fits ∧
      Lossless Position.Fits ∧ Lossless SaveRecord.Fits ∧ Lossless Event.Fits ∧
      Lossless History.Fits ∧ Lossless (fun _ : Settings => True) ∧ Lossless Frame.Fits ∧
      Lossless Focus.Fits ∧ Lossless (fun _ : Config => True) :=
  ⟨lossless_of_kept fun _ => kept_input, lossless_of_kept fun s _ => kept_scene s,
    lossless_of_kept fun _ => kept_state, lossless_of_kept fun _ => kept_position,
    lossless_of_kept fun _ => kept_save, lossless_of_kept fun _ => kept_event,
    lossless_of_kept fun _ => kept_history, lossless_of_kept fun s _ => kept_settings s,
    lossless_of_kept fun _ => kept_frame, lossless_of_kept fun _ => kept_focus,
    lossless_of_kept fun c _ => kept_config c⟩

/-- A request whose strings have a quote, a backslash, a line break and a control character,
and whose index is the largest one. -/
def awkwardInput : Input := .loadSave ⟨.current, "\"a\\\n\x01.sc", "Zoë", some Text.maxIndex⟩

theorem exchanged_lossless_awkwardInput :
    awkwardInput.Fits ∧
      (parse (compact (encode awkwardInput))).bind decode = some awkwardInput ∧
      (parse (pretty (encode awkwardInput))).bind decode = some awkwardInput := by
  have hfits : awkwardInput.Fits := by
    rintro scene ⟨⟩
    exact le_rfl
  exact ⟨hfits, exchanged_lossless.1.compact hfits, exchanged_lossless.1.pretty hfits⟩

end VisualNovel

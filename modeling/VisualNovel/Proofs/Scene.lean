import VisualNovel.Scene
import VisualNovel.Proofs.Quartet

/-!
# Fields of a scene

Everything a scene holds stands in one of its fields, each of which has a name of its own, and
a text or nothing. So two scenes are the same if they agree in all fields. To put something in
a field changes that field and no other, and what is put in several fields is found there.
-/

namespace VisualNovel

/-- A field of a speaker. -/
inductive SpeakerField where
  | name
  | line
  | texture (part : PortraitPart)
deriving DecidableEq, Repr, Inhabited

/-- A field of a choice. -/
inductive ChoiceField where
  | label
  | target
deriving DecidableEq, Repr, Inhabited

/-- A field of a scene. -/
inductive SceneField where
  | background
  | backgroundOverlay
  | overlay
  | music
  | sound
  | mainLine
  | speaker (slot : Nat) (field : SpeakerField)
  | choice (index : Nat) (field : ChoiceField)
deriving DecidableEq, Repr

/-- Optional values that agree in all questions are the same, if this is so of values. -/
theorem eq_of_map_eq {α β ι : Type} [Nonempty ι] {field : α → ι → β}
    (hext : ∀ a b, (∀ i, field a i = field b i) → a = b) {o p : Option α}
    (h : ∀ i, o.map (field · i) = p.map (field · i)) : o = p := by
  cases o with
  | none => exact (Option.map_eq_none_iff.mp (h (Classical.arbitrary ι)).symm).symm
  | some a =>
    cases p with
    | none => cases h (Classical.arbitrary ι)
    | some b => exact congrArg some (hext a b fun i => Option.some.inj (h i))

namespace Speaker

variable {s t : Speaker} {f g : SpeakerField} {v : Option String}

/-- What stands in a field of a speaker. -/
def field (s : Speaker) : SpeakerField → Option String
  | .name => s.name
  | .line => s.line
  | .texture part => s.textureOf part

/-- Puts something in a field of a speaker. -/
def put (s : Speaker) (f : SpeakerField) (v : Option String) : Speaker :=
  match f with
  | .name => { s with name := v }
  | .line => { s with line := v }
  | .texture part => s.setTexture part v

/-- A field that is put has its new value, and every other one the old. -/
theorem field_put : (s.put f v).field g = if f = g then v else s.field g := by
  cases f with
  | name => cases g <;> rfl
  | line => cases g <;> rfl
  | texture part =>
    cases g with
    | name => cases part <;> rfl
    | line => cases part <;> rfl
    | texture other => cases part <;> cases other <;> rfl

/-- Speakers with the same fields are the same. -/
theorem ext_field (h : ∀ f, s.field f = t.field f) : s = t := by
  obtain ⟨_, _, _, _, _, _⟩ := s
  obtain ⟨_, _, _, _, _, _⟩ := t
  rw [Speaker.mk.injEq]
  exact ⟨h .name, h (.texture .body), h .line, h (.texture .left), h (.texture .right),
    h (.texture .head)⟩

end Speaker

namespace Choice

variable {c d : Choice} {f g : ChoiceField} {v : Option String}

/-- What stands in a field of a choice. -/
def field (c : Choice) : ChoiceField → Option String
  | .label => c.label
  | .target => c.target

/-- Puts something in a field of a choice. -/
def put (c : Choice) (f : ChoiceField) (v : Option String) : Choice :=
  match f with
  | .label => { c with label := v }
  | .target => { c with target := v }

/-- A field that is put has its new value, and every other one the old. -/
theorem field_put : (c.put f v).field g = if f = g then v else c.field g := by
  cases f <;> cases g <;> rfl

/-- Buttons with the same fields are the same. -/
theorem ext_field (h : ∀ f, c.field f = d.field f) : c = d := by
  obtain ⟨_, _⟩ := c
  obtain ⟨_, _⟩ := d
  rw [Choice.mk.injEq]
  exact ⟨h .label, h .target⟩

end Choice

namespace Scene

variable {s t : Scene} {f g : SceneField} {v : Option String}

/-- What stands in a field of a scene, if the scene has the field. -/
def field? (s : Scene) : SceneField → Option (Option String)
  | .background => some s.background
  | .backgroundOverlay => some s.backgroundOverlay
  | .overlay => some s.overlay
  | .music => some s.music
  | .sound => some s.sound
  | .mainLine => some s.mainLine
  | .speaker slot f => (s.speakers.get? slot).map (·.field f)
  | .choice index f => (s.choices.get? index).map (·.field f)

/-- Puts something in a field of a scene. -/
def put (s : Scene) (f : SceneField) (v : Option String) : Scene :=
  match f with
  | .background => { s with background := v }
  | .backgroundOverlay => { s with backgroundOverlay := v }
  | .overlay => { s with overlay := v }
  | .music => { s with music := v }
  | .sound => { s with sound := v }
  | .mainLine => { s with mainLine := v }
  | .speaker slot f => { s with speakers := s.speakers.modify slot (·.put f v) }
  | .choice index f => { s with choices := s.choices.modify index (·.put f v) }

/-- What is put in a field is found there, if the scene has the field, and nowhere else. -/
theorem field?_put : (s.put f v).field? g =
    if f = g then (s.field? g).map fun _ => v else s.field? g := by
  cases f with
  | speaker slot f =>
    cases g with
    | speaker other g =>
      simp only [put, field?, Quartet.get?_modify, SceneField.speaker.injEq]
      by_cases hslot : slot = other
      · simp only [hslot, true_and, if_true, Option.map_map, Function.comp_def, Speaker.field_put]
        split <;> rfl
      · simp only [hslot, false_and, if_false]
    | _ => rfl
  | choice index f =>
    cases g with
    | choice other g =>
      simp only [put, field?, Quartet.get?_modify, SceneField.choice.injEq]
      by_cases hindex : index = other
      · simp only [hindex, true_and, if_true, Option.map_map, Function.comp_def, Choice.field_put]
        split <;> rfl
      · simp only [hindex, false_and, if_false]
    | _ => rfl
  | _ => cases g <;> rfl

/-- Scenes that agree in all fields are the same. -/
theorem ext_field? (h : ∀ f, s.field? f = t.field? f) : s = t := by
  have hspeakers : s.speakers = t.speakers :=
    Quartet.ext_get? fun slot => eq_of_map_eq (fun _ _ => Speaker.ext_field)
      fun f => h (.speaker slot f)
  have hchoices : s.choices = t.choices :=
    Quartet.ext_get? fun index => eq_of_map_eq (fun _ _ => Choice.ext_field)
      fun f => h (.choice index f)
  obtain ⟨_, _, _, _, _, _, _, _⟩ := s
  obtain ⟨_, _, _, _, _, _, _, _⟩ := t
  rw [Scene.mk.injEq]
  exact ⟨Option.some.inj (h .background), Option.some.inj (h .backgroundOverlay),
    Option.some.inj (h .music), Option.some.inj (h .sound), hspeakers,
    Option.some.inj (h .mainLine), hchoices, Option.some.inj (h .overlay)⟩

/-- Putting a field leaves which fields there are. -/
theorem isSome_field?_put : ((s.put f v).field? g).isSome = (s.field? g).isSome := by
  rw [field?_put]
  split
  · exact Option.isSome_map
  · rfl

/-- To put in a field what stands there changes nothing. -/
theorem put_eq_self (h : s.field? f = some v) : s.put f v = s := by
  apply ext_field?
  intro g
  rw [field?_put]
  split
  · next hfg => rw [← hfg, h, Option.map_some]
  · rfl

variable {values : List (SceneField × Option String)}

/-- Puts something in several fields, one after the other. -/
def assign (s : Scene) (values : List (SceneField × Option String)) : Scene :=
  values.foldl (fun s value => s.put value.1 value.2) s

/-- To put something in both fields of a choice makes it another choice. -/
theorem assign_choice (s : Scene) (index : Nat) (label target : Option String) :
    s.assign [(.choice index .label, label), (.choice index .target, target)] =
      { s with choices := s.choices.set index ⟨label, target⟩ } := by
  simp only [assign, List.foldl_cons, List.foldl_nil, put, Quartet.modify_modify]
  rfl

/-- A scene differs from another one only in some fields, and has in them what is given. -/
structure Assigned (values : List (SceneField × Option String)) (s s' : Scene) : Prop where
  given : ∀ value ∈ values, s'.field? value.1 = some value.2
  kept : ∀ f ∉ values.map (·.1), s'.field? f = s.field? f

/-- A field that is not named keeps its value. -/
theorem field?_assign_of_not_mem (h : f ∉ values.map (·.1)) :
    (s.assign values).field? f = s.field? f := by
  induction values generalizing s with
  | nil => rfl
  | cons value values ih =>
    rw [List.map_cons, List.mem_cons, not_or] at h
    have hrest : ((s.put value.1 value.2).assign values).field? f =
        (s.put value.1 value.2).field? f := ih h.2
    rw [field?_put, if_neg (Ne.symm h.1)] at hrest
    exact hrest

/-- What is put in different fields of a scene is found there. -/
theorem assigned_assign (hdistinct : (values.map (·.1)).Nodup)
    (hpresent : ∀ value ∈ values, (s.field? value.1).isSome = true) :
    Assigned values s (s.assign values) := by
  refine ⟨?_, fun f hf => field?_assign_of_not_mem hf⟩
  induction values generalizing s with
  | nil => simp
  | cons value values ih =>
    rw [List.map_cons, List.nodup_cons] at hdistinct
    rw [List.forall_mem_cons] at hpresent ⊢
    constructor
    · obtain ⟨old, hold⟩ := Option.isSome_iff_exists.mp hpresent.1
      have hrest : ((s.put value.1 value.2).assign values).field? value.1 =
          (s.put value.1 value.2).field? value.1 := field?_assign_of_not_mem hdistinct.1
      rw [field?_put, if_pos rfl, hold] at hrest
      exact hrest
    · exact ih hdistinct.2 fun other hother => isSome_field?_put.trans (hpresent.2 other hother)

/-- What has been put in some fields can be put there again. -/
theorem Assigned.assign_eq_self {s' : Scene} (h : Assigned values s s') :
    s'.assign values = s' := by
  have hgiven := h.given
  clear h
  induction values with
  | nil => rfl
  | cons value values ih =>
    rw [List.forall_mem_cons] at hgiven
    have hput : s'.put value.1 value.2 = s' := put_eq_self hgiven.1
    rw [assign, List.foldl_cons, hput]
    exact ih hgiven.2

end Scene

end VisualNovel

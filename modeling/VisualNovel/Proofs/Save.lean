import VisualNovel.Proofs.Json.Codec
import VisualNovel.Proofs.Json.ReadBack
import VisualNovel.Save

/-!
# Saves read back

The text of a save holds the save, whatever characters its names have. Only a scene has to be
an index that fits into 64 bits, and only a save of a version that can be read is accepted.
-/

namespace VisualNovel

open Json

/-- The version of a save is read as it was written. -/
theorem SaveVersion.decode_encode (v : SaveVersion) : decode (encode v) = some v := by
  have hmajor := decode_encode_uint32 v.major
  have hminor := decode_encode_uint32 v.minor
  have hfields : Fields.of ["major", "minor"] (encode v) =
      some ⟨true, [("major", encode v.major), ("minor", encode v.minor)]⟩ :=
    Fields.of_record (by simp) (by simp [distinct])
  change (Fields.of ["major", "minor"] (encode v)).bind _ = some v
  simp [hfields, Fields.required, Fields.get?, hmajor, hminor]

namespace SaveRecord

/-- Everything of a save is written. -/
theorem written_encode (r : SaveRecord) : (encode r).Written := by
  have hversion : (encode r.version).Written := by
    apply Value.Written.record
    intro m hm
    simp only [List.mem_cons, List.not_mem_nil, or_false] at hm
    rcases hm with rfl | rfl
    · exact .ofNat _
    · exact .ofNat _
  have hscene : (encode r.scene).Written := by
    cases r.scene with
    | none => exact .null
    | some scene => exact .ofNat scene
  apply Value.Written.record
  intro m hm
  simp only [List.mem_cons, List.not_mem_nil, or_false] at hm
  rcases hm with rfl | rfl | rfl | rfl
  · exact hversion
  · exact .text _
  · exact .text _
  · exact hscene

/-- A save whose index fits is read as it was written. -/
theorem decode_encode {r : SaveRecord} (h : ∀ scene ∈ r.scene, scene ≤ Text.maxIndex) :
    decode (encode r) = some r := by
  have hversion := r.version.decode_encode
  have hscene : decode (encode r.scene) = some r.scene := by
    cases hs : r.scene with
    | none => rfl
    | some scene =>
      have hindex := decode_encode_nat (h scene hs)
      change (decode (encode scene)).map some = some (some scene)
      rw [hindex, Option.map_some]
  have hfields : Fields.of ["version", "scenario_name", "player_name", "scenario_scene"]
      (encode r) = some ⟨true, [("version", encode r.version),
        ("scenario_name", encode r.scenario), ("player_name", encode r.player),
        ("scenario_scene", encode r.scene)]⟩ :=
    Fields.of_record (by simp) (by simp [distinct])
  change (Fields.of _ (encode r)).bind _ = some r
  simp [hfields, Fields.orElse, Fields.get?, hversion, hscene]

/-- The text of a save holds the save. -/
theorem ofText_toText {r : SaveRecord} (hversion : r.version.isCompatible = true)
    (hscene : ∀ scene ∈ r.scene, scene ≤ Text.maxIndex) : ofText r.toText = .ok r := by
  have hparse : parse r.toText = some (encode r) := parse_renderValue r.written_encode .pretty
  rw [ofText, hparse, Option.bind_some, decode_encode hscene]
  exact if_pos hversion

/-- The scene of a save that is read is an index of 64 bits. -/
theorem scene_le_of_ofText {text : String} {r : SaveRecord} (h : ofText text = .ok r) :
    ∀ scene ∈ r.scene, scene ≤ Text.maxIndex := by
  rw [ofText] at h
  split at h
  · cases h
  · next r' hdecode =>
    split at h
    · cases h
      obtain ⟨v, _, hv⟩ := Option.bind_eq_some_iff.mp hdecode
      obtain ⟨fs, _, hfs⟩ := Option.bind_eq_some_iff.mp hv
      obtain ⟨version, _, h⟩ := Option.bind_eq_some_iff.mp hfs
      obtain ⟨scenario, _, h⟩ := Option.bind_eq_some_iff.mp h
      obtain ⟨player, _, h⟩ := Option.bind_eq_some_iff.mp h
      obtain ⟨scene, hscene, h⟩ := Option.bind_eq_some_iff.mp h
      cases h
      rw [Fields.orElse] at hscene
      split at hscene
      · exact le_of_decode_option hscene
      · cases hscene
        nofun
    · cases h

/-- The save of a position gives the position back, if nothing is missing in it. -/
theorem toPosition_ofPosition {p : Position} (hscenario : p.scenario ≠ "")
    (hplayer : p.player ≠ "") : (ofPosition p).toPosition = .ok p := by
  rw [toPosition, ofPosition, if_neg hscenario, if_neg hplayer]

end SaveRecord

end VisualNovel

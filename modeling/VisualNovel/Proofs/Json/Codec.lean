import VisualNovel.Json.Codec

/-!
# Codecs read back

What is written for a value of a type is read as the value: for strings always, for numbers
within their limits. The object that is written for a structure gives every field its value.
-/

namespace VisualNovel.Json

/-- A string is read as it was written. -/
@[simp] theorem decode_encode_string (s : String) : decode (encode s) = some s := rfl

/-- An index is read as it was. -/
theorem decode_encode_nat {n : Nat} (h : n ≤ Text.maxIndex) : decode (encode n) = some n := by
  change (some n).filter (· ≤ Text.maxIndex) = some n
  rw [Option.filter_some, if_pos (decide_eq_true h)]

/-- A number that is read is an index of 64 bits. -/
theorem le_of_decode_nat {v : Value} {n : Nat} (h : decode v = some n) : n ≤ Text.maxIndex := by
  cases v with
  | number m =>
    obtain ⟨_, hn⟩ := Option.filter_eq_some_iff.mp h
    exact of_decide_eq_true hn
  | _ => cases h

/-- A number that is read, if there is one, is an index. -/
theorem le_of_decode_option {v : Value} {o : Option Nat} (h : decode v = some o) :
    ∀ n ∈ o, n ≤ Text.maxIndex := by
  rintro n rfl
  cases v with
  | null => cases h
  | _ =>
    obtain ⟨m, hm, heq⟩ := Option.map_eq_some_iff.mp h
    cases heq
    exact le_of_decode_nat hm

/-- A number of 32 bits is read as it was. -/
theorem decode_encode_uint32 (n : UInt32) : decode (encode n) = some n := by
  have hlimit : n.toNat ≤ UInt32.size - 1 := Nat.le_sub_one_of_lt n.toNat_lt_size
  change ((some n.toNat).filter (· ≤ UInt32.size - 1)).map UInt32.ofNat = some n
  rw [Option.filter_some, if_pos (decide_eq_true hlimit), Option.map_some, UInt32.ofNat_toNat]

/-- All members of a record are known if their names are. -/
theorem knownMembers_record {names : List String} {members : List (String × Value)}
    (h : ∀ m ∈ members, m.1 ∈ names) :
    knownMembers names (members.map fun m => (some m.1, m.2)) = some members := by
  induction members with
  | nil => rfl
  | cons m ms ih =>
    rw [List.forall_mem_cons] at h
    rw [List.map_cons, knownMembers, ih h.2, Option.map_some,
      if_pos (List.contains_iff_mem.mpr h.1)]

/-- An object whose keys are known and all different gives its values to the fields. -/
theorem Fields.of_record {names : List String} {members : List (String × Value)}
    (hknown : ∀ m ∈ members, m.1 ∈ names) (hdistinct : distinct (members.map (·.1)) = true) :
    Fields.of names (.record members) = some ⟨true, members⟩ := by
  rw [Fields.of, knownMembers_record hknown, Option.bind_eq_bind, Option.bind_some,
    if_pos hdistinct]

end VisualNovel.Json

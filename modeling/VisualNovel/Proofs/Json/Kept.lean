import VisualNovel.Proofs.Json.Codec
import VisualNovel.Proofs.Json.ReadBack
import Mathlib.Data.Set.Function

/-!
# Values that a codec keeps

A codec keeps a value if all of the value is written and it is read as it was. A structure is
kept with its fields, a choice with the value that belongs to it, a list with its items. What
a codec keeps is read back from its text, in either style, and so nothing else has the same
text.
-/

namespace VisualNovel.Json

variable {α : Type}

/-- A reader finds something in a JSON value of which everything is written. -/
structure Holds (read : Value → Option α) (v : Value) (a : α) : Prop where
  written : v.Written
  found : read v = some a

/-- A codec keeps a value if it finds the value in what it writes for it. -/
abbrev Kept [Codec α] (a : α) : Prop := Holds decode (encode a) a

/-- Everything of a value that is kept is written. -/
@[simp] theorem written_encode [Codec α] {a : α} (h : Kept a) : (encode a).Written := h.written

/-- A value that is kept is read as it was written. -/
@[simp] theorem decode_encode [Codec α] {a : α} (h : Kept a) : decode (encode a) = some a :=
  h.found

@[simp] theorem kept_string (s : String) : Kept s := ⟨.text _, decode_encode_string s⟩

@[simp] theorem kept_bool (b : Bool) : Kept b := ⟨.bool b, rfl⟩

/-- A number is kept if it is an index. -/
theorem kept_nat {n : Nat} (h : n ≤ Text.maxIndex) : Kept n := ⟨.ofNat n, decode_encode_nat h⟩

@[simp] theorem kept_uint32 (n : UInt32) : Kept n := ⟨.ofNat n.toNat, decode_encode_uint32 n⟩

section Made

variable [Codec α]

/-- What may be missing is read like what may not, except from a null. -/
theorem decode_some_of_ne_null {v : Value} (h : v ≠ .null) :
    (decode v : Option (Option α)) = (decode v).map some := by
  cases v with
  | null => exact absurd rfl h
  | _ => rfl

/-- What may be absent is kept, unless something present is written as if it were absent. -/
theorem kept_option {o : Option α} (h : ∀ a ∈ o, Kept a) (hnull : ∀ a : α, encode a ≠ .null) :
    Kept o := by
  cases o with
  | none => exact ⟨.null, rfl⟩
  | some a =>
    obtain ⟨hwritten, hfound⟩ := h a rfl
    refine ⟨hwritten, ?_⟩
    change decode (encode a) = some (some a)
    rw [decode_some_of_ne_null (hnull a), hfound, Option.map_some]

/-- A list is kept if its elements are. -/
theorem kept_list {xs : List α} (h : ∀ x ∈ xs, Kept x) : Kept xs := by
  constructor
  · apply Value.Written.array
    intro v hv
    obtain ⟨x, hx, rfl⟩ := List.mem_map.mp hv
    exact (h x hx).written
  · change (xs.map encode).mapM decode = some xs
    induction xs with
    | nil => rfl
    | cons x xs ih =>
      rw [List.forall_mem_cons] at h
      rw [List.map_cons, List.mapM_cons, h.1.found, ih h.2]
      rfl

@[simp] theorem kept_option_string (o : Option String) : Kept o :=
  kept_option (fun _ _ => kept_string _) nofun

end Made

/-- A structure is found in the object of all its fields. -/
theorem holds_record {names : List String} {members : List (String × Value)}
    {read : Fields → Option α} {a : α} (hnames : members.map (·.1) = names)
    (hdistinct : distinct names = true) (hwritten : ∀ m ∈ members, m.2.Written)
    (hread : read ⟨true, members⟩ = some a) :
    Holds (fun v => (Fields.of names v).bind read) (.record members) a := by
  subst hnames
  refine ⟨.record hwritten, ?_⟩
  change (Fields.of (members.map (·.1)) (.record members)).bind read = some a
  rw [Fields.of_record (fun m hm => List.mem_map_of_mem hm) hdistinct, Option.bind_some, hread]

/-- A choice is found if the value that belongs to it is found behind its name. -/
theorem Holds.variant {read read' : Value → Option α} {v : Value} {a : α} {name : String}
    (h : Holds read v a) (hread : read' (.variant name v) = read v) :
    Holds read' (.variant name v) a := by
  refine ⟨.record fun m hm => ?_, hread.trans h.found⟩
  obtain rfl := List.mem_singleton.mp hm
  exact h.written

/-- What a choice is made of is found as part of the choice. -/
theorem Kept.wrap [Codec α] {a : α} (h : Kept a) {β : Type} (make : α → β) :
    Holds (fun v => (decode v).map make) (encode a) (make a) := by
  refine ⟨h.written, ?_⟩
  rw [h.found, Option.map_some]

/-- The texts of some values of a type, compact or on indented lines, are read as the values,
and no two of the values have the same text. -/
structure Lossless [Codec α] (fits : α → Prop) : Prop where
  compact {a : α} (h : fits a) : (parse (Json.compact (encode a))).bind decode = some a
  pretty {a : α} (h : fits a) : (parse (Json.pretty (encode a))).bind decode = some a
  compact_injOn : Set.InjOn (fun a : α => Json.compact (encode a)) {a | fits a}
  pretty_injOn : Set.InjOn (fun a : α => Json.pretty (encode a)) {a | fits a}

/-- A value is read from the text that was written for it, in either style. -/
theorem Kept.parse_renderValue [Codec α] {a : α} (h : Kept a) (style : Style) :
    (parse (String.ofList (renderValue style 0 (encode a)))).bind decode = some a := by
  rw [Json.parse_renderValue h.written, Option.bind_some, h.found]

/-- What can be read back from its text shares the text with nothing else. -/
theorem injOn_of_read {text : α → String} {fits : α → Prop} (read : String → Option α)
    (h : ∀ a, fits a → read (text a) = some a) : Set.InjOn text {a | fits a} := by
  intro a ha b hb hab
  have hread : some a = some b := by rw [← h a ha, ← h b hb, hab]
  exact Option.some.inj hread

/-- A type whose values are kept loses nothing in a text. -/
theorem lossless_of_kept [Codec α] {fits : α → Prop} (h : ∀ a, fits a → Kept a) :
    Lossless fits where
  compact ha := (h _ ha).parse_renderValue .compact
  pretty ha := (h _ ha).parse_renderValue .pretty
  compact_injOn := injOn_of_read (fun s => (parse s).bind decode)
    fun a ha => (h a ha).parse_renderValue .compact
  pretty_injOn := injOn_of_read (fun s => (parse s).bind decode)
    fun a ha => (h a ha).parse_renderValue .pretty

end VisualNovel.Json

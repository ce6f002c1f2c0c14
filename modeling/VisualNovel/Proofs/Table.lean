import VisualNovel.Table
import Mathlib.Data.Finset.Card
import Mathlib.Data.Finset.Dedup

/-!
# Tables of lists

In the table of a list every key has the value that the list gives it last, and the table has
as many keys as there are different ones in the list.
-/

namespace VisualNovel.Table

variable {κ α : Type} [DecidableEq κ]

/-- The value that a list gives a key last. -/
def lastValue (entries : List (κ × α)) (key : κ) : Option α :=
  (entries.reverse.find? (·.1 = key)).map (·.2)

/-- The last entry decides about its own key. -/
theorem lastValue_concat (entries : List (κ × α)) (e : κ × α) (key : κ) :
    lastValue (entries ++ [e]) key = if e.1 = key then some e.2 else lastValue entries key := by
  rw [lastValue, List.reverse_concat, List.find?_cons]
  split <;> simp_all [lastValue]

/-- The last entry is inserted after the others. -/
theorem ofList_concat (entries : List (κ × α)) (e : κ × α) :
    ofList (entries ++ [e]) = (ofList entries).insert e.1 e.2 := by
  rw [ofList, List.foldl_concat, ofList]

/-- In the table of a list the last value of a key counts. -/
theorem get?_ofList (entries : List (κ × α)) (key : κ) :
    (ofList entries).get? key = lastValue entries key := by
  induction entries using List.reverseRecOn with
  | nil => rfl
  | append_singleton entries e ih => rw [ofList_concat, get?_insert, lastValue_concat, ih]

/-- The value of a key is that of the last entry with the key. -/
theorem lastValue_append_cons {after : List (κ × α)} {e : κ × α} (h : ∀ f ∈ after, f.1 ≠ e.1)
    (before : List (κ × α)) : lastValue (before ++ e :: after) e.1 = some e.2 := by
  induction after using List.reverseRecOn with
  | nil => rw [lastValue_concat, if_pos rfl]
  | append_singleton after f ih =>
    rw [List.forall_mem_append, List.forall_mem_singleton] at h
    rw [← List.cons_append, ← List.append_assoc, lastValue_concat, if_neg h.2, ih h.1]

/-- A key that no entry has has no value. -/
theorem lastValue_eq_none {entries : List (κ × α)} {key : κ} (h : ∀ e ∈ entries, e.1 ≠ key) :
    lastValue entries key = none := by
  rw [lastValue, Option.map_eq_none_iff, List.find?_eq_none]
  intro e he
  simpa using h e (List.mem_reverse.mp he)

/-- The table of a list has no keys exactly if the list is empty. -/
theorem isEmpty_ofList (entries : List (κ × α)) : (ofList entries).isEmpty = entries.isEmpty := by
  induction entries using List.reverseRecOn with
  | nil => rfl
  | append_singleton entries e _ =>
    have hconcat : (entries ++ [e]).isEmpty = false := by simp
    rw [ofList_concat, hconcat, isEmpty, insert]
    generalize (ofList entries).entries = es
    cases es with
    | nil => rfl
    | cons f es =>
      rw [putEntry]
      split
      · rfl
      · rfl

/-- The keys of a table. -/
def keys (t : Table κ α) : List κ := t.entries.map (·.1)

/-- Inserting adds the key. -/
theorem mem_keys_insert {t : Table κ α} {key other : κ} {a : α} :
    other ∈ (t.insert key a).keys ↔ other = key ∨ other ∈ t.keys := by
  obtain ⟨entries⟩ := t
  simp only [keys, insert]
  induction entries with
  | nil => simp [putEntry]
  | cons e es ih =>
    rw [putEntry]
    split
    · next h => simp [h]
    · simp only [List.map_cons, List.mem_cons, ih]
      exact or_left_comm

/-- Inserting adds no key twice. -/
theorem nodup_keys_insert {t : Table κ α} (h : t.keys.Nodup) (key : κ) (a : α) :
    (t.insert key a).keys.Nodup := by
  obtain ⟨entries⟩ := t
  induction entries with
  | nil => simp [keys, insert, putEntry]
  | cons e es ih =>
    have hmem : ∀ other,
        other ∈ (putEntry key a es).map (·.1) ↔ other = key ∨ other ∈ es.map (·.1) :=
      fun other => mem_keys_insert (t := ⟨es⟩)
    simp only [keys, insert, putEntry, List.map_cons, List.nodup_cons] at h ih ⊢
    split
    · next heq => simpa [heq] using h
    · next hne => simpa [hmem, hne, h.1] using ih h.2

/-- A table has the keys of its entries. -/
theorem mem_keys_ofList {entries : List (κ × α)} {key : κ} :
    key ∈ (ofList entries).keys ↔ key ∈ entries.map (·.1) := by
  induction entries using List.reverseRecOn with
  | nil => rfl
  | append_singleton entries e ih =>
    rw [ofList_concat, mem_keys_insert, ih, List.map_append, List.mem_append, or_comm]
    simp

/-- A table has no key twice. -/
theorem nodup_keys_ofList (entries : List (κ × α)) : (ofList entries).keys.Nodup := by
  induction entries using List.reverseRecOn with
  | nil => exact List.nodup_nil
  | append_singleton entries e ih =>
    rw [ofList_concat]
    exact nodup_keys_insert ih e.1 e.2

/-- Setting adds no key twice. -/
theorem nodup_keys_set {t : Table κ α} (h : t.keys.Nodup) (key : κ) (a : Option α) :
    (t.set key a).keys.Nodup := by
  cases a with
  | some a => exact nodup_keys_insert h key a
  | none => exact h.sublist (List.filter_sublist.map _)

/-- A key under which something is found has an entry. -/
theorem mem_of_get? {t : Table κ α} {key : κ} {a : α} (h : t.get? key = some a) :
    (key, a) ∈ t.entries := by
  obtain ⟨⟨found, b⟩, hfind, rfl⟩ := Option.map_eq_some_iff.mp h
  have hkey : found = key := by simpa using List.find?_some hfind
  exact hkey ▸ List.mem_of_find?_eq_some hfind

/-- Where no key is there twice, every entry is found. -/
theorem get?_eq_some_iff {t : Table κ α} (h : t.keys.Nodup) {key : κ} {a : α} :
    t.get? key = some a ↔ (key, a) ∈ t.entries := by
  refine ⟨mem_of_get?, fun hmem => ?_⟩
  cases hget : t.get? key with
  | none =>
    rw [get?, Option.map_eq_none_iff, List.find?_eq_none] at hget
    exact absurd (decide_eq_true rfl) (hget _ hmem)
  | some b =>
    have heq := List.inj_on_of_nodup_map h (mem_of_get? hget) hmem rfl
    rw [(Prod.mk.inj heq).2]

/-- The table of a list has as many keys as there are different ones in the list. -/
theorem size_ofList (entries : List (κ × α)) :
    (ofList entries).size = (entries.map (·.1)).toFinset.card := by
  have hkeys : (ofList entries).keys.toFinset = (entries.map (·.1)).toFinset := by
    ext key
    rw [List.mem_toFinset, List.mem_toFinset, mem_keys_ofList]
  rw [← hkeys, List.toFinset_card_of_nodup (nodup_keys_ofList entries), keys, List.length_map, size]

end VisualNovel.Table

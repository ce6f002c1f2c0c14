import VisualNovel.Proofs.Text.Lines
import VisualNovel.Scenario.Field

/-!
# Written fields

A line of values is written with a separator between the values and read field by
field. On the way its last value loses a carriage return at its end, and after that
an empty last field does not count. Only a last value to which neither happens is
closed, and only a closed value is read back from the end of a line. Any line at all is
given again by its fields, but for one separator at its end.
-/

namespace VisualNovel.Scenario

open Text

/-- A text that a field can hold: it is not the word for nothing, and neither a separator
nor a line feed cuts it. -/
structure Plain (v : String) : Prop where
  ne_absent : v ≠ absent
  no_separator : separator ∉ v.toList
  no_feed : '\n' ∉ v.toList

instance (v : String) : Decidable (Plain v) :=
  decidable_of_iff (v ≠ absent ∧ separator ∉ v.toList ∧ '\n' ∉ v.toList)
    ⟨fun h => ⟨h.1, h.2.1, h.2.2⟩, fun h => ⟨h.ne_absent, h.no_separator, h.no_feed⟩⟩

/-- A value that can stand last on a line: if it is there, it is not empty and does not end
in a carriage return. -/
def Closed (v : Option String) : Prop :=
  ∀ x ∈ v, x ≠ "" ∧ x.toList.getLast? ≠ some '\r'

instance (v : Option String) : Decidable (Closed v) :=
  inferInstanceAs (Decidable (∀ x ∈ v, x ≠ "" ∧ x.toList.getLast? ≠ some '\r'))

/-- The fields of a line are among its pieces. -/
theorem mem_of_mem_splitFields {line f : String} (h : f ∈ splitFields line) :
    f ∈ split separator line := by
  simp only [splitFields] at h
  split at h
  · exact List.dropLast_subset _ h
  · exact h

/-- No field holds a separator. -/
theorem not_mem_of_mem_splitFields {line f : String} (h : f ∈ splitFields line) :
    separator ∉ f.toList := by
  obtain ⟨p, hp, rfl⟩ := List.mem_map.mp (mem_of_mem_splitFields h)
  simpa using not_mem_of_mem_pieces hp

/-- Every character of a field is one of its line. -/
theorem mem_line_of_mem_field {line f : String} (h : f ∈ splitFields line) {c : Char}
    (hc : c ∈ f.toList) : c ∈ line.toList := by
  obtain ⟨p, hp, rfl⟩ := List.mem_map.mp (mem_of_mem_splitFields h)
  exact mem_of_mem_pieces hp (by simpa using hc)

/-- A value that is read is the text of its field, and not the word for nothing. -/
theorem readField_eq_some {f v : String} (h : readField f = some v) : f = v ∧ v ≠ absent := by
  rw [readField] at h
  split at h
  · simp at h
  · next hf =>
    obtain rfl := Option.some.inj h
    exact ⟨rfl, hf⟩

/-- Whatever is read from a line without line feeds is plain. -/
theorem plain_of_readField {line f v : String} (hline : '\n' ∉ line.toList)
    (hf : f ∈ splitFields line) (h : readField f = some v) : Plain v := by
  obtain ⟨rfl, hne⟩ := readField_eq_some h
  exact ⟨hne, not_mem_of_mem_splitFields hf, fun hc => hline (mem_line_of_mem_field hf hc)⟩

/-- The characters of a line are separators and those of its fields. -/
theorem mem_joinFields {c : Char} {fs : List String} (h : c ∈ (joinFields fs).toList) :
    c = separator ∨ ∃ f ∈ fs, c ∈ f.toList := by
  rw [joinFields, join, String.toList_ofList] at h
  induction fs with
  | nil => simp [joinPieces] at h
  | cons f fs ih =>
    cases fs with
    | nil => exact Or.inr ⟨f, List.mem_cons_self, by simpa [joinPieces] using h⟩
    | cons g gs =>
      simp only [List.map_cons, joinPieces, List.mem_append, List.mem_cons] at h
      rcases h with h | h | h
      · exact Or.inr ⟨f, List.mem_cons_self, h⟩
      · exact Or.inl h
      · rcases ih h with hs | ⟨x, hx, hc⟩
        · exact Or.inl hs
        · exact Or.inr ⟨x, List.mem_cons_of_mem _ hx, hc⟩

/-- The characters of a line that ends in a field, one after the other. -/
theorem toList_joinFields_concat (fs : List String) (f : String) :
    (joinFields (fs ++ [f])).toList = fs.flatMap (·.toList ++ [separator]) ++ f.toList := by
  rw [joinFields, join, String.toList_ofList, List.map_append, List.map_singleton,
    joinPieces_concat, List.flatMap_map]

/-- A carriage return at the end of a line is taken from its last field. -/
theorem withoutReturn_joinFields (fs : List String) (f : String) :
    withoutReturn (joinFields (fs ++ [f])) = joinFields (fs ++ [withoutReturn f]) := by
  rw [← String.toList_inj, toList_joinFields_concat, withoutReturn, withoutReturn,
    String.toList_ofList, String.toList_ofList, toList_joinFields_concat]
  by_cases hf : f.toList = []
  · rw [hf, dropReturn, if_neg]
    · simp [dropReturn]
    · rcases List.eq_nil_or_concat fs with rfl | ⟨gs, g, rfl⟩
      · simp
      · simp [separator]
  · exact dropReturn_append hf

/-- The fields of a line are those it was made of, but for an empty one at its end. -/
theorem splitFields_joinFields {fs : List String} {f : String}
    (h : ∀ g ∈ fs ++ [f], separator ∉ g.toList) :
    splitFields (joinFields (fs ++ [f])) = if f = "" then fs else fs ++ [f] := by
  have hpieces : ∀ p ∈ (fs ++ [f]).map String.toList, separator ∉ p := by
    intro p hp
    obtain ⟨g, hg, rfl⟩ := List.mem_map.mp hp
    exact h g hg
  have hsplit : split separator (joinFields (fs ++ [f])) = fs ++ [f] := by
    rw [split, joinFields, join, String.toList_ofList, pieces_joinPieces (by simp) hpieces,
      List.map_map]
    simp
  rw [splitFields, hsplit]
  simp

/-- The line of some values. -/
def writtenLine (values : List (Option String)) : String := joinFields (values.map writeField)

/-- The line of some values as it is read. -/
def lineBack (values : List (Option String)) : String := withoutReturn (writtenLine values)

/-- The field of a value as it is read from the end of a line. -/
def lastBack (v : Option String) : String := withoutReturn (writeField v)

/-- What is last in a line comes after the other fields. -/
theorem lineBack_concat (vs : List (Option String)) (v : Option String) :
    lineBack (vs ++ [v]) = joinFields (vs.map writeField ++ [lastBack v]) := by
  rw [lineBack, writtenLine, List.map_append, List.map_singleton, withoutReturn_joinFields]
  rfl

/-- A line of more than one value holds a separator. -/
theorem separator_mem_lineBack (v : Option String) (vs : List (Option String))
    (w : Option String) : separator ∈ (lineBack (v :: vs ++ [w])).toList := by
  rw [lineBack_concat, toList_joinFields_concat]
  simp

/-- No value of a line of plain values brings a separator. -/
theorem not_mem_writeField {v : Option String} (h : ∀ x ∈ v, Plain x) :
    separator ∉ (writeField v).toList := by
  cases v with
  | none => decide
  | some x => exact (h x rfl).no_separator

/-- No line of plain values holds a line feed. -/
theorem feed_not_mem_writtenLine {vs : List (Option String)}
    (h : ∀ v ∈ vs, ∀ x ∈ v, Plain x) : '\n' ∉ (writtenLine vs).toList := by
  intro hc
  rcases mem_joinFields hc with hs | ⟨f, hf, hc⟩
  · exact absurd hs (by decide)
  · obtain ⟨v, hv, rfl⟩ := List.mem_map.mp hf
    cases v with
    | none => exact absurd hc (by decide)
    | some x => exact (h _ hv x rfl).no_feed hc

/-- The fields that are read of a line of plain values: all of them, unless nothing is left
of the last one. -/
theorem splitFields_lineBack (vs : List (Option String)) (v : Option String)
    (h : ∀ w ∈ vs ++ [v], ∀ x ∈ w, Plain x) :
    splitFields (lineBack (vs ++ [v])) =
      if lastBack v = "" then vs.map writeField else vs.map writeField ++ [lastBack v] := by
  rw [lineBack_concat]
  apply splitFields_joinFields
  intro g hg
  rcases List.mem_append.mp hg with hg | hg
  · obtain ⟨w, hw, rfl⟩ := List.mem_map.mp hg
    exact not_mem_writeField (h w (List.mem_append_left _ hw))
  · rw [List.mem_singleton.mp hg]
    exact fun hc => not_mem_writeField (h v (by simp)) (mem_of_mem_withoutReturn hc)

/-- A value is read back from the end of a line exactly if it is closed. -/
theorem readField_lastBack_iff {v : Option String} (hv : ∀ x ∈ v, Plain x) :
    lastBack v ≠ "" ∧ readField (lastBack v) = v ↔ Closed v := by
  cases v with
  | none =>
    refine iff_of_true ⟨by decide, by decide⟩ ?_
    rintro x ⟨⟩
  | some x =>
    have hx : x ≠ absent := (hv x rfl).ne_absent
    constructor
    · rintro ⟨hne, hread⟩ y ⟨⟩
      have hself : withoutReturn x = x := (readField_eq_some hread).1
      refine ⟨?_, withoutReturn_eq_self_iff.mp hself⟩
      rintro rfl
      exact hne rfl
    · intro hc
      obtain ⟨hne, hlast⟩ := hc x rfl
      have hself : lastBack (some x) = x := withoutReturn_eq_self_iff.mpr hlast
      rw [hself]
      exact ⟨hne, if_neg hx⟩

/-- Only a value that is there can be lost at the end of a line. -/
theorem ne_none_of_lastBack_eq {v : Option String} (h : lastBack v = "") : v ≠ none := by
  rintro rfl
  exact absurd h (by decide)

/-- The pieces of a line make up the line. -/
theorem join_split (line : String) : join separator (split separator line) = line := by
  rw [join, split, List.map_map]
  simp [Function.comp_def, joinPieces_pieces]

/-- A line that ends in an empty field, with another before it, ends in a separator. -/
theorem joinFields_concat_empty {fs : List String} (h : fs ≠ []) :
    joinFields (fs ++ [""]) = joinFields fs ++ ":" := by
  rcases List.eq_nil_or_concat fs with rfl | ⟨gs, g, rfl⟩
  · exact absurd rfl h
  · rw [List.concat_eq_append, ← String.toList_inj, String.toList_append, toList_joinFields_concat,
      toList_joinFields_concat, List.flatMap_append]
    simp [separator]

/-- A line that ends in a field with something in it does not end in a separator. -/
theorem getLast?_joinFields_concat {fs : List String} {f : String} (hne : f ≠ "")
    (hf : separator ∉ f.toList) :
    (joinFields (fs ++ [f])).toList.getLast? ≠ some separator := by
  have hchars : f.toList ≠ [] := by simpa using hne
  rw [toList_joinFields_concat, List.getLast?_append, List.getLast?_eq_some_getLast hchars,
    Option.some_or]
  intro h
  exact hf (Option.some.inj h ▸ List.getLast_mem hchars)

/-- The fields of a line give the line again, but for one separator at its end. -/
theorem line_eq_joinFields (line : String) :
    line = joinFields (splitFields line) ++
      if line.toList.getLast? = some separator then ":" else "" := by
  have hjoin : joinFields (split separator line) = line := join_split line
  rcases List.eq_nil_or_concat (split separator line) with hsplit | ⟨fs, f, hsplit⟩
  · exact absurd (List.map_eq_nil_iff.mp hsplit) (pieces_ne_nil separator line.toList)
  · rw [List.concat_eq_append] at hsplit
    have hf : separator ∉ f.toList := by
      have hmem : f ∈ split separator line := by simp [hsplit]
      obtain ⟨p, hp, rfl⟩ := List.mem_map.mp hmem
      simpa using not_mem_of_mem_pieces hp
    rw [hsplit] at hjoin
    have hfields : splitFields line = if f = "" then fs else fs ++ [f] := by
      simp [splitFields, hsplit]
    by_cases hempty : f = ""
    · subst hempty
      rw [hfields, if_pos rfl]
      by_cases hfs : fs = []
      · subst hfs
        rw [← hjoin]
        rfl
      · rw [joinFields_concat_empty hfs] at hjoin
        rw [if_pos, hjoin]
        simp [← hjoin, separator]
    · rw [hfields, if_neg hempty, if_neg, hjoin, String.append_empty]
      rw [← hjoin]
      exact getLast?_joinFields_concat hempty hf

/-- A list of fields is read back exactly if it does not end in an empty field. -/
theorem splitFields_joinFields_eq_self {fs : List String} (h : ∀ f ∈ fs, separator ∉ f.toList) :
    splitFields (joinFields fs) = fs ↔ fs = [] ∨ ∃ f, fs.getLast? = some f ∧ f ≠ "" := by
  rcases List.eq_nil_or_concat fs with rfl | ⟨gs, g, rfl⟩
  · exact iff_of_true rfl (.inl rfl)
  · rw [List.concat_eq_append] at h ⊢
    rw [splitFields_joinFields h]
    by_cases hg : g = ""
    · simp [hg]
    · simp [hg]

/-- No field holds a separator, and the fields of a line give the line again, but for one
separator at its end. A list of texts without separators is read back from their line exactly
if it is empty or its last text is not. -/
theorem fields_and_line :
    (∀ line : String, (∀ f ∈ splitFields line, separator ∉ f.toList) ∧
      (line.toList.getLast? = some separator → joinFields (splitFields line) ++ ":" = line) ∧
      (line.toList.getLast? ≠ some separator → joinFields (splitFields line) = line)) ∧
    ∀ fs : List String, (∀ f ∈ fs, separator ∉ f.toList) →
      (splitFields (joinFields fs) = fs ↔ fs = [] ∨ ∃ f, fs.getLast? = some f ∧ f ≠ "") := by
  refine ⟨fun line => ⟨fun f => not_mem_of_mem_splitFields, ?_, ?_⟩,
    fun fs => splitFields_joinFields_eq_self⟩
  · intro hlast
    have hline := line_eq_joinFields line
    rw [if_pos hlast] at hline
    exact hline.symm
  · intro hlast
    have hline := line_eq_joinFields line
    rw [if_neg hlast, String.append_empty] at hline
    exact hline.symm

/-- A line that ends in two separators loses one of them, one that does not end in a separator
is kept, and an empty text is read back in front of another but not at the end. -/
theorem fields_and_line_of_empty :
    joinFields (splitFields "a::") ++ ":" = "a::" ∧ joinFields (splitFields "") = "" ∧
      splitFields (joinFields ["", "a"]) = ["", "a"] ∧
      splitFields (joinFields ["a", ""]) ≠ ["a", ""] :=
  ⟨(fields_and_line.1 "a::").2.1 (by decide), (fields_and_line.1 "").2.2 (by decide),
    (fields_and_line.2 ["", "a"] (by decide)).mpr (.inr ⟨"a", rfl, by decide⟩),
    fun h => absurd ((fields_and_line.2 ["a", ""] (by decide)).mp h) (by decide)⟩

end VisualNovel.Scenario

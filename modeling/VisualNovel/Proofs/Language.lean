import Mathlib.Data.Set.Card
import VisualNovel.Language
import VisualNovel.Proofs.Table
import VisualNovel.Proofs.Text.Lines

/-!
# Language files

A text describes a language exactly if its first two lines have no equals sign and some line
after them has exactly one. Then the language is named by the first two lines as they are, a
caption is translated by the last line that has it in front of its equals sign, and there are as
many captions as stand there.
-/

namespace VisualNovel.Language

open Text

variable {text line caption words first second : String} {rest : List String} {l : Language}

/-- A line that gives the words for a caption. -/
structure Gives (line caption words : String) : Prop where
  line_eq : line = caption ++ "=" ++ words
  caption_uncut : '=' ∉ caption.toList
  words_uncut : '=' ∉ words.toList

/-- A line that gives words has the caption, a sign and the words. -/
theorem Gives.toList_eq (h : Gives line caption words) :
    line.toList = caption.toList ++ '=' :: words.toList := by
  rw [h.line_eq]
  simp

/-- An entry is read from a line just if the line gives it. -/
theorem entryOf?_eq_some_iff :
    entryOf? line = some (caption, words) ↔ Gives line caption words := by
  constructor
  · intro h
    rw [entryOf?, split] at h
    match hpieces : pieces '=' line.toList with
    | [] | [_] | _ :: _ :: _ :: _ => simp [hpieces] at h
    | [before, after] =>
      rw [hpieces] at h
      obtain ⟨rfl, rfl⟩ := Prod.mk.inj (Option.some.inj h)
      have hjoin := joinPieces_pieces '=' line.toList
      have huncut : ∀ p ∈ pieces '=' line.toList, '=' ∉ p := fun _ => not_mem_of_mem_pieces
      rw [hpieces] at hjoin huncut
      constructor
      · rw [← String.toList_inj, ← hjoin]
        simp [joinPieces]
      · rw [String.toList_ofList]
        exact huncut before (by simp)
      · rw [String.toList_ofList]
        exact huncut after (by simp)
  · intro h
    have hpieces : pieces '=' line.toList = [caption.toList, words.toList] := by
      rw [h.toList_eq, pieces_append_cons h.caption_uncut, pieces_of_not_mem h.words_uncut]
    rw [entryOf?, split, hpieces]
    simp

/-- A line without an equals sign is taken as it is. -/
theorem plainLine?_of_not_mem (h : '=' ∉ line.toList) : plainLine? line = some line := by
  rw [plainLine?, split, pieces_of_not_mem h]
  simp

/-- A line with a sign is not a plain one. -/
theorem plainLine?_of_mem (h : '=' ∈ line.toList) : plainLine? line = none := by
  obtain ⟨before, after, hline, hbefore⟩ := List.eq_append_cons_of_mem h
  obtain ⟨piece, pieces, hpieces⟩ := List.exists_cons_of_ne_nil (pieces_ne_nil '=' after)
  rw [plainLine?, split, hline, pieces_append_cons hbefore, hpieces]
  rfl

/-- The lines that give words are those with one equals sign. -/
theorem exists_gives_iff : (∃ caption words, Gives line caption words) ↔
    line.toList.count '=' = 1 := by
  constructor
  · rintro ⟨caption, words, h⟩
    rw [h.toList_eq, List.count_append, List.count_cons_self,
      List.count_eq_zero.mpr h.caption_uncut,
      List.count_eq_zero.mpr h.words_uncut]
  · intro h
    have hmem : '=' ∈ line.toList := List.count_pos_iff.mp (by omega)
    obtain ⟨before, after, hline, hbefore⟩ := List.eq_append_cons_of_mem hmem
    rw [hline, List.count_append, List.count_cons_self] at h
    refine ⟨String.ofList before, String.ofList after, ?_, ?_, ?_⟩
    · rw [← String.toList_inj, hline]
      simp
    · rwa [String.toList_ofList]
    · rw [String.toList_ofList]
      exact List.count_eq_zero.mp (by omega)

/-- Lines that describe a language. -/
structure Describable (lines : List String) : Prop where
  named : ∃ name, lines[0]? = some name ∧ '=' ∉ name.toList
  coded : ∃ codePage, lines[1]? = some codePage ∧ '=' ∉ codePage.toList
  worded : ∃ line ∈ lines.drop 2, line.toList.count '=' = 1

/-- What a language is by the lines that describe it. -/
structure DescribedBy (l : Language) (lines : List String) : Prop where
  name_eq : lines[0]? = some l.name
  codePage_eq : lines[1]? = some l.codePage
  /-- The last line with a caption gives the words for it. -/
  translate_of_last (before after : List String) (line caption words : String)
    (lines_eq : lines.drop 2 = before ++ line :: after) (gives : Gives line caption words)
    (last : ∀ other ∈ after, ∀ words', ¬ Gives other caption words') : l.translate caption = words
  /-- A caption that no line has stays as it is. -/
  translate_of_none (caption : String)
    (none : ∀ line ∈ lines.drop 2, ∀ words, ¬ Gives line caption words) :
    l.translate caption = caption
  size_eq : l.size = {caption | ∃ line ∈ lines.drop 2, ∃ words, Gives line caption words}.ncard

/-- The entries that are read are those that the lines give. -/
theorem mem_filterMap_entryOf? {lines : List String} :
    (caption, words) ∈ lines.filterMap entryOf? ↔ ∃ line ∈ lines, Gives line caption words := by
  simp only [List.mem_filterMap, entryOf?_eq_some_iff]

/-- There are words exactly if some line has one equals sign. -/
theorem isEmpty_ofList_filterMap {lines : List String} :
    (Table.ofList (lines.filterMap entryOf?)).isEmpty = false ↔
      ∃ line ∈ lines, line.toList.count '=' = 1 := by
  rw [Table.isEmpty_ofList, List.isEmpty_eq_false_iff_exists_mem]
  simp only [Prod.exists, mem_filterMap_entryOf?, ← exists_gives_iff]
  constructor
  · rintro ⟨caption, words, line, hline, h⟩
    exact ⟨line, hline, caption, words, h⟩
  · rintro ⟨line, hline, caption, words, h⟩
    exact ⟨caption, words, line, hline, h⟩

/-- A language is made of two plain lines and what the lines after them give words for. -/
theorem ofText?_eq_some_iff (hlines : lines text = first :: second :: rest) :
    ofText? text = some l ↔ ('=' ∉ first.toList ∧ '=' ∉ second.toList ∧
      ∃ line ∈ rest, line.toList.count '=' = 1) ∧
      l = ⟨first, second, .ofList (rest.filterMap entryOf?)⟩ := by
  rw [ofText?, hlines, ← isEmpty_ofList_filterMap]
  dsimp only
  cases (Table.ofList (rest.filterMap entryOf?)).isEmpty with
  | true => simp
  | false =>
    rw [if_neg Bool.false_ne_true]
    by_cases hfirst : '=' ∈ first.toList
    · simp [plainLine?_of_mem hfirst, hfirst]
    by_cases hsecond : '=' ∈ second.toList
    · simp [plainLine?_of_mem hsecond, hsecond, plainLine?_of_not_mem hfirst]
    · simp [plainLine?_of_not_mem hfirst, plainLine?_of_not_mem hsecond, hfirst, hsecond, eq_comm]

/-- Lines describe a language if neither of the first two has a sign, and one of the others has just
one. -/
theorem describable_iff (hlines : lines text = first :: second :: rest) :
    Describable (lines text) ↔ '=' ∉ first.toList ∧ '=' ∉ second.toList ∧
      ∃ line ∈ rest, line.toList.count '=' = 1 := by
  rw [hlines]
  constructor
  · rintro ⟨⟨name, hname, hfirst⟩, ⟨codePage, hcodePage, hsecond⟩, hrest⟩
    obtain rfl := Option.some.inj hname
    obtain rfl := Option.some.inj hcodePage
    exact ⟨hfirst, hsecond, hrest⟩
  · rintro ⟨hfirst, hsecond, hrest⟩
    exact ⟨⟨_, rfl, hfirst⟩, ⟨_, rfl, hsecond⟩, hrest⟩

/-- A language that is made of the entries is described by the lines. -/
theorem describedBy_ofList (hlines : lines text = first :: second :: rest) :
    DescribedBy ⟨first, second, .ofList (rest.filterMap entryOf?)⟩ (lines text) where
  name_eq := by rw [hlines]; rfl
  codePage_eq := by rw [hlines]; rfl
  translate_of_last before after line caption words hrest hgives hlast := by
    have hcaption : ∀ e ∈ after.filterMap entryOf?, e.1 ≠ caption := by
      rintro ⟨other, words'⟩ he rfl
      obtain ⟨line', hline', hgives'⟩ := mem_filterMap_entryOf?.mp he
      exact hlast line' hline' words' hgives'
    have hentries : rest.filterMap entryOf? =
        before.filterMap entryOf? ++ (caption, words) :: after.filterMap entryOf? := by
      rw [hlines, List.drop_succ_cons, List.drop_succ_cons, List.drop_zero] at hrest
      rw [hrest, List.filterMap_append, List.filterMap_cons_some (entryOf?_eq_some_iff.mpr hgives)]
    have hvalue := Table.lastValue_append_cons (e := (caption, words)) hcaption
      (before.filterMap entryOf?)
    rw [translate, Table.get?_ofList, hentries, hvalue, Option.getD_some]
  translate_of_none caption hnone := by
    rw [hlines, List.drop_succ_cons, List.drop_succ_cons, List.drop_zero] at hnone
    have hcaption : ∀ e ∈ rest.filterMap entryOf?, e.1 ≠ caption := by
      rintro ⟨other, words⟩ he rfl
      obtain ⟨line, hline, hgives⟩ := mem_filterMap_entryOf?.mp he
      exact hnone line hline words hgives
    rw [translate, Table.get?_ofList, Table.lastValue_eq_none hcaption, Option.getD_none]
  size_eq := by
    have hcaptions : {caption | ∃ line ∈ rest, ∃ words, Gives line caption words} =
        ↑((rest.filterMap entryOf?).map (·.1)).toFinset := by
      ext caption
      simp only [Set.mem_ofPred_eq, List.coe_toFinset, List.mem_map, Prod.exists,
        mem_filterMap_entryOf?, exists_and_right, exists_eq_right]
      constructor
      · rintro ⟨line, hline, words, hgives⟩
        exact ⟨words, line, hline, hgives⟩
      · rintro ⟨words, line, hline, hgives⟩
        exact ⟨line, hline, words, hgives⟩
    rw [hlines, List.drop_succ_cons, List.drop_succ_cons, List.drop_zero, hcaptions,
      Set.ncard_coe_finset, size, Table.size_ofList]

/-- A text gives a language exactly if its lines describe one, and it gives the one that they
describe. -/
theorem describedBy_ofText? (text : String) :
    match ofText? text with
    | some l => Describable (lines text) ∧ l.DescribedBy (lines text)
    | none => ¬ Describable (lines text) := by
  match hlines : lines text with
  | [] | [_] =>
    have hnone : ofText? text = none := by rw [ofText?, hlines]
    rw [hnone]
    rintro ⟨_, ⟨_, hsecond, _⟩, _⟩
    cases hsecond
  | first :: second :: rest =>
    rw [← hlines]
    cases hlanguage : ofText? text with
    | some l =>
      obtain ⟨hplain, rfl⟩ := (ofText?_eq_some_iff hlines).mp hlanguage
      exact ⟨(describable_iff hlines).mpr hplain, describedBy_ofList hlines⟩
    | none =>
      intro hdescribable
      have hplain := (describable_iff hlines).mp hdescribable
      rw [(ofText?_eq_some_iff hlines).mpr ⟨hplain, rfl⟩] at hlanguage
      cases hlanguage

end VisualNovel.Language

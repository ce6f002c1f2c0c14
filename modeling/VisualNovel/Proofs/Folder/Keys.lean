import VisualNovel.Proofs.Folder.Saves
import VisualNovel.Proofs.Text.Blank
import VisualNovel.Proofs.Text.Extension

/-!
# Keys of saves

The name that a save is kept under is made once: made of a name that was made this way it is the
same again. It is not empty, and it is what the name of the file begins with up to the last
point, so that a list of files is a list of keys.
-/

namespace VisualNovel.SaveFolder

open Text

/-- What a character becomes in the name of a file. -/
def replaced (c : Char) : Char := if reserved.contains c then '_' else c

/-- The key of a name is its trimmed text, character by character, unless only points are left. -/
theorem keyOf_eq (name : String) : keyOf name =
    if ((trimChars name.toList).map replaced).all (· == '.') then autosaveName
    else String.ofList ((trimChars name.toList).map replaced) := rfl

/-- What a character becomes stays as it is. -/
theorem replaced_replaced (c : Char) : replaced (replaced c) = replaced c := by
  by_cases h : reserved.contains c = true
  · have hc : replaced c = '_' := if_pos h
    rw [hc]
    decide
  · have hc : replaced c = c := if_neg h
    rw [hc, hc]

/-- A character that is not white space does not become white space. -/
theorem isBlankChar_replaced {c : Char} (h : isBlankChar c = false) :
    isBlankChar (replaced c) = false := by
  rw [replaced]
  split
  · decide
  · exact h

/-- No white space comes to the ends of a trimmed text when its characters are replaced. -/
theorem trimChars_map_replaced (cs : List Char) :
    trimChars ((trimChars cs).map replaced) = (trimChars cs).map replaced := by
  rw [trimChars_eq_self_iff]
  constructor
  · intro c hc
    rw [List.head?_map] at hc
    obtain ⟨d, hd, rfl⟩ := Option.map_eq_some_iff.mp hc
    exact isBlankChar_replaced (head?_trimChars d hd)
  · intro c hc
    rw [List.getLast?_map] at hc
    obtain ⟨d, hd, rfl⟩ := Option.map_eq_some_iff.mp hc
    exact isBlankChar_replaced (getLast?_trimChars d hd)

/-- The key of a key is the key. -/
theorem keyOf_keyOf (name : String) : keyOf (keyOf name) = keyOf name := by
  rw [keyOf_eq name]
  split
  · decide
  · next hnamed =>
    rw [keyOf_eq, String.toList_ofList, trimChars_map_replaced, List.map_map,
      show replaced ∘ replaced = replaced from funext replaced_replaced, if_neg hnamed]

/-- A key is never empty. -/
theorem keyOf_ne_empty (name : String) : keyOf name ≠ "" := by
  rw [keyOf_eq]
  split
  · decide
  · next hnamed =>
    intro hempty
    apply hnamed
    rw [← String.toList_eq_nil_iff, String.toList_ofList] at hempty
    rw [hempty]
    rfl

/-- The file of a save has its key for the stem. -/
theorem cutName_fileOf (name : String) :
    Path.cutName (fileOf name) = (keyOf name, some fileExtension) :=
  Path.cutName_eq_iff.mpr ⟨rfl, keyOf_ne_empty name, by decide⟩

/-- The file of a save has the extension of saves. -/
theorem hasExtension_fileOf (name : String) :
    Path.hasExtension [fileExtension] (fileOf name) = true := by
  rw [Path.hasExtension, Path.extension?, cutName_fileOf, Option.any_some]
  decide

/-- Two names have the same file exactly if they have the same key. -/
theorem fileOf_eq_fileOf_iff {a b : String} : fileOf a = fileOf b ↔ keyOf a = keyOf b := by
  constructor
  · exact fun h => Decidable.byContradiction fun hne => fileOf_ne hne h
  · intro h
    rw [fileOf, fileOf, h]

/-- A key has the same file as the name that it comes from. -/
theorem path_keyOf (f : SaveFolder) (name : String) : f.path (keyOf name) = f.path name := by
  rw [path, path, keyOf_keyOf]

end VisualNovel.SaveFolder

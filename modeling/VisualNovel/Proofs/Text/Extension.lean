import VisualNovel.Disk.Path
import VisualNovel.Proofs.Text.Cut

/-!
# Names with an extension

A name that is cut into a stem and an extension is the two with a point between them; the stem is
not empty, and the extension has no point. Extensions are compared without regard to whether the
Latin letters in them are small or capital.
-/

namespace VisualNovel.Path

open Text

variable {name stem ext : String}

/-- An extension comes after a stem and a point. -/
theorem toList_append_point (stem ext : String) :
    (stem ++ "." ++ ext).toList = stem.toList ++ '.' :: ext.toList := by simp

/-- A name is cut at its last point, unless nothing stands in front of it. -/
theorem cutName_eq_iff : cutName name = (stem, some ext) ↔
    name = stem ++ "." ++ ext ∧ stem ≠ "" ∧ '.' ∉ ext.toList := by
  constructor
  · intro h
    rw [cutName] at h
    split at h
    · cases h
    · cases h
    · next front rest hfront hcut =>
      cases h
      obtain ⟨hname, hrest⟩ := eq_of_cutAtLast_eq_some hcut
      refine ⟨?_, ?_, by simpa using hrest⟩
      · rw [← String.toList_inj, hname, toList_append_point, String.toList_ofList,
          String.toList_ofList]
      · exact fun hempty => hfront (by simpa using congrArg String.toList hempty)
  · rintro ⟨rfl, hstem, hext⟩
    rw [cutName, toList_append_point, cutAtLast_append_cons _ hext]
    obtain ⟨c, cs, hcs⟩ := List.exists_cons_of_ne_nil (mt String.toList_eq_nil_iff.mp hstem)
    simp only [hcs]
    rw [← hcs, String.ofList_toList, String.ofList_toList]

/-- A name has one of some extensions just if the one that can be cut off is, in small letters,
among them. -/
theorem hasExtension_iff {extensions : List String} : hasExtension extensions name = true ↔
    ∃ stem ext, cutName name = (stem, some ext) ∧ lowerLatin ext ∈ extensions := by
  rw [hasExtension, extension?, Option.any_eq_true]
  constructor
  · rintro ⟨ext, hext, hmem⟩
    exact ⟨(cutName name).1, ext, Prod.ext rfl hext, List.contains_iff_mem.mp hmem⟩
  · rintro ⟨stem, ext, hcut, hmem⟩
    exact ⟨ext, congrArg Prod.snd hcut, List.contains_iff_mem.mpr hmem⟩

/-- Whether a character is a capital Latin letter, as it is asked before a letter is made small. -/
theorem isCapital_iff {c : Char} :
    (c.val ≥ 'A'.val ∧ c.val ≤ 'Z'.val) ↔ 65 ≤ c.toNat ∧ c.toNat ≤ 90 := by
  have hA : 'A'.val.toNat = 65 := rfl
  have hZ : 'Z'.val.toNat = 90 := rfl
  rw [ge_iff_le, UInt32.le_iff_toNat_le, UInt32.le_iff_toNat_le, hA, hZ, Char.toNat_val]

/-- A capital letter comes thirty-two places before the small one. -/
theorem toNat_toLower {c : Char} (hfirst : 65 ≤ c.toNat) (hlast : c.toNat ≤ 90) :
    c.toLower.toNat = c.toNat + 32 := by
  have hshift : ('a'.val - 'A'.val).toNat = 32 := rfl
  have hsum : c.toNat + 32 < 2 ^ 32 := by omega
  have hval : c.toLower.val = c.val + ('a'.val - 'A'.val) :=
    congrArg Char.val (dif_pos (isCapital_iff.mpr ⟨hfirst, hlast⟩))
  rw [← Char.toNat_val, hval, UInt32.toNat_add, hshift, Char.toNat_val, Nat.mod_eq_of_lt hsum]

/-- Two letters become the same small letter if one of them is the capital of the other, and no
other character becomes it. -/
theorem toLower_eq_iff {c small : Char} (capital : Char) (hfirst : 65 ≤ capital.toNat)
    (hlast : capital.toNat ≤ 90) (hsmall : small.toNat = capital.toNat + 32) :
    c.toLower = small ↔ c = small ∨ c = capital := by
  by_cases h : 65 ≤ c.toNat ∧ c.toNat ≤ 90
  · have hlower := toNat_toLower h.1 h.2
    simp only [← Char.toNat_inj, hlower, hsmall]
    omega
  · have hkept : c.toLower = c := dif_neg (mt isCapital_iff.mp h)
    have hother : c ≠ capital := by
      rintro rfl
      exact h ⟨hfirst, hlast⟩
    rw [hkept, or_iff_left hother]

end VisualNovel.Path

import Mathlib.Data.List.Basic
import Mathlib.Tactic.Lemma

/-!
The strings of the app and the operations its text handlers apply to them.
-/

namespace Wedcast

/-- A JavaScript string, as its UTF-16 code units. -/
abbrev Text := List UInt16

/-- The code unit of a character of the source. -/
def ch (c : Char) : UInt16 := c.toNat.toUInt16

def txt (cs : List Char) : Text := cs.map ch

/-- The class `[ .#$\\\/\[\]]` of the sanitisers of the castId, the passwords and the code. -/
def forbidden : Text := txt [' ', '.', '#', '$', '\\', '/', '[', ']']

/-- The class `[.#$\\\/\[\]]` of the sanitisers of the names, which keep the spaces. -/
def forbiddenInName : Text := txt ['.', '#', '$', '\\', '/', '[', ']']

/-- `text.replace(/[class]+/g, "")` -/
def removeAll (cls text : Text) : Text := text.filter (· ∉ cls)

/-- `text.replace("#", "")`, which removes the first `#` only. -/
def dropHash (text : Text) : Text := text.erase (ch '#')

/-- What a sanitising field shows of a dirty text until its timer fires. -/
def withSpace (sanitizedText : Text) : Text := sanitizedText ++ [ch ' ']

/-- None of the characters of the class occurs in the text. -/
def Free (cls text : Text) : Prop := ∀ c ∈ text, c ∉ cls

instance (cls text : Text) : Decidable (Free cls text) :=
  List.decidableBAll (fun c => c ∉ cls) text

@[simp] lemma free_nil (cls : Text) : Free cls [] := by simp [Free]

lemma free_removeAll (cls text : Text) : Free cls (removeAll cls text) := by
  intro c hc
  simpa using (List.mem_filter.mp hc).2

lemma removeAll_of_free {cls text : Text} (h : Free cls text) : removeAll cls text = text :=
  List.filter_eq_self.mpr fun c hc => by simpa using h c hc

lemma length_removeAll_lt {cls text : Text} (h : removeAll cls text ≠ text) :
    (removeAll cls text).length < text.length := by
  have hle : (removeAll cls text).length ≤ text.length := List.length_filter_le _ _
  have hne : (removeAll cls text).length ≠ text.length := fun heq =>
    h (List.filter_sublist.eq_of_length heq)
  omega

/-- `String.prototype.toLowerCase`, as far as the app relies on it. -/
structure LowerCase where
  toLowerCase : Text → Text
  idem : ∀ text, toLowerCase (toLowerCase text) = toLowerCase text
  /-- No forbidden character is the lower case of another one. -/
  free : ∀ {text}, Free forbidden text → Free forbidden (toLowerCase text)

/-! ### The lower case of ASCII -/

def lowerUnit (c : UInt16) : UInt16 := if ch 'A' ≤ c ∧ c ≤ ch 'Z' then c + 32 else c

lemma lowerUnit_of_not {c : UInt16} (h : ¬(65 ≤ c.toNat ∧ c.toNat ≤ 90)) : lowerUnit c = c := by
  have hA : (ch 'A').toNat = 65 := rfl
  have hZ : (ch 'Z').toNat = 90 := rfl
  simp [lowerUnit, UInt16.le_iff_toNat_le, hA, hZ, h]

lemma lowerUnit_letter {c : UInt16} (h : 65 ≤ c.toNat ∧ c.toNat ≤ 90) :
    97 ≤ (lowerUnit c).toNat ∧ (lowerUnit c).toNat ≤ 122 := by
  have hA : (ch 'A').toNat = 65 := rfl
  have hZ : (ch 'Z').toNat = 90 := rfl
  have hl : lowerUnit c = c + 32 := by simp [lowerUnit, UInt16.le_iff_toNat_le, hA, hZ, h]
  have h32 : (32 : UInt16).toNat = 32 := rfl
  rw [hl, UInt16.toNat_add, h32]
  omega

lemma lowerUnit_idem (c : UInt16) : lowerUnit (lowerUnit c) = lowerUnit c := by
  by_cases h : 65 ≤ c.toNat ∧ c.toNat ≤ 90
  · have := lowerUnit_letter h
    exact lowerUnit_of_not (by omega)
  · rw [lowerUnit_of_not h, lowerUnit_of_not h]

lemma lowerUnit_notMem {c : UInt16} (hc : c ∉ forbidden) : lowerUnit c ∉ forbidden := by
  by_cases h : 65 ≤ c.toNat ∧ c.toNat ≤ 90
  · have hletter := lowerUnit_letter h
    have hnone : ∀ d ∈ forbidden, ¬(97 ≤ d.toNat ∧ d.toNat ≤ 122) := by
      simp [forbidden, txt, ch]
    exact fun hd => hnone _ hd hletter
  · rwa [lowerUnit_of_not h]

/-- `toLowerCase` on the strings of the ASCII range. -/
def asciiLowerCase : LowerCase where
  toLowerCase := List.map lowerUnit
  idem := by simp [lowerUnit_idem]
  free := by
    intro text h c hc
    obtain ⟨d, hd, rfl⟩ := List.mem_map.mp hc
    exact lowerUnit_notMem (h d hd)

end Wedcast

import Mathlib.Data.List.GetD
import Mathlib.Data.Nat.Digits.Lemmas
import Mathlib.Data.Set.Function
import Wedcast.Text

/-!
The `feedId` that `generateUID` draws for a new cast.

Each of two random numbers below 36³ is written to the base 36 and padded with zeros to three
characters. So the ids are all the strings of six such digits, and each is drawn in one way.
-/

namespace Wedcast.CreateFeed

/-- The digits of `toString(36)`. -/
def digits36 : Text :=
  txt ['0', '1', '2', '3', '4', '5', '6', '7', '8', '9', 'a', 'b', 'c', 'd', 'e', 'f', 'g', 'h',
    'i', 'j', 'k', 'l', 'm', 'n', 'o', 'p', 'q', 'r', 's', 't', 'u', 'v', 'w', 'x', 'y', 'z']

def digit36 (d : ℕ) : UInt16 := digits36.getD d 0

/-- `n.toString(36)` -/
def toString36 (n : ℕ) : Text :=
  if n = 0 then [digit36 0] else (Nat.digits 36 n).reverse.map digit36

/-- `text.slice(-3)` -/
def slice3 (text : Text) : Text := text.drop (text.length - 3)

/-- `("000" + part.toString(36)).slice(-3)` -/
def uidPart (part : ℕ) : Text := slice3 (txt ['0', '0', '0'] ++ toString36 part)

/-- `generateUID`, by the two numbers it draws: each is `(Math.random() * 46656) | 0`. -/
def generateUID (firstPart secondPart : ℕ) : Text := uidPart firstPart ++ uidPart secondPart

/-- The number a part was made from. -/
def readPart (text : Text) : ℕ := Nat.ofDigits 36 (text.reverse.map digits36.idxOf)

def readUID (uid : Text) : ℕ × ℕ := (readPart (uid.take 3), readPart (uid.drop 3))

/-- What can be drawn. -/
def Draws : Set (ℕ × ℕ) := {x | x.1 < 46656 ∧ x.2 < 46656}

/-- The strings of a length over the digits. -/
def Strings36 (length : ℕ) : Set Text := {text | text.length = length ∧ ∀ c ∈ text, c ∈ digits36}

lemma nodup_digits36 : digits36.Nodup := by decide

lemma digit36_mem {d : ℕ} (h : d < 36) : digit36 d ∈ digits36 := by
  have hlength : d < digits36.length := h
  rw [digit36, List.getD_eq_getElem _ _ hlength]
  exact List.getElem_mem hlength

lemma idxOf_digit36 {d : ℕ} (h : d < 36) : digits36.idxOf (digit36 d) = d := by
  have hlength : d < digits36.length := h
  rw [digit36, List.getD_eq_getElem _ _ hlength]
  exact nodup_digits36.idxOf_getElem d hlength

lemma digit36_idxOf {c : UInt16} (h : c ∈ digits36) : digit36 (digits36.idxOf c) = c := by
  have hlength : digits36.idxOf c < digits36.length := List.idxOf_lt_length_of_mem h
  rw [digit36, List.getD_eq_getElem _ _ hlength]
  exact List.getElem_idxOf hlength

/-- The padded digits, the last one first. -/
lemma uidPart_eq {part : ℕ} (h : part < 46656) :
    uidPart part = (Nat.digitsAppend 36 3 part).reverse.map digit36 := by
  have hzeros : txt ['0', '0', '0'] = List.replicate 3 (digit36 0) := by decide
  have hlength : (Nat.digits 36 part).length ≤ 3 :=
    (Nat.digits_length_le_iff (by norm_num) part).mpr h
  rw [uidPart, slice3, toString36, hzeros]
  split_ifs with hzero
  · subst hzero
    decide
  · have hdrop : (List.replicate 3 (digit36 0) ++
        (Nat.digits 36 part).reverse.map digit36).length - 3 = (Nat.digits 36 part).length := by
      simp
    rw [hdrop, List.drop_append_of_le_length (by simpa using hlength), List.drop_replicate,
      Nat.digitsAppend, List.reverse_append, List.map_append, List.reverse_replicate,
      List.map_replicate]

lemma uidPart_mem {part : ℕ} (h : part < 46656) : uidPart part ∈ Strings36 3 := by
  rw [uidPart_eq h]
  refine ⟨?_, fun c hc => ?_⟩
  · rw [List.length_map, List.length_reverse]
    exact Nat.length_digitsAppend (by norm_num) 3 h
  · obtain ⟨d, hd, rfl⟩ := List.mem_map.mp hc
    exact digit36_mem (Nat.lt_of_mem_digitsAppend (by norm_num) 3 d (List.mem_reverse.mp hd))

/-- A part is read back. -/
lemma readPart_uidPart {part : ℕ} (h : part < 46656) : readPart (uidPart part) = part := by
  have hdigits : ((Nat.digitsAppend 36 3 part).map digit36).map digits36.idxOf =
      Nat.digitsAppend 36 3 part :=
    calc ((Nat.digitsAppend 36 3 part).map digit36).map digits36.idxOf
        = (Nat.digitsAppend 36 3 part).map (digits36.idxOf ∘ digit36) := List.map_map
      _ = (Nat.digitsAppend 36 3 part).map id := List.map_congr_left fun d hd =>
          idxOf_digit36 (Nat.lt_of_mem_digitsAppend (by norm_num) 3 d hd)
      _ = Nat.digitsAppend 36 3 part := List.map_id _
  rw [readPart, uidPart_eq h, ← List.map_reverse, List.reverse_reverse, hdigits]
  exact (Nat.setInvOn_digitsAppend_ofDigits (by norm_num) 3).2 h

/-- What is read of a string of three digits is a number that can be drawn, and makes the string
again. -/
lemma readPart_spec {text : Text} (h : text ∈ Strings36 3) :
    readPart text < 46656 ∧ uidPart (readPart text) = text := by
  have hdigits : text.reverse.map digits36.idxOf ∈
      {L : List ℕ | L.length = 3 ∧ ∀ d ∈ L, d < 36} := by
    refine ⟨by simpa using h.1, fun d hd => ?_⟩
    obtain ⟨c, hc, rfl⟩ := List.mem_map.mp hd
    exact List.idxOf_lt_length_of_mem (h.2 c (List.mem_reverse.mp hc))
  have hlt : readPart text < 46656 := Nat.mapsTo_ofDigits (by norm_num) 3 hdigits
  refine ⟨hlt, ?_⟩
  calc uidPart (readPart text)
      = (Nat.digitsAppend 36 3 (readPart text)).reverse.map digit36 := uidPart_eq hlt
    _ = (text.reverse.map digits36.idxOf).reverse.map digit36 := by
        rw [readPart, (Nat.setInvOn_digitsAppend_ofDigits (by norm_num) 3).1 hdigits]
    _ = text.map (digit36 ∘ digits36.idxOf) := by
        rw [← List.map_reverse, List.reverse_reverse, List.map_map]
    _ = text.map id := List.map_congr_left fun c hc => digit36_idxOf (h.2 c hc)
    _ = text := List.map_id text

lemma readUID_generateUID {x : ℕ × ℕ} (h : x ∈ Draws) : readUID (generateUID x.1 x.2) = x := by
  have hlength : (uidPart x.1).length = 3 := (uidPart_mem h.1).1
  rw [readUID, generateUID, List.take_left' hlength, List.drop_left' hlength,
    readPart_uidPart h.1, readPart_uidPart h.2]

/-- The halves of an id are made of three digits each. -/
lemma halves_mem {uid : Text} (h : uid ∈ Strings36 6) :
    uid.take 3 ∈ Strings36 3 ∧ uid.drop 3 ∈ Strings36 3 := by
  obtain ⟨hlength, hdigits⟩ := h
  refine ⟨⟨by simp [hlength], fun c hc => hdigits c (List.mem_of_mem_take hc)⟩,
    ⟨by simp [hlength], fun c hc => hdigits c (List.mem_of_mem_drop hc)⟩⟩

/-- **The ids are the strings of six digits**, each drawn in exactly one way. -/
theorem generateUID_bijOn :
    Set.BijOn (fun x : ℕ × ℕ => generateUID x.1 x.2) Draws (Strings36 6) := by
  have hinv : Set.InvOn readUID (fun x : ℕ × ℕ => generateUID x.1 x.2) Draws (Strings36 6) := by
    refine ⟨fun x hx => readUID_generateUID hx, fun uid huid => ?_⟩
    obtain ⟨hfirst, hsecond⟩ := halves_mem huid
    have happend : uid.take 3 ++ uid.drop 3 = uid := List.take_append_drop 3 uid
    simp only [generateUID, readUID, (readPart_spec hfirst).2, (readPart_spec hsecond).2, happend]
  refine hinv.bijOn (fun x hx => ?_) fun uid huid => ?_
  · obtain ⟨hfirst, hsecond⟩ := hx
    obtain ⟨hlength, hdigits⟩ := uidPart_mem hfirst
    obtain ⟨hlength', hdigits'⟩ := uidPart_mem hsecond
    refine ⟨by simp [generateUID, hlength, hlength'], fun c hc => ?_⟩
    exact (List.mem_append.mp hc).elim (hdigits c) (hdigits' c)
  · obtain ⟨hfirst, hsecond⟩ := halves_mem huid
    exact ⟨(readPart_spec hfirst).1, (readPart_spec hsecond).1⟩

/-- The smallest number is drawn first and the largest one after it. -/
example : generateUID 0 46655 = txt ['0', '0', '0', 'z', 'z', 'z'] := by
  have hdigits : Nat.digits 36 46655 = [35, 35, 35] := by norm_num
  rw [generateUID, uidPart, uidPart, toString36, toString36, if_pos rfl, if_neg (by decide), hdigits]
  decide

end Wedcast.CreateFeed

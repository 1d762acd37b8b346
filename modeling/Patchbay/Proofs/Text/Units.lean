import Patchbay.Text.Units
import Mathlib.Data.List.TakeWhile
import Mathlib.Tactic.Common

/-!
Plain texts survive as sixteen-bit units: their characters are read back from the units one by one.
-/
namespace Patchbay.Text.CodeUnits

theorem isHigh_toNat (u : UInt16) : isHigh u = true ↔ 0xD800 ≤ u.toNat ∧ u.toNat ≤ 0xDBFF := by
  simp [isHigh, UInt16.le_iff_toNat_le]

theorem isLow_toNat (u : UInt16) : isLow u = true ↔ 0xDC00 ≤ u.toNat ∧ u.toNat ≤ 0xDFFF := by
  simp [isLow, UInt16.le_iff_toNat_le]

theorem pairUp_single {u : UInt16} (single : isHigh u = false) (rest : List UInt16) :
    pairUp (u :: rest) = u.toNat :: pairUp rest := by
  cases rest with
  | nil => rfl
  | cons v rest => simp [pairUp, single]

theorem pairUp_pair {u v : UInt16} (high : isHigh u = true) (low : isLow v = true) (rest : List UInt16) :
    pairUp (u :: v :: rest) =
      (0x10000 + (u.toNat - 0xD800) * 0x400 + (v.toNat - 0xDC00)) :: pairUp rest := by
  simp [pairUp, high, low]

theorem char_range (c : Char) : c.toNat < 0xD800 ∨ 0xDFFF < c.toNat ∧ c.toNat < 0x110000 := c.valid

theorem pairUp_char (c : Char) (rest : List UInt16) :
    pairUp (ofCodePoint c.toNat ++ rest) = c.toNat :: pairUp rest := by
  have range := char_range c
  by_cases small : c.toNat < 0x10000
  · have unit : c.toNat.toUInt16.toNat = c.toNat := by
      rw [UInt16.toNat_ofNat', Nat.mod_eq_of_lt small]
    have single : isHigh c.toNat.toUInt16 = false := by
      rw [Bool.eq_false_iff, ne_eq, isHigh_toNat, unit]
      omega
    rw [ofCodePoint, if_pos small, List.singleton_append, pairUp_single single, unit]
  · have high : (0xD800 + (c.toNat - 0x10000) / 0x400).toUInt16.toNat =
        0xD800 + (c.toNat - 0x10000) / 0x400 := by
      rw [UInt16.toNat_ofNat', Nat.mod_eq_of_lt (by omega)]
    have low : (0xDC00 + (c.toNat - 0x10000) % 0x400).toUInt16.toNat =
        0xDC00 + (c.toNat - 0x10000) % 0x400 := by
      rw [UInt16.toNat_ofNat', Nat.mod_eq_of_lt (by omega)]
    rw [ofCodePoint, if_neg small]
    simp only [List.cons_append, List.nil_append]
    rw [pairUp_pair ((isHigh_toNat _).mpr (by omega)) ((isLow_toNat _).mpr (by omega)), high, low]
    have whole : 0x10000 + (0xD800 + (c.toNat - 0x10000) / 0x400 - 0xD800) * 0x400 +
        (0xDC00 + (c.toNat - 0x10000) % 0x400 - 0xDC00) = c.toNat := by omega
    rw [whole]

theorem codePoints_ofString (s : String) : (ofString s).codePoints = s.toList.map Char.toNat := by
  change pairUp ((s.toList.map Char.toNat).flatMap ofCodePoint) = _
  induction s.toList with
  | nil => rfl
  | cons c rest ih => rw [List.map_cons, List.flatMap_cons, pairUp_char, ih]

theorem toString?_ofString (s : String) : (ofString s).toString? = .ok s := by
  have whole : ∀ n ∈ s.toList.map Char.toNat, (!isSurrogate n) = true := by
    intro n member
    obtain ⟨c, _, rfl⟩ := List.mem_map.mp member
    have range := char_range c
    simp only [isSurrogate, Bool.not_eq_true', Bool.and_eq_false_iff, decide_eq_false_iff_not]
    omega
  have back : Char.ofNat ∘ Char.toNat = id := funext Char.ofNat_toNat
  simp only [toString?, codePoints_ofString, List.takeWhile_eq_self_iff.mpr whole, List.map_map, back,
    List.map_id, List.length_map, Nat.lt_irrefl, if_false, String.ofList_toList]

end Patchbay.Text.CodeUnits

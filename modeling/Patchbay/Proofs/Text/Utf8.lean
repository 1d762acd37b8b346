import Patchbay.Text.Utf8
import Mathlib.Tactic.Common

/-!
Text that is written as bytes and read again. Every character is read from the bytes that write it,
whatever follows them, so no part of such bytes is invalid.
-/
namespace Patchbay.Text.Utf8

theorem leadLength_toNat (b : UInt8) :
    leadLength b = if b.toNat ≤ 0x7F then some 1
      else if 0xC2 ≤ b.toNat ∧ b.toNat ≤ 0xDF then some 2
      else if 0xE0 ≤ b.toNat ∧ b.toNat ≤ 0xEF then some 3
      else if 0xF0 ≤ b.toNat ∧ b.toNat ≤ 0xF4 then some 4
      else none := by
  simp only [leadLength, UInt8.le_iff_toNat_le, Bool.and_eq_true, decide_eq_true_eq]
  rfl

theorem leadLength_cases {b : UInt8} {k : Nat} (lead : leadLength b = some k) :
    k = 1 ∧ b.toNat ≤ 0x7F ∨ k = 2 ∧ 0xC2 ≤ b.toNat ∧ b.toNat ≤ 0xDF ∨
      k = 3 ∧ 0xE0 ≤ b.toNat ∧ b.toNat ≤ 0xEF ∨ k = 4 ∧ 0xF0 ≤ b.toNat ∧ b.toNat ≤ 0xF4 := by
  rw [leadLength_toNat] at lead
  split_ifs at lead <;> cases lead <;> omega

theorem isTail_toNat (b : UInt8) : isTail b = true ↔ 0x80 ≤ b.toNat ∧ b.toNat ≤ 0xBF := by
  simp only [isTail, UInt8.le_iff_toNat_le, Bool.and_eq_true, decide_eq_true_eq]
  rfl

theorem isSecond_toNat (a b : UInt8) :
    isSecond a b = true ↔ 0x80 ≤ b.toNat ∧ b.toNat ≤ 0xBF ∧ (a.toNat = 0xE0 → 0xA0 ≤ b.toNat) ∧
      (a.toNat = 0xED → b.toNat ≤ 0x9F) ∧ (a.toNat = 0xF0 → 0x90 ≤ b.toNat) ∧
      (a.toNat = 0xF4 → b.toNat ≤ 0x8F) := by
  unfold isSecond
  simp only [beq_iff_eq, ← UInt8.toNat_inj, isTail, UInt8.le_iff_toNat_le]
  split_ifs <;> simp_all <;> omega

/-- The bytes of a character and its code point: the first byte tells how many there are, and each holds a
part of the point. -/
inductive Sequence : Bytes → Nat → Prop
  | one {a : UInt8} (lead : leadLength a = some 1) : Sequence [a] a.toNat
  | two {a b : UInt8} (lead : leadLength a = some 2) (second : isSecond a b = true) :
      Sequence [a, b] (a.toNat % 0x20 * 0x40 + b.toNat % 0x40)
  | three {a b c : UInt8} (lead : leadLength a = some 3) (second : isSecond a b = true)
      (third : isTail c = true) :
      Sequence [a, b, c] ((a.toNat % 0x10 * 0x40 + b.toNat % 0x40) * 0x40 + c.toNat % 0x40)
  | four {a b c d : UInt8} (lead : leadLength a = some 4) (second : isSecond a b = true)
      (third : isTail c = true) (fourth : isTail d = true) :
      Sequence [a, b, c, d] (((a.toNat % 0x08 * 0x40 + b.toNat % 0x40) * 0x40 + c.toNat % 0x40) * 0x40 +
        d.toNat % 0x40)

theorem toNat_byte {k : Nat} (small : k < 256) : (UInt8.ofNat k).toNat = k :=
  UInt8.toNat_ofNat_of_lt' small

theorem sequence_one {n : Nat} (high : n ≤ 0x7F) : Sequence [UInt8.ofNat n] n := by
  have lead : leadLength (UInt8.ofNat n) = some 1 := by
    rw [leadLength_toNat, toNat_byte (by omega), if_pos high]
  have sequence := Sequence.one lead
  rwa [toNat_byte (by omega)] at sequence

theorem sequence_two {n : Nat} (low : 0x7F < n) (high : n ≤ 0x7FF) :
    Sequence [UInt8.ofNat (n / 64 % 32 + 192), UInt8.ofNat (n % 64 + 128)] n := by
  have lead : leadLength (UInt8.ofNat (n / 64 % 32 + 192)) = some 2 := by
    rw [leadLength_toNat, toNat_byte (by omega), if_neg (by omega), if_pos (by omega)]
  have second : isSecond (UInt8.ofNat (n / 64 % 32 + 192)) (UInt8.ofNat (n % 64 + 128)) = true := by
    rw [isSecond_toNat, toNat_byte (by omega), toNat_byte (by omega)]
    omega
  have number : (n / 64 % 32 + 192) % 0x20 * 0x40 + (n % 64 + 128) % 0x40 = n := by omega
  have sequence := Sequence.two lead second
  rwa [toNat_byte (by omega), toNat_byte (by omega), number] at sequence

theorem sequence_three {n : Nat} (low : 0x7FF < n) (high : n ≤ 0xFFFF) (valid : n < 0xD800 ∨ 0xDFFF < n) :
    Sequence [UInt8.ofNat (n / 4096 % 16 + 224), UInt8.ofNat (n / 64 % 64 + 128),
      UInt8.ofNat (n % 64 + 128)] n := by
  have lead : leadLength (UInt8.ofNat (n / 4096 % 16 + 224)) = some 3 := by
    rw [leadLength_toNat, toNat_byte (by omega), if_neg (by omega), if_neg (by omega),
      if_pos (by omega)]
  have second : isSecond (UInt8.ofNat (n / 4096 % 16 + 224)) (UInt8.ofNat (n / 64 % 64 + 128)) =
      true := by
    rw [isSecond_toNat, toNat_byte (by omega), toNat_byte (by omega)]
    omega
  have third : isTail (UInt8.ofNat (n % 64 + 128)) = true := by
    rw [isTail_toNat, toNat_byte (by omega)]
    omega
  have number : ((n / 4096 % 16 + 224) % 0x10 * 0x40 + (n / 64 % 64 + 128) % 0x40) * 0x40 +
      (n % 64 + 128) % 0x40 = n := by omega
  have sequence := Sequence.three lead second third
  rwa [toNat_byte (by omega), toNat_byte (by omega), toNat_byte (by omega), number] at sequence

theorem sequence_four {n : Nat} (low : 0xFFFF < n) (high : n < 0x110000) :
    Sequence [UInt8.ofNat (n / 262144 % 8 + 240), UInt8.ofNat (n / 4096 % 64 + 128),
      UInt8.ofNat (n / 64 % 64 + 128), UInt8.ofNat (n % 64 + 128)] n := by
  have lead : leadLength (UInt8.ofNat (n / 262144 % 8 + 240)) = some 4 := by
    rw [leadLength_toNat, toNat_byte (by omega), if_neg (by omega), if_neg (by omega),
      if_neg (by omega), if_pos (by omega)]
  have second : isSecond (UInt8.ofNat (n / 262144 % 8 + 240)) (UInt8.ofNat (n / 4096 % 64 + 128)) =
      true := by
    rw [isSecond_toNat, toNat_byte (by omega), toNat_byte (by omega)]
    omega
  have third : isTail (UInt8.ofNat (n / 64 % 64 + 128)) = true := by
    rw [isTail_toNat, toNat_byte (by omega)]
    omega
  have fourth : isTail (UInt8.ofNat (n % 64 + 128)) = true := by
    rw [isTail_toNat, toNat_byte (by omega)]
    omega
  have number : (((n / 262144 % 8 + 240) % 0x08 * 0x40 + (n / 4096 % 64 + 128) % 0x40) * 0x40 +
      (n / 64 % 64 + 128) % 0x40) * 0x40 + (n % 64 + 128) % 0x40 = n := by omega
  have sequence := Sequence.four lead second third fourth
  rwa [toNat_byte (by omega), toNat_byte (by omega), toNat_byte (by omega), toNat_byte (by omega),
    number] at sequence

theorem utf8EncodeChar_ofNat {n : Nat} (point : n.isValidChar) :
    String.utf8EncodeChar (Char.ofNat n) =
      if n ≤ 0x7F then [UInt8.ofNat n]
      else if n ≤ 0x7FF then [UInt8.ofNat (n / 64 % 32 + 192), UInt8.ofNat (n % 64 + 128)]
      else if n ≤ 0xFFFF then
        [UInt8.ofNat (n / 4096 % 16 + 224), UInt8.ofNat (n / 64 % 64 + 128), UInt8.ofNat (n % 64 + 128)]
      else [UInt8.ofNat (n / 262144 % 8 + 240), UInt8.ofNat (n / 4096 % 64 + 128),
        UInt8.ofNat (n / 64 % 64 + 128), UInt8.ofNat (n % 64 + 128)] := by
  have value : (Char.ofNat n).val.toNat = n := by
    rw [Char.ofNat, dif_pos point]
    rfl
  rw [String.utf8EncodeChar, value]

theorem sequence_char (c : Char) : Sequence (String.utf8EncodeChar c) c.toNat := by
  have point : c.toNat < 0xD800 ∨ 0xDFFF < c.toNat ∧ c.toNat < 0x110000 := c.valid
  have written := utf8EncodeChar_ofNat (n := c.toNat) point
  rw [Char.ofNat_toNat] at written
  rw [written]
  split_ifs
  · exact sequence_one (by omega)
  · exact sequence_two (by omega) (by omega)
  · exact sequence_three (by omega) (by omega) (by omega)
  · exact sequence_four (by omega) (by omega)

theorem byte_of_toNat {a : UInt8} {k : Nat} (same : k = a.toNat) : UInt8.ofNat k = a := by
  rw [same, UInt8.ofNat_toNat]

theorem Sequence.written {s : Bytes} {n : Nat} (sequence : Sequence s n) :
    String.utf8EncodeChar (Char.ofNat n) = s := by
  cases sequence with
  | @one a lead =>
    have bounds := leadLength_cases lead
    rw [utf8EncodeChar_ofNat (.inl (by omega)), if_pos (by omega), byte_of_toNat rfl]
  | @two a b lead second =>
    have bounds := leadLength_cases lead
    rw [isSecond_toNat] at second
    rw [utf8EncodeChar_ofNat (.inl (by omega)), if_neg (by omega), if_pos (by omega),
      byte_of_toNat (a := a) (by omega), byte_of_toNat (a := b) (by omega)]
  | @three a b c lead second third =>
    have bounds := leadLength_cases lead
    rw [isSecond_toNat] at second
    rw [isTail_toNat] at third
    have point : Nat.isValidChar ((a.toNat % 0x10 * 0x40 + b.toNat % 0x40) * 0x40 + c.toNat % 0x40) := by
      unfold Nat.isValidChar
      omega
    rw [utf8EncodeChar_ofNat point, if_neg (by omega), if_neg (by omega), if_pos (by omega),
      byte_of_toNat (a := a) (by omega), byte_of_toNat (a := b) (by omega),
      byte_of_toNat (a := c) (by omega)]
  | @four a b c d lead second third fourth =>
    have bounds := leadLength_cases lead
    rw [isSecond_toNat] at second
    rw [isTail_toNat] at third fourth
    have point : Nat.isValidChar (((a.toNat % 0x08 * 0x40 + b.toNat % 0x40) * 0x40 + c.toNat % 0x40) * 0x40 +
        d.toNat % 0x40) := by
      unfold Nat.isValidChar
      omega
    rw [utf8EncodeChar_ofNat point, if_neg (by omega), if_neg (by omega), if_neg (by omega),
      byte_of_toNat (a := a) (by omega), byte_of_toNat (a := b) (by omega),
      byte_of_toNat (a := c) (by omega), byte_of_toNat (a := d) (by omega)]

theorem Sequence.step {a : UInt8} {more : Bytes} {n : Nat} (sequence : Sequence (a :: more) n)
    (rest : Bytes) : step a (more ++ rest) = (some (Char.ofNat n), more.length) := by
  cases sequence with
  | one lead => simp only [Utf8.step, lead, List.length_nil]
  | two lead second =>
    simp only [Utf8.step, lead, second, List.cons_append, if_true]
    rfl
  | three lead second third =>
    simp only [Utf8.step, lead, second, third, List.cons_append, Bool.not_true, Bool.false_eq_true, if_true,
      if_false]
    rfl
  | four lead second third fourth =>
    simp only [Utf8.step, lead, second, third, fourth, List.cons_append, Bool.not_true, Bool.false_eq_true,
      if_true, if_false]
    rfl

theorem pieces_char (c : Char) (rest : Bytes) :
    pieces (String.utf8EncodeChar c ++ rest) = some c :: pieces rest := by
  have sequence := sequence_char c
  obtain ⟨a, more, written⟩ := List.exists_cons_of_ne_nil (l := String.utf8EncodeChar c) (by simp)
  rw [written] at sequence ⊢
  rw [List.cons_append, pieces, sequence.step, Char.ofNat_toNat]
  simp

theorem encode_append (s t : List Char) : encode (s ++ t) = encode s ++ encode t := List.flatMap_append

theorem encode_cons (c : Char) (s : List Char) : encode (c :: s) = String.utf8EncodeChar c ++ encode s :=
  rfl

/-- Text that was written as bytes is read again, character by character. -/
theorem pieces_encode (s : List Char) : pieces (encode s) = s.map some := by
  induction s with
  | nil => simp [encode, pieces]
  | cons c s ih =>
    rw [encode, List.flatMap_cons, pieces_char]
    exact congrArg (some c :: ·) ih

theorem lossyString_encode (s : List Char) : lossyString (encode s) = String.ofList s := by
  have read : (fun piece : Option Char => piece.getD replacement) ∘ some = id := rfl
  rw [lossyString, decodeLossy, pieces_encode, List.map_map, read, List.map_id]

theorem Sequence.zero {s : Bytes} {n : Nat} (sequence : Sequence s n) (zero : 0 ∈ s) : s = [0] ∧ n = 0 := by
  have first {a : UInt8} {k : Nat} (lead : leadLength a = some k) (more : 1 < k) : 0 ≠ a := by
    rintro rfl
    have := leadLength_cases lead
    simp only [UInt8.toNat_zero] at this
    omega
  have tail {a : UInt8} (tail : isTail a = true) : 0 ≠ a := by
    rintro rfl
    cases tail
  have second {a b : UInt8} (second : isSecond a b = true) : 0 ≠ b := by
    rintro rfl
    have := (isSecond_toNat ..).mp second
    simp only [UInt8.toNat_zero] at this
    omega
  cases sequence with
  | one lead =>
    obtain rfl := List.mem_singleton.mp zero
    exact ⟨rfl, rfl⟩
  | two lead two =>
    simp [first lead, second two] at zero
  | three lead two three =>
    simp [first lead, second two, tail three] at zero
  | four lead two three four =>
    simp [first lead, second two, tail three, tail four] at zero

theorem zero_mem_encode {s : List Char} (zero : 0 ∈ encode s) : ∃ c ∈ s, c.toNat = 0 := by
  obtain ⟨c, member, zero⟩ := List.mem_flatMap.mp zero
  exact ⟨c, member, ((sequence_char c).zero zero).2⟩

end Patchbay.Text.Utf8

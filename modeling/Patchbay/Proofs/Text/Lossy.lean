import Patchbay.Proofs.Text.Utf8
import Mathlib.Data.List.Infix

/-!
Bytes that are no text throughout. What is read of them is told by a relation that knows only how characters
are written: the bytes of a character are read as the character, and where no character stands, as many bytes
as one could begin with, or else a single one, are read as one mark. Every text of bytes has one reading, and
the decoder finds it.
-/
namespace Patchbay.Text.Utf8

variable {part s : Bytes} {t : List Char}

def Begins (part : Bytes) : Prop := ∃ c : Char, part <+: String.utf8EncodeChar c

/-- The part at the front of a text where no character stands, as long as what could begin one. -/
structure Broken (part s : Bytes) : Prop where
  front : part <+: s
  nonempty : part ≠ []
  unread : ∀ c : Char, ¬ String.utf8EncodeChar c <+: s
  begins : part.length = 1 ∨ Begins part
  longest : ∀ other, other <+: s → Begins other → other.length ≤ part.length

/-- What is read of bytes, with one mark for each part that is broken. -/
inductive Reading : Bytes → List Char → Prop
  | done : Reading [] []
  | char {s : Bytes} {t : List Char} (c : Char) (rest : Reading s t) :
      Reading (String.utf8EncodeChar c ++ s) (c :: t)
  | broken {part s : Bytes} {t : List Char} (broken : Broken part (part ++ s)) (rest : Reading s t) :
      Reading (part ++ s) (replacement :: t)

theorem Broken.length_eq {other : Bytes} (broken : Broken part s) (broken' : Broken other s) :
    part.length = other.length := by
  have le {part other : Bytes} (broken : Broken part s) (broken' : Broken other s) :
      part.length ≤ other.length := by
    obtain single | begins := broken.begins
    · rw [single]
      exact List.length_pos_iff.mpr broken'.nonempty
    · exact broken'.longest part broken.front begins
  exact Nat.le_antisymm (le broken broken') (le broken' broken)

theorem Broken.eq {other : Bytes} (broken : Broken part s) (broken' : Broken other s) : part = other :=
  (List.prefix_of_prefix_length_le broken.front broken'.front (broken.length_eq broken').le).eq_of_length
    (broken.length_eq broken')

theorem Sequence.begins {n : Nat} (sequence : Sequence s n) (front : part <+: s) : Begins part :=
  ⟨Char.ofNat n, sequence.written.symm ▸ front⟩

theorem begins_iff : Begins part ↔ ∃ s n, Sequence s n ∧ part <+: s :=
  ⟨fun ⟨c, front⟩ => ⟨_, _, sequence_char c, front⟩, fun ⟨_, _, sequence, front⟩ => sequence.begins front⟩

theorem Begins.of_front {other : Bytes} (begins : Begins part) (front : other <+: part) : Begins other :=
  begins.imp fun _ whole => front.trans whole

section

variable {a b c d : UInt8} {more : Bytes}

theorem Begins.first (begins : Begins (a :: more)) : leadLength a ≠ none := by
  obtain ⟨s, n, sequence, front⟩ := begins_iff.mp begins
  cases sequence <;> simp_all [List.cons_prefix_cons]

theorem Begins.second (begins : Begins (a :: b :: more)) : leadLength a ≠ some 1 ∧ isSecond a b = true := by
  obtain ⟨s, n, sequence, front⟩ := begins_iff.mp begins
  cases sequence <;> simp_all [List.cons_prefix_cons]

theorem Begins.third (begins : Begins (a :: b :: c :: more)) : leadLength a ≠ some 2 ∧ isTail c = true := by
  obtain ⟨s, n, sequence, front⟩ := begins_iff.mp begins
  cases sequence <;> simp_all [List.cons_prefix_cons]

theorem Begins.fourth (begins : Begins (a :: b :: c :: d :: more)) :
    leadLength a ≠ some 3 ∧ isTail d = true := by
  obtain ⟨s, n, sequence, front⟩ := begins_iff.mp begins
  cases sequence <;> simp_all [List.cons_prefix_cons]

end

structure Stops (a : UInt8) (rest : Bytes) (more : Nat) : Prop where
  begins : more = 0 ∨ Begins (a :: rest.take more)
  stops : rest.length ≤ more ∨ ¬ Begins (a :: rest.take (more + 1))

section

variable {a b c d : UInt8} {k : Nat}

theorem isTail_least : isTail 0x80 = true := rfl

theorem begins_second (lead : leadLength a = some k) (long : k ≠ 1) (second : isSecond a b = true) :
    Begins [a, b] := by
  obtain rfl | rfl | rfl : k = 2 ∨ k = 3 ∨ k = 4 := by
    have := leadLength_cases lead
    omega
  · exact (Sequence.two lead second).begins (List.prefix_append [a, b] [])
  · exact (Sequence.three lead second isTail_least).begins (List.prefix_append [a, b] _)
  · exact (Sequence.four lead second isTail_least isTail_least).begins (List.prefix_append [a, b] _)

theorem begins_third (lead : leadLength a = some 4) (second : isSecond a b = true)
    (third : isTail c = true) : Begins [a, b, c] :=
  (Sequence.four lead second third isTail_least).begins (List.prefix_append [a, b, c] _)

theorem Stops.first (rest : Bytes) (lead : leadLength a = none) : Stops a rest 0 where
  begins := .inl rfl
  stops := .inr fun begins => begins.first lead

theorem Stops.second (rest : Bytes) (bad : ¬ isSecond a b = true) : Stops a (b :: rest) 0 where
  begins := .inl rfl
  stops := .inr fun begins => bad begins.second.2

theorem Stops.third (rest : Bytes) (lead : leadLength a = some k) (long : k ≠ 1)
    (second : isSecond a b = true) (bad : ¬ isTail c = true) : Stops a (b :: c :: rest) 1 where
  begins := .inr (begins_second lead long second)
  stops := .inr fun begins => bad begins.third.2

theorem Stops.fourth (rest : Bytes) (lead : leadLength a = some 4) (second : isSecond a b = true)
    (third : isTail c = true) (bad : ¬ isTail d = true) : Stops a (b :: c :: d :: rest) 2 where
  begins := .inr (begins_third lead second third)
  stops := .inr fun begins => bad begins.fourth.2

theorem Stops.end_first : Stops a [] 0 := ⟨.inl rfl, .inl le_rfl⟩

theorem Stops.end_second (lead : leadLength a = some k) (long : k ≠ 1) (second : isSecond a b = true) :
    Stops a [b] 1 :=
  ⟨.inr (begins_second lead long second), .inl le_rfl⟩

theorem Stops.end_third (lead : leadLength a = some 4) (second : isSecond a b = true)
    (third : isTail c = true) : Stops a [b, c] 2 :=
  ⟨.inr (begins_third lead second third), .inl le_rfl⟩

end

inductive Steps (a : UInt8) (rest : Bytes) : Option Char × Nat → Prop
  | char {n more : Nat} (sequence : Sequence (a :: rest.take more) n) :
      Steps a rest (some (Char.ofNat n), more)
  | broken {more : Nat} (stops : Stops a rest more) : Steps a rest (none, more)

/-- The byte at which a branch ends either completes a character, or is one that nothing could go on with. -/
theorem step_spec (a : UInt8) (rest : Bytes) : Steps a rest (step a rest) := by
  have four {k : Nat} (lead : leadLength a = some k) (one : k ≠ 1) (two : k ≠ 2) (three : k ≠ 3) :
      leadLength a = some 4 := by
    have := leadLength_cases lead
    rw [lead]
    exact congrArg some (by omega)
  fun_cases step a rest with
  | case1 rest lead => exact .broken (.first rest lead)
  | case2 rest lead => exact .char (.one lead)
  | case3 lead b tail second => exact .char (.two lead second)
  | case4 lead b tail bad => exact .broken (.second tail bad)
  | case5 lead => exact .broken .end_first
  | case6 lead b c tail bad => exact .broken (.second _ (by simpa using bad))
  | case7 lead b c tail second third => exact .char (.three lead (by simpa using second) third)
  | case8 lead b c tail second bad => exact .broken (.third tail lead (by decide) (by simpa using second) bad)
  | case9 lead b second => exact .broken (.end_second lead (by decide) second)
  | case10 lead b bad => exact .broken (.second [] bad)
  | case11 lead => exact .broken .end_first
  | case12 k one two three lead b c d tail bad => exact .broken (.second _ (by simpa using bad))
  | case13 k one two three lead b c d tail second bad =>
    exact .broken (.third _ lead one (by simpa using second) (by simpa using bad))
  | case14 k one two three lead b c d tail second third fourth =>
    exact .char (.four (four lead one two three) (by simpa using second) (by simpa using third) fourth)
  | case15 k one two three lead b c d tail second third bad =>
    exact .broken (.fourth tail (four lead one two three) (by simpa using second) (by simpa using third) bad)
  | case16 k one two three lead b c bad => exact .broken (.second _ (by simpa using bad))
  | case17 k one two three lead b c second third =>
    exact .broken (.end_third (four lead one two three) (by simpa using second) third)
  | case18 k one two three lead b c second bad =>
    exact .broken (.third [] lead one (by simpa using second) bad)
  | case19 k one two three lead b second => exact .broken (.end_second lead one second)
  | case20 k one two three lead b bad => exact .broken (.second [] bad)
  | case21 k one two three lead => exact .broken .end_first

theorem Stops.broken {a : UInt8} {rest : Bytes} {more : Nat} (stops : Stops a rest more)
    (taken : step a rest = (none, more)) : Broken (a :: rest.take more) (a :: rest) where
  front := List.cons_prefix_cons.mpr ⟨rfl, List.take_prefix ..⟩
  nonempty := by simp
  unread c front := by
    obtain ⟨tail, whole⟩ := front
    have sequence := sequence_char c
    obtain ⟨b, others, written⟩ := List.exists_cons_of_ne_nil (l := String.utf8EncodeChar c) (by simp)
    rw [written] at sequence whole
    obtain ⟨rfl, rest⟩ := List.cons.inj whole
    have same : others ++ tail = _ := rest
    rw [← same, sequence.step] at taken
    cases taken
  begins := stops.begins.imp (by rintro rfl; rfl) id
  longest other front begins := by
    rw [List.length_cons, List.length_take]
    have bound := front.length_le
    rw [List.length_cons] at bound
    obtain whole | none := stops.stops
    · omega
    · by_contra long
      refine none (begins.of_front (List.prefix_of_prefix_length_le ?_ front ?_))
      · exact List.cons_prefix_cons.mpr ⟨rfl, List.take_prefix ..⟩
      · rw [List.length_cons, List.length_take]
        omega

theorem reading_decodeLossy (s : Bytes) : Reading s (decodeLossy s) := by
  unfold decodeLossy
  fun_induction pieces s with
  | case1 => exact .done
  | case2 a rest piece more taken ih =>
    have spec := step_spec a rest
    rw [taken] at spec
    have split : a :: rest = (a :: rest.take more) ++ rest.drop more := by
      rw [List.cons_append, List.take_append_drop]
    cases spec with
    | char sequence =>
      rw [split, ← sequence.written]
      exact .char _ ih
    | broken stops =>
      have broken := stops.broken taken
      rw [split] at broken ⊢
      exact .broken broken ih

theorem decodeLossy_char (c : Char) (s : Bytes) :
    decodeLossy (String.utf8EncodeChar c ++ s) = c :: decodeLossy s := by
  rw [decodeLossy, decodeLossy, pieces_char, List.map_cons, Option.getD_some]

theorem Broken.decodeLossy (broken : Broken part (part ++ s)) :
    decodeLossy (part ++ s) = replacement :: decodeLossy s := by
  obtain ⟨a, others, rfl⟩ := List.exists_cons_of_ne_nil broken.nonempty
  have spec := step_spec a (others ++ s)
  rw [Utf8.decodeLossy, List.cons_append, pieces]
  generalize taken : step a (others ++ s) = result at spec
  cases spec with
  | @char n more sequence =>
    refine absurd ?_ (broken.unread (Char.ofNat n))
    rw [sequence.written]
    exact List.cons_prefix_cons.mpr ⟨rfl, List.take_prefix ..⟩
  | @broken more stops =>
    -- The decoder takes a broken part as well, and no two are of different lengths.
    have same := broken.eq (stops.broken taken)
    have left : (others ++ s).drop more = s := by
      have whole := List.take_append_drop more (others ++ s)
      rw [← (List.cons.inj same).2] at whole
      exact List.append_cancel_left whole
    change replacement :: Utf8.decodeLossy ((others ++ s).drop more) = _
    rw [left]

/-- The decoder reads bytes as they are to be read, and in no other way can they be. -/
theorem reading_iff : Reading s t ↔ t = decodeLossy s := by
  refine ⟨fun reading => ?_, fun same => same ▸ reading_decodeLossy s⟩
  induction reading with
  | done => simp [decodeLossy, pieces]
  | char c rest ih => rw [ih, decodeLossy_char]
  | broken broken rest ih => rw [ih, broken.decodeLossy]

/-- What begins a character is one part, up to where it breaks off; what begins none is a part by itself. -/
example : decodeLossy [0xE2, 0x82, 0x41, 0xC0, 0x80] = [replacement, 'A', replacement, replacement] := by cbv

theorem reading_encode (t : List Char) : Reading (encode t) t := by
  induction t with
  | nil => exact .done
  | cons c t ih => exact .char c ih

theorem Begins.zero (begins : Begins part) (zero : 0 ∈ part) : part = [0] := by
  obtain ⟨c, front⟩ := begins
  have whole := ((sequence_char c).zero (front.subset zero)).1
  rw [whole] at front
  refine front.eq_of_length_le ?_
  exact List.length_pos_iff.mpr (List.ne_nil_of_mem zero)

theorem Begins.front_of_zeros {n : Nat} (begins : Begins part) (text : s ≠ [])
    (front : part <+: s ++ List.replicate n 0) : part <+: s := by
  obtain ⟨tail, whole⟩ := front
  obtain ⟨others, rfl, -⟩ | ⟨zeros, rfl, within⟩ := List.append_eq_append_iff.mp whole
  · exact List.prefix_append ..
  · cases zeros with
    | nil => rw [List.append_nil]
    | cons b more =>
      have byte : b = 0 := List.eq_of_mem_replicate (within ▸ List.mem_append_left tail List.mem_cons_self)
      have only := begins.zero (by simp [byte])
      simp [List.append_eq_singleton_iff, text] at only

theorem Broken.append_zeros (n : Nat) (broken : Broken part s) :
    Broken part (s ++ List.replicate n 0) := by
  have text : s ≠ [] := broken.front.ne_nil broken.nonempty
  exact
    { front := broken.front.trans (List.prefix_append ..)
      nonempty := broken.nonempty
      unread := fun c front => broken.unread c (Begins.front_of_zeros ⟨c, List.prefix_rfl⟩ text front)
      begins := broken.begins
      longest := fun other front begins => broken.longest other (begins.front_of_zeros text front) begins }

theorem encode_zeros (n : Nat) : encode (List.replicate n '\x00') = List.replicate n 0 := by
  induction n with
  | zero => rfl
  | succ n ih => exact congrArg (0 :: ·) ih

theorem reading_zeros (n : Nat) : Reading (List.replicate n 0) (List.replicate n '\x00') := by
  rw [← encode_zeros]
  exact reading_encode _

theorem Reading.append_zeros (n : Nat) (reading : Reading s t) :
    Reading (s ++ List.replicate n 0) (t ++ List.replicate n '\x00') := by
  induction reading with
  | done => exact reading_zeros n
  | char c rest ih =>
    rw [List.append_assoc, List.cons_append]
    exact .char c ih
  | broken broken rest ih =>
    have broken := broken.append_zeros n
    rw [List.append_assoc] at broken ⊢
    exact .broken broken ih

theorem Reading.eq_nil_iff (reading : Reading s t) : s = [] ↔ t = [] := by
  cases reading with
  | done => simp
  | char c rest => simp
  | broken broken rest => simp [broken.nonempty]

theorem Broken.last (broken : Broken part s) : part.getLast? ≠ some 0 := by
  intro last
  have zero : part = [0] := by
    obtain single | begins := broken.begins
    · obtain ⟨b, rfl⟩ := List.length_eq_one_iff.mp single
      rw [List.getLast?_singleton, Option.some_inj] at last
      rw [last]
    · exact begins.zero (List.mem_of_getLast? last)
  have front := broken.front
  rw [zero] at front
  exact broken.unread '\x00' front

theorem char_last (c : Char) : (String.utf8EncodeChar c).getLast? = some 0 ↔ c = '\x00' := by
  constructor
  · intro last
    exact Char.toNat_inj.mp ((sequence_char c).zero (List.mem_of_getLast? last)).2
  · rintro rfl
    rfl

theorem Reading.last_cons {c : Char} (rest : Reading s t)
    (here : part.getLast? = some 0 ↔ c = '\x00')
    (later : s.getLast? = some 0 ↔ t.getLast? = some '\x00') :
    (part ++ s).getLast? = some 0 ↔ (c :: t).getLast? = some '\x00' := by
  by_cases empty : s = []
  · obtain rfl := rest.eq_nil_iff.mp empty
    rw [empty, List.append_nil, List.getLast?_singleton, Option.some_inj, here]
  · rw [List.getLast?_append_of_ne_nil _ empty,
      List.getLast?_cons_of_ne_nil (mt rest.eq_nil_iff.mpr empty), later]

/-- A zero byte is at the end of a text just where a NUL is at the end of what is read. -/
theorem Reading.last_iff (reading : Reading s t) : s.getLast? = some 0 ↔ t.getLast? = some '\x00' := by
  induction reading with
  | done => simp
  | char c rest ih => exact rest.last_cons (char_last c) ih
  | broken broken rest ih =>
    exact rest.last_cons (iff_of_false broken.last (by decide)) ih

end Patchbay.Text.Utf8

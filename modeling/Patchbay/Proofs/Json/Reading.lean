import Patchbay.Json.Reader
import Patchbay.Proofs.Decimal.Integer
import Patchbay.Proofs.Json.Tree
import Patchbay.Proofs.Text.Utf8
import Patchbay.Settings

/-!
What a reader makes of text that was written. A reader takes a piece off the front of the text, whatever
follows it, so readings are put together as the pieces are. Where a piece may also be refused, what the
reader settles on is stated with its refusals. A number needs a byte behind it that cannot belong to it;
all that is written here is followed by such a byte or by nothing.
-/
namespace Patchbay.Json

open Text Text.Utf8

variable {α β : Type}

/-- A reader takes a piece of the text before the rest, and gives a value. -/
def Takes (p : Reader α) (s rest : Bytes) (a : α) : Prop :=
  ∀ n, p ⟨n, s ++ rest⟩ = .ok (a, ⟨n + s.length, rest⟩)

theorem blank_nil : Blank [] := nofun

theorem get_run (f : Cursor → Reader β) (c : Cursor) : (MonadState.get >>= f) c = f c c := rfl

theorem bind_run {p : Reader α} {c c' : Cursor} {a : α} (ok : p c = .ok (a, c')) (f : α → Reader β) :
    (p >>= f) c = f a c' := by
  simp only [Bind.bind, StateT.bind, ok, Except.bind]

namespace Takes

theorem pure (a : α) (rest : Bytes) : Takes (Pure.pure a) [] rest a := fun _ => rfl

theorem bind {p : Reader α} {f : α → Reader β} {s t rest : Bytes} {a : α} {b : β}
    (first : Takes p s (t ++ rest) a) (others : Takes (f a) t rest b) :
    Takes (p >>= f) (s ++ t) rest b := by
  intro n
  have left := others (n + s.length)
  rw [List.append_assoc, bind_run (first n), left, List.length_append, Nat.add_assoc]

theorem last {p : Reader α} {f : α → Reader β} {s rest : Bytes} {a : α} {b : β}
    (first : Takes p s rest a) (others : Takes (f a) [] rest b) : Takes (p >>= f) s rest b := by
  have both : Takes (p >>= f) (s ++ []) rest b := bind first others
  rwa [List.append_nil] at both

theorem map {p : Reader α} (g : α → β) {s rest : Bytes} {a : α} (takes : Takes p s rest a) :
    Takes (p >>= fun x => Pure.pure (g x)) s rest (g a) := last takes (pure (g a) rest)

theorem look {p : Reader α} {f : α → Reader β} {s rest : Bytes} {a : α} {b : β}
    (first : Takes p [] (s ++ rest) a) (others : Takes (f a) s rest b) : Takes (p >>= f) s rest b :=
  bind first others

theorem step {p : Reader α} {f : α → Reader β} {c : UInt8} {s rest : Bytes} {a : α} {b : β}
    (first : Takes p [c] (s ++ rest) a) (others : Takes (f a) s rest b) :
    Takes (p >>= f) (c :: s) rest b := bind first others

theorem get {f : Cursor → Reader β} {s rest : Bytes} {b : β}
    (others : ∀ n, Takes (f ⟨n, s ++ rest⟩) s rest b) : Takes (MonadState.get >>= f) s rest b :=
  fun n => others n n

theorem peek (b : UInt8) (rest : Bytes) : Takes Json.peek [] (b :: rest) (some b) := fun _ => rfl

theorem advance (b : UInt8) (rest : Bytes) : Takes Json.advance [b] rest () := fun _ => rfl

theorem next (b : UInt8) (rest : Bytes) : Takes Json.next [b] rest (some b) := fun _ => rfl

theorem skipBlanks {g rest : Bytes} (blank : Blank g) (stays : rest.dropWhile isSpace = rest) :
    Takes Json.skipSpace g rest rest.head? := by
  intro n
  have space : ∀ b ∈ g, isSpace b = true := by
    intro b member
    obtain rfl | rfl | rfl | rfl := blank b member <;> rfl
  have left : (g ++ rest).dropWhile isSpace = rest := by rw [List.dropWhile_append_of_pos space, stays]
  have skipped : Json.skipSpace ⟨n, g ++ rest⟩ =
      .ok (((g ++ rest).dropWhile isSpace).head?,
        ⟨n + ((g ++ rest).length - ((g ++ rest).dropWhile isSpace).length),
          (g ++ rest).dropWhile isSpace⟩) := rfl
  rw [skipped, left, List.length_append, Nat.add_sub_cancel]

theorem blanks {g : Bytes} (blank : Blank g) {b : UInt8} (mark : isSpace b = false) (rest : Bytes) :
    Takes Json.skipSpace g (b :: rest) (some b) :=
  skipBlanks blank (List.dropWhile_cons_of_neg (by simp [mark]))

theorem skipSpace {b : UInt8} (mark : isSpace b = false) (rest : Bytes) :
    Takes Json.skipSpace [] (b :: rest) (some b) := blanks blank_nil mark rest

theorem valueStart {b : UInt8} (mark : isSpace b = false) (rest : Bytes) :
    Takes Json.valueStart [] (b :: rest) b := look (skipSpace mark rest) (pure b _)

theorem word (s rest : Bytes) : Takes (Json.word s) s rest () := by
  induction s with
  | nil => exact pure () rest
  | cons b s ih =>
    refine step (next b _) ?_
    simpa only [if_true] using ih

end Takes

/-- What a reader settles on for a piece of the text before the rest: it takes the piece and gives a value,
or it complains. -/
def Settles (p : Reader α) (s rest : Bytes) : Option α → Prop
  | some a => Takes p s rest a
  | none => ∀ n, ∃ failure, p ⟨n, s ++ rest⟩ = .error failure

namespace Settles

theorem after {p : Reader α} {f : α → Reader β} {s t rest : Bytes} {a : α} {o : Option β}
    (first : Takes p s (t ++ rest) a) (others : Settles (f a) t rest o) :
    Settles (p >>= f) (s ++ t) rest o := by
  cases o with
  | some b => exact first.bind others
  | none =>
    intro n
    obtain ⟨failure, failed⟩ := others (n + s.length)
    exact ⟨failure, by rw [List.append_assoc, bind_run (first n), failed]⟩

theorem last {p : Reader α} {f : α → Reader β} {s rest : Bytes} {a : α} {o : Option β}
    (first : Takes p s rest a) (others : Settles (f a) [] rest o) : Settles (p >>= f) s rest o := by
  have both : Settles (p >>= f) (s ++ []) rest o := after first others
  rwa [List.append_nil] at both

theorem look {p : Reader α} {f : α → Reader β} {s rest : Bytes} {a : α} {o : Option β}
    (first : Takes p [] (s ++ rest) a) (others : Settles (f a) s rest o) : Settles (p >>= f) s rest o :=
  after first others

theorem step {p : Reader α} {f : α → Reader β} {c : UInt8} {s rest : Bytes} {a : α} {o : Option β}
    (first : Takes p [c] (s ++ rest) a) (others : Settles (f a) s rest o) :
    Settles (p >>= f) (c :: s) rest o := after first others

theorem get {f : Cursor → Reader β} {s rest : Bytes} {o : Option β}
    (others : ∀ n, Settles (f ⟨n, s ++ rest⟩) s rest o) : Settles (MonadState.get >>= f) s rest o := by
  cases o with
  | some b => exact Takes.get others
  | none => exact fun n => others n n

theorem refused {p : Reader α} {f : α → Reader β} {s rest : Bytes} (first : Settles p s rest none) :
    Settles (p >>= f) s rest none := by
  intro n
  obtain ⟨failure, failed⟩ := first n
  exact ⟨failure, by simp only [Bind.bind, StateT.bind, failed, Except.bind]⟩

theorem wider {p : Reader α} {s t rest : Bytes} (refused : Settles p s (t ++ rest) none) :
    Settles p (s ++ t) rest none := by
  intro n
  rw [List.append_assoc]
  exact refused n

theorem bind {p : Reader α} {f : α → Reader β} {s t rest : Bytes} {o : Option α} {k : α → Option β}
    (first : Settles p s (t ++ rest) o) (others : ∀ a, o = some a → Settles (f a) t rest (k a)) :
    Settles (p >>= f) (s ++ t) rest (o.bind k) := by
  cases o with
  | some a => exact after first (others a rfl)
  | none => exact (wider first).refused

theorem close {p : Reader α} {f : α → Reader α} {s t rest : Bytes} {o : Option α}
    (first : Settles p s (t ++ rest) o) (others : ∀ a, Takes (f a) t rest a) :
    Settles (p >>= f) (s ++ t) rest o := by
  cases o with
  | some a => exact Takes.bind first (others a)
  | none => exact (wider first).refused

theorem map {p : Reader α} (g : α → β) {s rest : Bytes} {o : Option α} (settles : Settles p s rest o) :
    Settles (p >>= fun x => Pure.pure (g x)) s rest (o.map g) := by
  cases o with
  | some a => exact Takes.map g settles
  | none => exact refused settles

end Settles

/-- The bytes of a string up to its closing quote are taken for a value or refused, if there is enough
fuel. -/
def Strung (s rest : Bytes) (o : Option Bytes) : Prop :=
  ∀ fuel, s.length < fuel → Settles (stringBytes fuel) s rest o

namespace Strung

variable {s rest : Bytes} {o : Option Bytes}

theorem quote (rest : Bytes) : Strung [0x22] rest (some [])
  | 0 => nofun
  | _ + 1 => fun _ => .look (.peek _ _) (.step (.advance _ _) (.pure _ _))

def Plain (b : UInt8) : Prop := 0x20 ≤ b ∧ b ≠ 0x22 ∧ b ≠ 0x5C

theorem plain {b : UInt8} (stands : Plain b) (others : Strung s rest o) :
    Strung (b :: s) rest (o.map (b :: ·))
  | 0, enough => by cases enough
  | fuel + 1, enough => by
    obtain ⟨high, quote, slash⟩ := stands
    have left := others fuel (Nat.lt_of_succ_lt_succ enough)
    refine .look (.peek _ _) ?_
    split
    · contradiction
    · simp_all
    · simp_all
    · rename_i same
      cases same
      refine .step (.advance _ _) ?_
      rw [if_neg (UInt8.not_lt.mpr high)]
      exact left.map (b :: ·)

theorem letter {b e : UInt8} (escapes : plainEscape? b = some e) (others : Strung s rest o) :
    Strung (0x5C :: b :: s) rest (o.map (e :: ·))
  | 0, enough => by cases enough
  | fuel + 1, enough => by
    have left := others fuel (by simp only [List.length_cons] at enough; omega)
    refine .look (.peek _ _) (.step (.advance _ _) (.step (.next _ _) ?_))
    split
    · contradiction
    · rename_i same
      cases same
      cases escapes
    · rename_i same
      cases same
      simp only [escapes]
      exact left.map (e :: ·)

theorem hexEscape {a b c d : UInt8} {w x y z : Nat} (first : hexValue? a = some w)
    (second : hexValue? b = some x) (third : hexValue? c = some y) (fourth : hexValue? d = some z)
    (rest : Bytes) : Takes Json.hexEscape [a, b, c, d] rest (((w * 16 + x) * 16 + y) * 16 + z) := by
  refine .get fun _ _ => ?_
  simp only [List.cons_append, List.nil_append, first, second, third, fourth]
  rfl

theorem point {t : Bytes} {n : Nat} (reads : Takes codePoint t (s ++ rest) n) (others : Strung s rest o) :
    Strung (0x5C :: 0x75 :: (t ++ s)) rest (o.map (String.utf8EncodeChar (Char.ofNat n) ++ ·))
  | 0, enough => by cases enough
  | fuel + 1, enough => by
    have left := others fuel (by simp only [List.length_cons, List.length_append] at enough; omega)
    refine .look (.peek _ _) (.step (.advance _ _) (.step (.next _ _) ?_))
    exact .after reads (left.map (String.utf8EncodeChar (Char.ofNat n) ++ ·))

theorem codePoint_single {t rest : Bytes} {n : Nat} (reads : Takes Json.hexEscape t rest n)
    (single : n < 0xD800 ∨ 0xDFFF < n) : Takes codePoint t rest n := by
  refine .last reads ?_
  rw [if_neg (by simp; omega), if_pos (by simp; omega)]
  exact .pure n _

theorem plain_byte {k : Nat} (small : k < 256) (high : 0x20 ≤ k) (quote : k ≠ 0x22) (slash : k ≠ 0x5C) :
    Plain (UInt8.ofNat k) := by
  simp only [Plain, UInt8.le_iff_toNat_le, ne_eq, ← UInt8.toNat_inj, toNat_byte small]
  exact ⟨high, quote, slash⟩

theorem plain_char {c : Char} (high : 0x20 ≤ c.toNat) (quote : c ≠ '"') (slash : c ≠ '\\') :
    ∀ b ∈ String.utf8EncodeChar c, Plain b := by
  have written : Char.ofNat c.toNat = c := Char.ofNat_toNat c
  unfold String.utf8EncodeChar
  dsimp only
  rw [← Char.toNat.eq_1]
  generalize c.toNat = n at high written
  have quote : n ≠ 0x22 := by
    rintro rfl
    exact quote written.symm
  have slash : n ≠ 0x5C := by
    rintro rfl
    exact slash written.symm
  -- Every byte of a longer form is above those of one byte.
  split_ifs <;> simp only [List.forall_mem_cons, List.not_mem_nil, false_imp_iff, implies_true, and_true]
  · exact plain_byte (by omega) high quote slash
  · exact ⟨plain_byte (by omega) (by omega) (by omega) (by omega),
      plain_byte (by omega) (by omega) (by omega) (by omega)⟩
  · exact ⟨plain_byte (by omega) (by omega) (by omega) (by omega),
      plain_byte (by omega) (by omega) (by omega) (by omega),
      plain_byte (by omega) (by omega) (by omega) (by omega)⟩
  · exact ⟨plain_byte (by omega) (by omega) (by omega) (by omega),
      plain_byte (by omega) (by omega) (by omega) (by omega),
      plain_byte (by omega) (by omega) (by omega) (by omega),
      plain_byte (by omega) (by omega) (by omega) (by omega)⟩

theorem plains {t : Bytes} (stand : ∀ b ∈ t, Plain b) (others : Strung s rest o) :
    Strung (t ++ s) rest (o.map (t ++ ·)) := by
  induction t with
  | nil => simpa only [List.nil_append, Option.map_id_fun', id] using others
  | cons b t ih =>
    have left := (ih fun x member => stand x (.tail _ member)).plain (stand b (.head _))
    rwa [Option.map_map] at left

theorem digit {n : Nat} (small : n < 16) :
    ∃ b, String.utf8EncodeChar (hexDigit n) = [b] ∧ hexValue? b = some n := by
  have all : ∀ n < 16, String.utf8EncodeChar (hexDigit n) = [UInt8.ofNat (hexDigit n).toNat] ∧
      hexValue? (UInt8.ofNat (hexDigit n).toNat) = some n := by decide +kernel
  exact ⟨_, all n small⟩

theorem escaped (c : Char) (others : Strung s rest o) :
    Strung (encode (escape c) ++ s) rest (o.map (String.utf8EncodeChar c ++ ·)) := by
  unfold escape
  split_ifs with quote slash newline turn tab back feed control
  · subst quote; exact others.letter rfl
  · subst slash; exact others.letter rfl
  · subst newline; exact others.letter rfl
  · subst turn; exact others.letter rfl
  · subst tab; exact others.letter rfl
  · subst back; exact others.letter rfl
  · subst feed; exact others.letter rfl
  · obtain ⟨high, first, third⟩ := digit (show c.toNat / 16 < 16 by omega)
    obtain ⟨low, second, fourth⟩ := digit (show c.toNat % 16 < 16 by omega)
    have bytes : encode ['\\', 'u', '0', '0', hexDigit (c.toNat / 16), hexDigit (c.toNat % 16)] =
        [0x5C, 0x75, 0x30, 0x30, high, low] := by
      rw [encode_cons, encode_cons, encode_cons, encode_cons, encode_cons, encode_cons, first, second]
      rfl
    have number : ((0 * 16 + 0) * 16 + c.toNat / 16) * 16 + c.toNat % 16 = c.toNat := by omega
    have reads := fun rest => hexEscape (show hexValue? 0x30 = some 0 from rfl)
      (show hexValue? 0x30 = some 0 from rfl) third fourth rest
    rw [number] at reads
    have taken := Strung.point (codePoint_single (reads _) (by omega)) others
    rw [Char.ofNat_toNat] at taken
    rw [bytes]
    exact taken
  · rw [encode_cons, show encode [] = [] from rfl, List.append_nil]
    exact others.plains (plain_char (by omega) quote slash)

theorem written (cs : List Char) (rest : Bytes) :
    Strung (encode (cs.flatMap escape) ++ [0x22]) rest (some (encode cs)) := by
  induction cs with
  | nil => exact quote rest
  | cons c cs ih =>
    rw [List.flatMap_cons, encode_cons, encode_append, List.append_assoc]
    exact ih.escaped c

end Strung

theorem settles_string {s rest : Bytes} {o : Option (List Char)} (strung : Strung s rest (o.map encode)) :
    Settles string s rest (o.map String.ofList) := by
  refine .get fun n => ?_
  have enough : s.length < (s ++ rest).length + 1 := by
    rw [List.length_append]
    omega
  have read : lossyString ∘ encode = String.ofList := funext lossyString_encode
  have settles := (strung _ enough).map lossyString
  rwa [Option.map_map, read] at settles

theorem takes_string (s : String) (rest : Bytes) :
    Takes string (encode (s.toList.flatMap escape) ++ [0x22]) rest s := by
  have settles := settles_string (o := some s.toList) (Strung.written s.toList rest)
  rwa [Option.map_some, String.ofList_toList] at settles

inductive Closed : Bytes → Prop
  | nil : Closed []
  | byte {b : UInt8} (digit : isDigitByte b = false) (point : b ≠ 0x2E)
      (mark : isExponentMark (some b) = false) (rest : Bytes) : Closed (b :: rest)

inductive Ended : Bytes → Prop
  | nil : Ended []
  | mark {b : UInt8} (among : b = 0x2C ∨ b = 0x5D ∨ b = 0x7D) (rest : Bytes) : Ended (b :: rest)

theorem Ended.closed {s : Bytes} (ended : Ended s) : Closed s := by
  cases ended with
  | nil => exact .nil
  | mark among rest => obtain rfl | rfl | rfl := among <;> exact .byte rfl (by decide) rfl rest

/-- A reader takes a piece of the text wherever a value may stand. -/
def Reads (p : Reader α) (s : Bytes) (a : α) : Prop := ∀ rest, Ended rest → Takes p s rest a

theorem le_digitsValue (ds : Bytes) (n : Nat) : n ≤ digitsValue n ds := by
  induction ds generalizing n with
  | nil => exact Nat.le_refl n
  | cons b ds ih =>
    have more := ih (10 * n + (b.toNat - 0x30))
    rw [digitsValue, List.foldl_cons]
    rw [digitsValue] at more
    omega

def Stops (s : Bytes) : Prop := ∀ b ∈ s.head?, isDigitByte b = false

theorem Closed.stops {s : Bytes} (closed : Closed s) : Stops s := by
  cases closed with
  | nil => exact nofun
  | byte digit point mark rest =>
    rintro _ ⟨⟩
    exact digit

theorem boundedDigits_takes {ds rest : Bytes} (digits : ∀ b ∈ ds, isDigitByte b = true)
    (stops : Stops rest) {fuel : Nat} (enough : ds.length ≤ fuel) {value : Nat} (taken : Nat)
    (fits : digitsValue value ds ≤ wordLimit) :
    Takes (boundedDigits fuel value taken) ds rest (digitsValue value ds, taken + ds.length, false) := by
  induction fuel generalizing ds value taken with
  | zero =>
    obtain rfl := List.length_eq_zero_iff.mp (Nat.le_zero.mp enough)
    exact .pure _ _
  | succ fuel ih =>
    cases ds with
    | nil =>
      cases rest with
      | nil => exact .look (fun _ => rfl) (.pure _ _)
      | cons b rest =>
        refine .look (.peek _ _) ?_
        simp only [stops b rfl]
        exact .pure _ _
    | cons b ds =>
      have fits' : ¬ wordLimit < 10 * value + (b.toNat - 0x30) :=
        Nat.not_lt.mpr (Nat.le_trans (le_digitsValue ds _) fits)
      have left := ih (fun x member => digits x (.tail _ member)) (Nat.le_of_succ_le_succ enough)
        (taken + 1) fits
      refine .look (.peek _ _) ?_
      simp only [digits b (.head _), if_true, fits', if_false]
      refine .step (.advance _ _) ?_
      rw [List.length_cons, Nat.add_comm ds.length, ← Nat.add_assoc]
      exact left

/-- Digits that are too many for a word are left where it is full. -/
theorem boundedDigits_full {ds : Bytes} (rest : Bytes) (digits : ∀ b ∈ ds, isDigitByte b = true)
    {fuel : Nat} (enough : ds.length ≤ fuel) {value : Nat} (taken : Nat)
    (large : wordLimit < digitsValue value ds) (fits : value ≤ wordLimit) (n : Nat) :
    ∃ v k c, boundedDigits fuel value taken ⟨n, ds ++ rest⟩ = .ok ((v, k, true), c) := by
  induction fuel generalizing ds value taken n with
  | zero =>
    obtain rfl := List.length_eq_zero_iff.mp (Nat.le_zero.mp enough)
    exact absurd large (Nat.not_lt.mpr fits)
  | succ fuel ih =>
    cases ds with
    | nil => exact absurd large (Nat.not_lt.mpr fits)
    | cons b ds =>
      have digit := digits b (.head _)
      by_cases more : wordLimit < 10 * value + (b.toNat - 0x30)
      · refine ⟨value, taken, ⟨n, b :: ds ++ rest⟩, ?_⟩
        have full : Takes (boundedDigits (fuel + 1) value taken) [] (b :: (ds ++ rest))
            (value, taken, true) := by
          refine .look (.peek _ _) ?_
          simp only [digit, if_true, more]
          exact .pure _ _
        exact full n
      · obtain ⟨v, k, c, full⟩ := ih (fun x member => digits x (.tail _ member))
          (Nat.le_of_succ_le_succ enough) (taken + 1) large (Nat.not_lt.mp more) (n + 1)
        refine ⟨v, k, c, full ▸ ?_⟩
        have step : boundedDigits (fuel + 1) value taken ⟨n, b :: (ds ++ rest)⟩ =
            (if isDigitByte b then
              if wordLimit < 10 * value + (b.toNat - 0x30) then pure (value, taken, true)
              else advance >>= fun _ => boundedDigits fuel (10 * value + (b.toNat - 0x30)) (taken + 1)
            else pure (value, taken, false) : Reader _) ⟨n, b :: (ds ++ rest)⟩ := rfl
        rw [List.cons_append, step]
        simp only [digit, if_true, more, if_false]
        rfl

/-- A number whose digits before the point have been read. If they did not fit into a word, `more` counts
those behind the ones that did. -/
def numberTail (negative : Bool) (value : Nat) (more : Option Nat) : Reader Number := do
  let start : Int := more.getD 0
  let mark ← peek
  if mark == some 0x2E then return .real (← decimalPart negative value start)
  else if isExponentMark mark then return .real (← exponentPart negative value start)
  else if more.isSome then return .real (← scaled negative value start)
  else if !negative then return .unsigned value
  else if value = 0 || 9223372036854775808 < value then return .real (Binary.Double.ofInt value).neg
  else return .signed (-value)

theorem numberTail_closed {rest : Bytes} (closed : Closed rest) (value : Nat) :
    Takes (numberTail false value none) [] rest (.unsigned value) := by
  cases closed with
  | nil => exact fun _ => rfl
  | @byte b digit point mark rest =>
    have point : (some b == some 0x2E) = false := by simpa using point
    refine .look (.peek _ _) ?_
    simp only [point, mark, Bool.false_eq_true, if_false]
    exact .pure _ _

theorem numberTail_unsigned {negative : Bool} {value k : Nat} {more : Option Nat} {c c' : Cursor}
    (ok : numberTail negative value more c = .ok (.unsigned k, c')) :
    negative = false ∧ more = none ∧ c.rest.head? ≠ some 0x2E ∧ isExponentMark c.rest.head? = false := by
  have real (p : Reader Binary.Double) :
      (p >>= fun x => pure (Number.real x)) c ≠ .ok (.unsigned k, c') := by
    simp only [Bind.bind, StateT.bind]
    cases p c <;> nofun
  have step : numberTail negative value more c =
      (if c.rest.head? == some 0x2E then do return .real (← decimalPart negative value (more.getD 0 : Nat))
      else if isExponentMark c.rest.head? then do
        return .real (← exponentPart negative value (more.getD 0 : Nat))
      else if more.isSome then do return .real (← scaled negative value (more.getD 0 : Nat))
      else if !negative then return .unsigned value
      else if value = 0 || 9223372036854775808 < value then return .real (Binary.Double.ofInt value).neg
      else return .signed (-value) : Reader Number) c := rfl
  rw [step] at ok
  split_ifs at ok with point mark some plain zero
  · exact absurd ok (real _)
  · exact absurd ok (real _)
  · exact absurd ok (real _)
  · exact ⟨by simpa using plain, by simpa using some, by simpa using point, by simpa using mark⟩
  · cases ok
  · cases ok

section Whole

variable {b : UInt8} {ds : Bytes} (digits : ∀ x ∈ b :: ds, isDigitByte x = true)
  (lead : b = 0x30 → ds = []) (negative : Bool)

include digits lead

/-- Digits that do not begin with an idle zero are read as their value, if it fits into a word. -/
theorem number_fits {rest : Bytes} (stops : Stops rest) (fits : digitsValue 0 (b :: ds) ≤ wordLimit)
    (n : Nat) :
    number negative ⟨n, b :: ds ++ rest⟩ =
      numberTail negative (digitsValue 0 (b :: ds)) none ⟨n + (b :: ds).length, rest⟩ := by
  have digit := digits b (.head _)
  refine (get_run _ _).trans ((bind_run (Takes.next b (ds ++ rest) n) _).trans ?_)
  simp only [digit, Bool.not_true, Bool.false_eq_true, if_false]
  by_cases zero : b = 0x30
  · obtain rfl := lead zero
    subst zero
    cases rest with
    | nil => rfl
    | cons c rest =>
      refine (bind_run (Takes.peek c rest (n + 1)) _).trans ?_
      simp only [stops c rfl]
      rfl
  · simp only [zero, if_false]
    have enough : ds.length ≤ (b :: ds ++ rest).length := by
      simp only [List.length_append, List.length_cons]
      omega
    have bounded : digitsValue 0 (b :: ds) = digitsValue (b.toNat - 0x30) ds := by simp [digitsValue]
    have others : ∀ x ∈ ds, isDigitByte x = true := fun x member => digits x (.tail _ member)
    rw [bounded] at fits ⊢
    refine (bind_run (boundedDigits_takes others stops enough 0 fits (n + 1)) _).trans ?_
    rw [List.length_cons, Nat.add_assoc, Nat.add_comm 1]
    rfl

theorem number_over (rest : Bytes) (large : wordLimit < digitsValue 0 (b :: ds)) (n : Nat) :
    ∃ v k c, number negative ⟨n, b :: ds ++ rest⟩ = numberTail negative v (some k) c := by
  have digit := digits b (.head _)
  have bounded : digitsValue 0 (b :: ds) = digitsValue (b.toNat - 0x30) ds := by simp [digitsValue]
  have zero : b ≠ 0x30 := by
    intro zero
    obtain rfl := lead zero
    subst zero
    exact absurd large (by decide)
  have enough : ds.length ≤ (b :: ds ++ rest).length := by
    simp only [List.length_append, List.length_cons]
    omega
  have others : ∀ x ∈ ds, isDigitByte x = true := fun x member => digits x (.tail _ member)
  have small : b.toNat - 0x30 ≤ wordLimit := by
    have := b.toNat_lt
    rw [wordLimit]
    omega
  rw [bounded] at large
  obtain ⟨v, k, c, full⟩ := boundedDigits_full rest others enough 0 large small (n + 1)
  refine ⟨v, (c.rest.takeWhile isDigitByte).length, ⟨c.read + (c.rest.takeWhile isDigitByte).length,
    c.rest.drop (c.rest.takeWhile isDigitByte).length⟩, ?_⟩
  refine (get_run _ _).trans ((bind_run (Takes.next b (ds ++ rest) n) _).trans ?_)
  simp only [digit, Bool.not_true, Bool.false_eq_true, if_false, zero]
  exact (bind_run full _).trans rfl

theorem number_takes {rest : Bytes} (closed : Closed rest) (fits : digitsValue 0 (b :: ds) ≤ wordLimit) :
    Takes (number false) (b :: ds) rest (.unsigned (digitsValue 0 (b :: ds))) := by
  intro n
  rw [number_fits digits lead false closed.stops fits n]
  exact numberTail_closed closed _ _

end Whole

def digitByte (c : Char) : UInt8 := UInt8.ofNat c.toNat

theorem digit_bounds {c : Char} (digit : Decimal.isDigit c = true) : 0x30 ≤ c.toNat ∧ c.toNat ≤ 0x39 := by
  simpa [Decimal.isDigit, Char.le_def, UInt32.le_iff_toNat_le] using digit

theorem toNat_digitByte {c : Char} (digit : Decimal.isDigit c = true) : (digitByte c).toNat = c.toNat :=
  toNat_byte (by have := digit_bounds digit; omega)

theorem isDigitByte_digitByte {c : Char} (digit : Decimal.isDigit c = true) :
    isDigitByte (digitByte c) = true := by
  have bounds := digit_bounds digit
  rw [← toNat_digitByte digit] at bounds
  simpa [isDigitByte, UInt8.le_iff_toNat_le] using bounds

theorem encode_digits {ds : List Char} (digits : ∀ c ∈ ds, Decimal.isDigit c = true) :
    encode ds = ds.map digitByte := by
  induction ds with
  | nil => rfl
  | cons c ds ih =>
    have small := (digit_bounds (digits c (.head _))).2
    have one : String.utf8EncodeChar c = [digitByte c] := by
      unfold String.utf8EncodeChar
      dsimp only
      rw [← Char.toNat.eq_1, if_pos (by omega)]
      rfl
    rw [encode_cons, one, ih fun x member => digits x (.tail _ member)]
    rfl

theorem digitsValue_bytes {ds : List Char} (digits : ∀ c ∈ ds, Decimal.isDigit c = true) (n : Nat) :
    digitsValue n (ds.map digitByte) = Nat.ofDigitChars 10 ds n := by
  induction ds generalizing n with
  | nil => rfl
  | cons c ds ih =>
    have left := ih (fun x member => digits x (.tail _ member)) (10 * n + (c.toNat - '0'.toNat))
    rw [List.map_cons, digitsValue, List.foldl_cons, toNat_digitByte (digits c (.head _))]
    exact left

theorem written_digits (n : Nat) : ∃ b ds, ofString (toString n) = b :: ds ∧
    (∀ x ∈ b :: ds, isDigitByte x = true) ∧ (b = 0x30 → ds = []) ∧ digitsValue 0 (b :: ds) = n := by
  have digits : ∀ c ∈ Nat.toDigits 10 n, Decimal.isDigit c = true :=
    fun _ member => Decimal.isDigit_of_written member
  have bytes : ofString (toString n) = (Nat.toDigits 10 n).map digitByte := by
    rw [ofString, Nat.toString_eq_repr, Nat.toList_repr, encode_digits digits]
  have value := digitsValue_bytes digits 0
  rw [Nat.ofDigitChars_ten_toDigits] at value
  cases written : Nat.toDigits 10 n with
  | nil => exact absurd written Nat.toDigits_ne_nil
  | cons c cs =>
    rw [written] at digits bytes value
    refine ⟨digitByte c, cs.map digitByte, bytes, ?_, ?_, value⟩
    · intro x member
      obtain ⟨d, among, rfl⟩ := List.mem_map.mp (show x ∈ (c :: cs).map digitByte from member)
      exact isDigitByte_digitByte (digits d among)
    · intro zero
      have first : c = '0' := by
        have same := congrArg UInt8.toNat zero
        rw [toNat_digitByte (digits c (.head _))] at same
        exact (Char.ofNat_toNat c).symm.trans (congrArg Char.ofNat same)
      obtain rfl | positive := Nat.eq_zero_or_pos n
      · cases written
        rfl
      · exact absurd (by rw [written, first]; rfl) (Decimal.head_written positive)

theorem digit_beq {b c : UInt8} (digit : isDigitByte b = true) (other : isDigitByte c = false) :
    (b == c) = false := by
  rw [beq_eq_false_iff_ne]
  rintro rfl
  rw [digit] at other
  cases other

theorem isSpace_digit {b : UInt8} (digit : isDigitByte b = true) : isSpace b = false := by
  simp only [isSpace, digit_beq digit (show isDigitByte 0x20 = false from rfl),
    digit_beq digit (show isDigitByte 0x0A = false from rfl),
    digit_beq digit (show isDigitByte 0x09 = false from rfl),
    digit_beq digit (show isDigitByte 0x0D = false from rfl), Bool.or_self]

/-- The text of a value: it begins neither with a blank nor as an absent value or the end of a list
does. -/
inductive Begun : Bytes → Prop
  | intro {b : UInt8} (mark : isSpace b = false) (there : b ≠ 0x6E) (more : b ≠ 0x5D) (s : Bytes) :
      Begun (b :: s)

structure Restores (p : Reader α) (write : α → String) : Prop where
  begun : ∀ a, Begun (ofString (write a))
  reads : ∀ a, Reads p (ofString (write a)) a

theorem ofString_append (s t : String) : ofString (s ++ t) = ofString s ++ ofString t := by
  rw [ofString, String.toList_append, encode_append]
  rfl

theorem restores_wordSize : Restores wordSize writeLimit := by
  constructor
  · intro n
    obtain ⟨b, ds, bytes, digits, _⟩ := written_digits n.toNat
    have digit := digits b (.head _)
    rw [writeLimit, bytes]
    exact .intro (isSpace_digit digit) (beq_eq_false_iff_ne.mp (digit_beq digit rfl))
      (beq_eq_false_iff_ne.mp (digit_beq digit rfl)) ds
  · intro n rest ended
    obtain ⟨b, ds, bytes, digits, lead, value⟩ := written_digits n.toNat
    have digit := digits b (.head _)
    have fits : digitsValue 0 (b :: ds) ≤ wordLimit := by
      rw [value]
      exact Nat.le_of_lt_succ n.toNat_lt
    rw [writeLimit, bytes]
    refine .look (.valueStart (isSpace_digit digit) _) ?_
    have minus : (b == 0x2D) = false := digit_beq digit rfl
    simp only [minus, digit, Bool.false_eq_true, if_false, if_true]
    refine .last (number_takes digits lead ended.closed fits) ?_
    simp only [value, Nat.toUInt64_eq, UInt64.ofNat_toNat]
    exact .pure n rest

theorem string_bytes (s : String) :
    ofString (writeString s) = 0x22 :: (encode (s.toList.flatMap escape) ++ [0x22]) := by
  have quote : ofString "\"" = [0x22] := by decide +kernel
  rw [writeString, ofString_append, ofString_append, quote, ofString, String.toList_ofList]
  rfl

theorem restores_text (expected : String) : Restores (text expected) writeString := by
  constructor
  · intro s
    rw [string_bytes]
    exact .intro rfl (by decide) (by decide) _
  · intro s rest _
    rw [string_bytes]
    exact .look (.valueStart rfl _) (.step (.advance _ _) (takes_string s rest))

theorem reads_bool (b : Bool) : Reads bool (ofString (writeBool b)) b := by
  intro rest _
  have yes : ofString "true" = [0x74, 0x72, 0x75, 0x65] := by decide +kernel
  have no : ofString "false" = [0x66, 0x61, 0x6C, 0x73, 0x65] := by decide +kernel
  cases b with
  | true =>
    rw [writeBool, if_pos rfl, yes]
    exact .look (.valueStart rfl _) (.step (.advance _ _) (.last (.word [0x72, 0x75, 0x65] rest) (.pure _ _)))
  | false =>
    rw [writeBool, if_neg Bool.false_ne_true, no]
    exact .look (.valueStart rfl _)
      (.step (.advance _ _) (.last (.word [0x61, 0x6C, 0x73, 0x65] rest) (.pure _ _)))

theorem reads_optional {p : Reader α} {write : α → String} (restores : Restores p write) (o : Option α) :
    Reads (optional p) (ofString (writeOption write o)) o := by
  intro rest ended
  cases o with
  | none =>
    have null : ofString "null" = [0x6E, 0x75, 0x6C, 0x6C] := by decide +kernel
    rw [writeOption, null]
    exact .look (.skipSpace rfl _) (.step (.advance _ _) (.last (.word [0x75, 0x6C, 0x6C] rest) (.pure _ _)))
  | some a =>
    have reads := restores.reads a rest ended
    have begun := restores.begun a
    rw [writeOption]
    generalize ofString (write a) = s at reads begun
    obtain ⟨mark, there, _, s⟩ := begun
    refine .look (.skipSpace mark _) ?_
    split
    · rename_i same
      exact absurd (Option.some.inj same) there
    · exact reads.map some

def joined : Bool → List Bytes → Bytes
  | _, [] => []
  | true, s :: rest => s ++ joined false rest
  | false, s :: rest => 0x2C :: (s ++ joined false rest)

theorem joined_intercalate (l : List String) :
    ofString (String.intercalate "," l) = joined true (l.map ofString) := by
  rw [ofString, String.toList_intercalate]
  cases l with
  | nil => rfl
  | cons s l =>
    induction l generalizing s with
    | nil => simp [joined, ofString]
    | cons t l ih =>
      have left := ih t
      simp only [List.map_cons] at left ⊢
      rw [List.intercalate_cons_cons, encode_append, encode_append, left]
      simp only [joined, List.append_assoc]
      rfl

theorem ended_joined (l : List Bytes) {close : UInt8} (closes : close = 0x5D ∨ close = 0x7D)
    (rest : Bytes) : Ended (joined false l ++ close :: rest) := by
  cases l with
  | nil => exact .mark (.inr closes) rest
  | cons s l => exact .mark (.inl rfl) _

theorem takes_moreItems {s : Bytes} (begun : Begun s) (rest : Bytes) :
    Takes (moreItems true) [] (s ++ rest) true ∧ Takes (moreItems false) [0x2C] (s ++ rest) true := by
  obtain ⟨mark, _, more, s⟩ := begun
  constructor
  · refine .look (.skipSpace mark _) ?_
    split
    · contradiction
    · rename_i same
      exact absurd (Option.some.inj same) more
    · exact .pure _ _
  · refine .look (.skipSpace rfl _) (.step (.advance _ _) (.look (.skipSpace mark _) ?_))
    split
    · rename_i same
      exact absurd (Option.some.inj same) more
    · exact .pure _ _
    · contradiction

theorem takes_items {item : Reader α} {write : α → String} (restores : Restores item write) (rest : Bytes)
    (l : List α) : ∀ first fuel, l.length < fuel →
      Takes (items item first fuel) (joined first (l.map fun a => ofString (write a))) (0x5D :: rest) l := by
  induction l with
  | nil =>
    rintro first (_ | fuel) enough
    · cases enough
    · have ends : Takes (moreItems first) [] (0x5D :: rest) false := .look (.skipSpace rfl _) (.pure _ _)
      have left : joined first [] = [] := by cases first <;> rfl
      rw [List.map_nil, left]
      exact .last ends (.pure _ _)
  | cons a l ih =>
    rintro first (_ | fuel) enough
    · cases enough
    · have others := ih false fuel (Nat.lt_of_succ_lt_succ enough)
      have head := restores.reads a _ (ended_joined (l.map fun a => ofString (write a)) (.inl rfl) rest)
      have both : Takes (do return (← item) :: (← items item false fuel))
          (ofString (write a) ++ joined false (l.map fun a => ofString (write a))) (0x5D :: rest) (a :: l) :=
        .bind head (.map (a :: ·) others)
      obtain ⟨more, later⟩ := takes_moreItems (restores.begun a)
        (joined false (l.map fun a => ofString (write a)) ++ 0x5D :: rest)
      rw [← List.append_assoc] at more later
      cases first with
      | true => exact .look more both
      | false => exact .step later both

theorem length_joined {l : List Bytes} (begun : ∀ s ∈ l, Begun s) (first : Bool) :
    l.length ≤ (joined first l).length := by
  induction l generalizing first with
  | nil => exact Nat.zero_le _
  | cons s l ih =>
    have others := ih (fun t member => begun t (.tail _ member)) false
    obtain ⟨_, _, _, s⟩ := begun s (.head _)
    cases first <;> simp only [joined, List.length_cons, List.length_append] <;> omega

theorem list_bytes (write : α → String) (l : List α) :
    ofString (writeList write l) = 0x5B :: (joined true (l.map fun a => ofString (write a)) ++ [0x5D]) := by
  have opening : ofString "[" = [0x5B] := by decide +kernel
  have closing : ofString "]" = [0x5D] := by decide +kernel
  rw [writeList, ofString_append, ofString_append, opening, closing, joined_intercalate, List.map_map]
  rfl

theorem reads_list {item : Reader α} {write : α → String} (restores : Restores item write) (l : List α) :
    Reads (list item) (ofString (writeList write l)) l := by
  intro rest _
  have begun : ∀ s ∈ l.map fun a => ofString (write a), Begun s := by
    intro s member
    obtain ⟨a, _, rfl⟩ := List.mem_map.mp member
    exact restores.begun a
  have enough := length_joined begun true
  rw [list_bytes]
  refine .look (.valueStart rfl _) (.step (.advance _ _) (.get fun n => ?_))
  rw [List.length_map] at enough
  refine .bind (takes_items restores rest l true _ ?_) ?_
  · simp only [List.length_append]
    omega
  · exact .last (.look (.skipSpace rfl _) (.advance _ _)) (.pure _ _)

end Patchbay.Json

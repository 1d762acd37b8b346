import Patchbay.Proofs.Files

/-!
Line breaks. A text that is read has a line feed for each line break of its file, and is the file otherwise.
The laws are those of the relation between a content and its text: each is an induction on that, where a
carriage return stands either before the line feed that it makes a pair with or by itself.
-/
namespace Patchbay.Files

open Text.Utf8

variable {content text : Bytes}

def substitute (pattern new : Bytes) : Bytes → Bytes
  | [] => []
  | b :: rest =>
    if pattern.isPrefixOf (b :: rest) then
      new ++ substitute pattern new (rest.drop (pattern.length - 1))
    else b :: substitute pattern new rest
termination_by s => s.length
decreasing_by all_goals simp only [List.length_drop, List.length_cons]; omega

/-- The lines of a text, which is cut at each line break of whatever kind. -/
def lines : Bytes → List Bytes
  | [] => [[]]
  | 0x0D :: 0x0A :: rest => [] :: lines rest
  | 0x0D :: rest => [] :: lines rest
  | 0x0A :: rest => [] :: lines rest
  | b :: rest => (lines rest).modifyHead (b :: ·)

def pairs (content : Bytes) : Nat := (content.zip content.tail).count (0x0D, 0x0A)

theorem pairs_pair (rest : Bytes) : pairs (0x0D :: 0x0A :: rest) = pairs rest + 1 := by
  cases rest with
  | nil => rfl
  | cons c rest => simp [pairs]

theorem pairs_unpaired {b : UInt8} {rest : Bytes} (apart : b = 0x0D → rest.head? ≠ some 0x0A) :
    pairs (b :: rest) = pairs rest := by
  cases rest with
  | nil => rfl
  | cons c rest =>
    have unpaired : ¬ (b = 0x0D ∧ c = 0x0A) := fun pair => apart pair.1 (congrArg some pair.2)
    simp [pairs, unpaired]

theorem substitute_pair (rest : Bytes) :
    substitute [0x0D, 0x0A] [0x0A] (0x0D :: 0x0A :: rest) = 0x0A :: substitute [0x0D, 0x0A] [0x0A] rest := by
  rw [substitute]
  rfl

theorem substitute_unpaired {b : UInt8} {rest : Bytes} (apart : b = 0x0D → rest.head? ≠ some 0x0A) :
    substitute [0x0D, 0x0A] [0x0A] (b :: rest) = b :: substitute [0x0D, 0x0A] [0x0A] rest := by
  rw [substitute, if_neg]
  cases rest with
  | nil => simp
  | cons c rest =>
    have unpaired : ¬ (b = 0x0D ∧ c = 0x0A) := fun pair => apart pair.1 (congrArg some pair.2)
    simpa [@eq_comm _ _ b, @eq_comm _ _ c] using unpaired

theorem substitute_return (s : Bytes) :
    substitute [0x0D] [0x0A] s = s.map fun b => if b = 0x0D then 0x0A else b := by
  induction s with
  | nil => rw [substitute, List.map_nil]
  | cons b s ih =>
    rw [substitute, List.map_cons]
    by_cases mark : b = 0x0D
    · simp [mark, ih]
    · simp [mark, Ne.symm mark, ih]

namespace Uniform

theorem no_return (uniform : Uniform content text) : 0x0D ∉ text := by
  induction uniform with
  | done => exact List.not_mem_nil
  | pair _ ih => exact List.not_mem_cons_of_ne_of_not_mem (by decide) ih
  | lone _ _ ih => exact List.not_mem_cons_of_ne_of_not_mem (by decide) ih
  | other b solid _ ih => exact List.not_mem_cons_of_ne_of_not_mem solid.symm ih

theorem self (solid : 0x0D ∉ text) : Uniform text text := by
  induction text with
  | nil => exact .done
  | cons b text ih =>
    rw [List.mem_cons, not_or] at solid
    exact .other b (Ne.symm solid.1) (ih solid.2)

theorem eq_substitute (uniform : Uniform content text) :
    text = substitute [0x0D] [0x0A] (substitute [0x0D, 0x0A] [0x0A] content) := by
  rw [substitute_return]
  induction uniform with
  | done => rw [substitute, List.map_nil]
  | pair _ ih => rw [substitute_pair, List.map_cons, ← ih, if_neg (by decide)]
  | lone last _ ih => rw [substitute_unpaired fun _ => last, List.map_cons, ← ih, if_pos rfl]
  | other b solid _ ih =>
    rw [substitute_unpaired fun mark => absurd mark solid, List.map_cons, ← ih, if_neg solid]

theorem length (uniform : Uniform content text) : text.length + pairs content = content.length := by
  induction uniform with
  | done => rfl
  | pair _ ih =>
    rw [pairs_pair]
    simp only [List.length_cons]
    omega
  | lone last _ ih =>
    rw [pairs_unpaired fun _ => last]
    simp only [List.length_cons]
    omega
  | other b solid _ ih =>
    rw [pairs_unpaired fun mark => absurd mark solid]
    simp only [List.length_cons]
    omega

theorem lines_eq (uniform : Uniform content text) : lines text = lines content := by
  induction uniform with
  | done => rfl
  | pair _ ih => rw [lines, lines, ih]
  | @lone content text last _ ih =>
    have single : lines (0x0D :: content) = [] :: lines content := by
      rw [lines]
      rintro rest rfl
      exact last rfl
    rw [single, ← ih, lines]
  | other b solid _ ih =>
    by_cases feed : b = 0x0A
    · subst feed
      rw [lines, lines, ih]
    · have plain (s : Bytes) : lines (b :: s) = (lines s).modifyHead (b :: ·) := by
        rw [lines] <;> simp [solid, feed]
      rw [plain, plain, ih]

theorem lines_of_solid (solid : 0x0D ∉ text) : lines text = text.splitOn 0x0A := by
  induction text with
  | nil => rfl
  | cons b text ih =>
    rw [List.mem_cons, not_or] at solid
    rw [List.splitOn_cons_eq_if_modifyHead, ← ih solid.2]
    by_cases feed : b = 0x0A
    · rw [feed, lines, if_pos (by decide)]
    · rw [if_neg (by simpa using feed), lines] <;> simp [Ne.symm solid.1, feed]

theorem append (uniform : Uniform content text) {more others : Bytes}
    (uncut : content.getLast? = some 0x0D → more.head? ≠ some 0x0A) (rest : Uniform more others) :
    Uniform (content ++ more) (text ++ others) := by
  induction uniform with
  | done => exact rest
  | @pair content text _ ih =>
    refine .pair (ih fun last => uncut ?_)
    simp [List.getLast?_cons, last]
  | @lone content text last _ ih =>
    refine .lone ?_ (ih fun last => uncut ?_)
    · cases content with
      | nil => exact uncut rfl
      | cons c content => exact last
    · simp [List.getLast?_cons, last]
  | other b solid _ ih =>
    refine .other b solid (ih fun last => uncut ?_)
    simp [List.getLast?_cons, last]

end Uniform

theorem readText_of_read {t : Tree} {path : String} (read : t.read path = .ok content) :
    readText t path = .ok (normalize content) := by
  rw [readText, read]

/-- The text of a file is its content with each pair of a carriage return and a line feed replaced by a line
feed, and then each carriage return that is left. So it has no carriage return, is shorter by the number of
the pairs, is the text of itself, and has the lines of the content, between its line feeds; and the text of a
file that is put together from two is put together from theirs, unless a pair is cut. -/
theorem breaks_normalized {t : Tree} {path : String} (read : t.read path = .ok content) :
    ∃ text, readText t path = .ok text ∧
      text = substitute [0x0D] [0x0A] (substitute [0x0D, 0x0A] [0x0A] content) ∧
      0x0D ∉ text ∧
      text.length = content.length - pairs content ∧ pairs content ≤ content.length ∧
      (∀ t' path', t'.read path' = .ok text → readText t' path' = .ok text) ∧
      lines text = lines content ∧ lines text = text.splitOn 0x0A ∧
      ∀ (more : Bytes) (t₁ t₂ : Tree) (path₁ path₂ : String),
        content.getLast? ≠ some 0x0D ∨ more.head? ≠ some 0x0A →
        t₁.read path₁ = .ok more → t₂.read path₂ = .ok (content ++ more) →
          ∃ others, readText t₁ path₁ = .ok others ∧ readText t₂ path₂ = .ok (text ++ others) := by
  have uniform := uniform_normalize content
  have solid := uniform.no_return
  have length := uniform.length
  refine ⟨_, readText_of_read read, uniform.eq_substitute, solid, by omega, by omega, ?_, uniform.lines_eq,
    Uniform.lines_of_solid solid, ?_⟩
  · intro t' path' again
    rw [readText_of_read again, ← uniform_iff.mp (Uniform.self solid)]
  · intro more t₁ t₂ path₁ path₂ uncut first both
    have joined := uniform.append (fun last => uncut.resolve_left (· last)) (uniform_normalize more)
    exact ⟨_, readText_of_read first, by rw [readText_of_read both, uniform_iff.mp joined]⟩

/-- A return before a pair and one at the end of a file, which is then put before another pair. -/
theorem mixed_breaks_normalized :
    let content : Bytes := [0x0D, 0x0D, 0x0A, 0x62, 0x0D]
    let more : Bytes := [0x0D, 0x0A]
    let t : Tree :=
      { entries := [(["a"], .file content), (["b"], .file more), (["c"], .file (content ++ more))] }
    t.read "a" = .ok content ∧ ∃ text, readText t "a" = .ok text ∧ text.length = 4 ∧
      lines text = lines content ∧
      ∃ others, readText t "b" = .ok others ∧ readText t "c" = .ok (text ++ others) := by
  intro content more t
  have first : t.read "a" = .ok content := rfl
  have second : t.read "b" = .ok more := rfl
  have third : t.read "c" = .ok (content ++ more) := rfl
  obtain ⟨text, told, _, _, length, _, _, same, _, joined⟩ := breaks_normalized first
  exact ⟨first, text, told, length, same, joined more t t "b" "c" (.inr (by decide)) second third⟩

end Patchbay.Files

import Patchbay.Files.Search

/-!
Script files. The text of one is its content with the line breaks made uniform, and a path at which one is
found is never empty.
-/
namespace Patchbay.Files

open Text.Utf8

/-- A text is that of a file with each of its line breaks, of whatever kind, as one line feed. -/
inductive Uniform : Bytes → Bytes → Prop
  | done : Uniform [] []
  | pair {content text : Bytes} (rest : Uniform content text) :
      Uniform (0x0D :: 0x0A :: content) (0x0A :: text)
  | lone {content text : Bytes} (last : content.head? ≠ some 0x0A) (rest : Uniform content text) :
      Uniform (0x0D :: content) (0x0A :: text)
  | other {content text : Bytes} (b : UInt8) (solid : b ≠ 0x0D) (rest : Uniform content text) :
      Uniform (b :: content) (b :: text)

theorem uniform_normalize (content : Bytes) : Uniform content (normalize content) := by
  fun_induction normalize content with
  | case1 => exact .done
  | case2 content ih => exact .pair ih
  | case3 content unpaired ih =>
    refine .lone ?_ ih
    -- A feed behind the return would have made them a pair.
    intro feed
    obtain ⟨rest, rfl⟩ := List.head?_eq_some_iff.mp feed
    exact unpaired rest rfl
  | case4 b content _ unreturned ih => exact .other b unreturned ih

/-- There is one such text, and reading a file gives it. -/
theorem uniform_iff {content text : Bytes} : Uniform content text ↔ text = normalize content := by
  constructor
  · intro uniform
    induction uniform with
    | done => rfl
    | pair _ ih => rw [normalize, ih]
    | @lone content text last _ ih =>
      rw [normalize, ih]
      rintro rest rfl
      exact last rfl
    | other b solid _ ih =>
      rw [normalize, ih]
      · exact fun _ pair => absurd pair solid
      · exact solid
  · rintro rfl
    exact uniform_normalize content

theorem readText_ok {t : Tree} {path : String} {text : Bytes} (ok : readText t path = .ok text) :
    ∃ content, t.read path = .ok content ∧ Uniform content text := by
  unfold readText at ok
  split at ok <;> cases ok
  rename_i content read
  exact ⟨content, read, uniform_normalize content⟩

theorem join_ne_empty {root path : String} (named : path ≠ "") : join root path ≠ "" := by
  unfold join
  split
  · exact named
  · split <;> simp [named]

theorem locate_ne_empty {t : Tree} {roots : List String} {name path : String}
    (located : locate t roots name = .ok path) : path ≠ "" := by
  unfold locate at located
  split at located
  · cases located
  · rename_i given
    split at located <;> cases located
    rename_i found
    have named : name ≠ "" := by simpa using given
    rcases List.mem_cons.mp (List.mem_of_find?_eq_some found) with rfl | below
    · exact named
    · split at below
      · cases below
      · obtain ⟨root, _, rfl⟩ := List.mem_map.mp below
        exact join_ne_empty named

end Patchbay.Files

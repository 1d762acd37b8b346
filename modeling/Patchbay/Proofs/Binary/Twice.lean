import Patchbay.Proofs.Binary.Exact

/-!
Numbers rounded twice, first to a wide layout and then to a narrow one. As every mark of the narrow layout
is a number of the wide one, the second rounding ends where a single one would have ended, unless the first
one ends on a mark.
-/
namespace Patchbay.Binary.Layout

variable {l w : Layout} {x : ℚ} {p r : Nat}

/-- Rounding to another layout first makes no difference, if it does not end on the mark above the pattern
or on the one below it; and no difference even then to an even pattern. -/
theorem Rounds.again (marks : ∀ t < l.infinity, ∃ s < w.infinity, w.value s = l.mark t)
    (once : l.Rounds x p) (first : w.Rounds x r) :
    l.Rounds (w.value r) p ∨ p % 2 = 1 ∧ ∃ t < l.infinity, w.value r = l.mark t ∧
      (t = p ∧ x < l.mark t ∨ t + 1 = p ∧ l.mark t < x) := by
  have below {t : Nat} (finite : t < l.infinity) (le : x ≤ l.mark t) : w.value r ≤ l.mark t := by
    obtain ⟨s, inside, same⟩ := marks t finite
    rw [← same] at le ⊢
    exact value_strictMono.monotone (first.mono (rounds_value inside) le)
  have above {t : Nat} (finite : t < l.infinity) (le : l.mark t ≤ x) : l.mark t ≤ w.value r := by
    obtain ⟨s, inside, same⟩ := marks t finite
    rw [← same] at le ⊢
    exact value_strictMono.monotone ((rounds_value inside).mono first le)
  by_cases tie : ∃ t < l.infinity, w.value r = l.mark t ∧ ¬ (p ≤ t ↔ t % 2 = 0)
  · obtain ⟨t, finite, same, parity⟩ := tie
    right
    have side := once.2 t finite
    rcases le_or_gt p t with le | less
    · have odd : t % 2 = 1 := by omega
      have under : x < l.mark t := by
        rcases side.mp le with under | ⟨_, even⟩
        · exact under
        · omega
      obtain rfl : t = p := by
        by_contra apart
        have between : p < t := lt_of_le_of_ne le (Ne.symm apart)
        have inside := between.trans finite
        have low := below inside (once.le_mark inside le_rfl)
        rw [same] at low
        exact (mark_strictMono between).not_ge low
      exact ⟨odd, t, finite, same, .inl ⟨rfl, under⟩⟩
    · have even : t % 2 = 0 := by omega
      have beyond : l.mark t < x := by
        by_contra under
        refine less.not_ge (side.mpr ?_)
        exact (not_lt.mp under).lt_or_eq.imp_right fun tie => ⟨tie, even⟩
      obtain rfl : t + 1 = p := by
        by_contra apart
        have between : t + 1 < p := lt_of_le_of_ne less apart
        have inside : t + 1 < l.infinity := between.trans_le once.1
        have high := above inside (once.mark_le inside between)
        rw [same] at high
        exact (mark_strictMono (Nat.lt_succ_self t)).not_ge high
      exact ⟨by omega, t, finite, same, .inr ⟨rfl, beyond⟩⟩
  · left
    refine ⟨once.1, fun t finite => ?_⟩
    have side := once.2 t finite
    have even (same : w.value r = l.mark t) : p ≤ t ↔ t % 2 = 0 := by
      by_contra parity
      exact tie ⟨t, finite, same, parity⟩
    rcases le_or_gt p t with le | less
    · refine iff_of_true le ?_
      have under := below finite (once.le_mark finite le)
      exact under.lt_or_eq.imp_right fun same => ⟨same, (even same).mp le⟩
    · refine iff_of_false less.not_ge ?_
      have beyond := above finite (once.mark_le finite less)
      rintro (under | ⟨same, parity⟩)
      · exact beyond.not_gt under
      · exact less.not_ge ((even same).mpr parity)

theorem Rounds.close (rounds : l.Rounds x p) (finite : p < l.infinity) (normal : l.least < l.place p) :
    2 ^ (l.fraction + 1) * |x - l.value p| ≤ l.value p := by
  have unit := unit_pos (l := l) p
  have large : (2 : ℚ) ^ l.fraction ≤ l.units p := by exact_mod_cast units_ge normal
  have upper := rounds.le_mark finite le_rfl
  have lower : l.value p - 2 ^ l.place p / 2 ≤ x := by
    obtain ⟨s, rfl⟩ : ∃ s, p = s + 1 := by
      refine Nat.exists_eq_succ_of_ne_zero ?_
      rintro rfl
      simp [place] at normal
    have beyond := rounds.mark_le (by omega) (Nat.lt_succ_self s)
    have step : (2 : ℚ) ^ l.place s ≤ 2 ^ l.place (s + 1) := by
      apply zpow_le_zpow_right₀ one_le_two
      have quotient := Nat.div_le_div_right (c := 2 ^ l.fraction) (Nat.le_add_right s 1)
      rw [place, place]
      omega
    rw [value_succ]
    rw [mark] at beyond
    linarith
  have near : |x - l.value p| ≤ 2 ^ l.place p / 2 := by
    rw [abs_le]
    rw [mark] at upper
    rw [value] at lower ⊢
    constructor <;> linarith
  calc 2 ^ (l.fraction + 1) * |x - l.value p| ≤ 2 ^ (l.fraction + 1) * (2 ^ l.place p / 2) := by gcongr
    _ = 2 ^ l.fraction * 2 ^ l.place p := by ring
    _ ≤ l.value p := by rw [value]; gcongr

theorem narrow_marks (t : Nat) (finite : t < narrow.infinity) :
    ∃ s < wide.infinity, wide.value s = narrow.mark t := by
  have units := units_lt (l := narrow) t
  have least := least_le_place (l := narrow) t
  have half : narrow.mark t = ((2 * narrow.units t + 1 : Nat) : ℚ) * 2 ^ (narrow.place t - 1) := by
    rw [mark, zpow_sub_one₀ two_ne_zero]
    push_cast
    ring
  rw [half]
  apply wide_modest.exists_value
  · change _ < 2 ^ 53
    change _ < 2 ^ 24 at units
    omega
  · change -149 ≤ narrow.place t at least
    change -1074 ≤ _
    omega
  · rw [← half]
    exact (narrow_modest.mark_lt_infinity finite).trans_le (pow_le_pow_right₀ one_le_two (by decide))

end Patchbay.Binary.Layout

import Mathlib.Tactic
import Mathlib.Data.Int.CardIntervalMod

/-!
# Round robin by a counter that wraps

A counter modulo `M`, reduced modulo `n`, chooses one of `n` places at each turn (`slot`).  A list of
choices is fair if any `n` in a row are different, and no two places are chosen a number of times that
differs by more than one.  The choices are fair as long as the counter has not wrapped, and from then on
just when `n` divides `M` (`fair_slots_iff`).
-/

namespace OrtSuperserve.Lib.RoundRobin

/-- The place chosen at turn `k`. -/
def slot (M n k : ℕ) : ℕ := k % M % n

/-- The places chosen in the first `D` turns. -/
def slots (M n D : ℕ) : List ℕ := (List.range D).map (slot M n)

@[simp] lemma length_slots (M n D : ℕ) : (slots M n D).length = D := by simp [slots]

lemma slots_succ (M n D : ℕ) : slots M n (D + 1) = slots M n D ++ [slot M n D] := by
  simp [slots, List.range_succ]

structure Fair (n : ℕ) (choices : List ℕ) : Prop where
  window : ∀ i, i + n ≤ choices.length → ((choices.drop i).take n).Nodup
  balance : ∀ v < n, ∀ v' < n, choices.count v ≤ choices.count v' + 1

variable {M n D i : ℕ}

/-- `n` turns in a row. -/
lemma window_slots (h : i + n ≤ D) :
    ((slots M n D).drop i).take n = (List.range' i n).map (slot M n) := by
  rw [slots, ← List.map_drop, ← List.map_take, List.range_eq_range', List.drop_range',
    List.take_range'_of_length_ge (by omega), Nat.zero_add, Nat.mul_one]

/-! ### Without a wrap -/

/-- As long as the counter has not wrapped, or its wrap is not seen, it is a counter without bound. -/
lemma slot_eq (h : n ∣ M ∨ D ≤ M) {k : ℕ} (hk : k < D) : slot M n k = k % n := by
  unfold slot
  rcases h with h | h
  · exact Nat.mod_mod_of_dvd k h
  · rw [Nat.mod_eq_of_lt (by omega : k < M)]

lemma slots_eq (h : n ∣ M ∨ D ≤ M) : slots M n D = (List.range D).map (· % n) := by
  apply List.map_congr_left
  intro k hk
  exact slot_eq h (List.mem_range.1 hk)

/-- Numbers less than `n` apart leave different remainders. -/
lemma eq_of_mod_eq {j k : ℕ} (hj : i ≤ j ∧ j < i + n) (hk : i ≤ k ∧ k < i + n)
    (h : j % n = k % n) : j = k := by
  obtain ⟨a, rfl⟩ := Nat.exists_eq_add_of_le hj.1
  obtain ⟨c, rfl⟩ := Nat.exists_eq_add_of_le hk.1
  have hmod : a % n = c % n := Nat.ModEq.add_left_cancel' i h
  rw [Nat.mod_eq_of_lt (by omega), Nat.mod_eq_of_lt (by omega)] at hmod
  rw [hmod]

lemma window_nodup (h : n ∣ M ∨ D ≤ M) (hi : i + n ≤ D) :
    (((slots M n D).drop i).take n).Nodup := by
  rw [window_slots hi]
  apply List.Nodup.map_on
  · intro j hj k hk hjk
    obtain ⟨hj₁, hj₂⟩ := List.mem_range'_1.1 hj
    obtain ⟨hk₁, hk₂⟩ := List.mem_range'_1.1 hk
    rw [slot_eq h (by omega : j < D), slot_eq h (by omega : k < D)] at hjk
    exact eq_of_mod_eq ⟨hj₁, hj₂⟩ ⟨hk₁, hk₂⟩ hjk
  · exact List.nodup_range'

/-- How often a place is chosen. -/
lemma count_slots (v : ℕ) (hv : v < n) :
    ((List.range D).map (· % n)).count v = D.count (· ≡ v [MOD n]) := by
  induction D with
  | zero => rfl
  | succ D ih =>
    have hmod : D ≡ v [MOD n] ↔ D % n = v := by rw [Nat.ModEq, Nat.mod_eq_of_lt hv]
    rw [List.range_succ, List.map_append, List.count_append, ih, Nat.count_succ]
    by_cases h : D % n = v
    · rw [if_pos (hmod.2 h)]
      simp [h]
    · rw [if_neg fun hc => h (hmod.1 hc)]
      simp [h]

theorem fair_of (hn : 1 ≤ n) (h : n ∣ M ∨ D ≤ M) : Fair n (slots M n D) := by
  refine ⟨?_, ?_⟩
  · intro i hi
    rw [length_slots] at hi
    exact window_nodup h hi
  · intro v hv v' hv'
    rw [slots_eq h, count_slots v hv, count_slots v' hv', Nat.count_modEq_card _ hn,
      Nat.count_modEq_card _ hn]
    split <;> split <;> omega

/-! ### Around the wrap -/

/-- The turn of the wrap takes the place that some turn among the `n - 1` before it has taken. -/
lemma exists_repeated (hn : 1 ≤ n) (hlt : n < M) (h : ¬ n ∣ M) :
    ∃ j, M + 1 - n ≤ j ∧ j < M ∧ slot M n j = slot M n M := by
  have hpos : 0 < M % n := Nat.pos_of_ne_zero fun h0 => h (Nat.dvd_of_mod_eq_zero h0)
  have hmod : M % n < n := Nat.mod_lt _ hn
  have hle : M % n ≤ M := Nat.mod_le M n
  have hj : slot M n (M - M % n) = 0 := by
    unfold slot
    rw [Nat.mod_eq_of_lt (by omega : M - M % n < M)]
    exact Nat.sub_mod_eq_zero_of_mod_eq (Nat.mod_mod M n).symm
  have hM : slot M n M = 0 := by simp [slot]
  exact ⟨M - M % n, by omega, by omega, by rw [hj, hM]⟩

theorem not_fair (hn : 1 ≤ n) (hlt : n < M) (h : ¬ n ∣ M) (hD : M < D) :
    ¬ Fair n (slots M n D) := by
  intro hfair
  obtain ⟨j, hj, hjM, heq⟩ := exists_repeated hn hlt h
  have hi : M + 1 - n + n ≤ D := by omega
  have hnodup := hfair.window (M + 1 - n) (by rw [length_slots]; exact hi)
  rw [window_slots hi] at hnodup
  have hmem : ∀ k, M + 1 - n ≤ k → k ≤ M → k ∈ List.range' (M + 1 - n) n := by
    intro k h₁ h₂
    rw [List.mem_range'_1]
    omega
  have hinj := List.inj_on_of_nodup_map hnodup (hmem j hj hjM.le) (hmem M (by omega) le_rfl) heq
  omega

/-- **The choices are fair just as long as the counter has not wrapped**, unless `n` divides `M`. -/
theorem fair_slots_iff (hn : 1 ≤ n) (hlt : n < M) :
    Fair n (slots M n D) ↔ n ∣ M ∨ D ≤ M := by
  constructor
  · intro h
    by_contra hcon
    push Not at hcon
    exact not_fair hn hlt hcon.1 hcon.2 h
  · exact fair_of hn

end OrtSuperserve.Lib.RoundRobin

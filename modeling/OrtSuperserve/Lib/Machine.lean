import Mathlib.Tactic

/-!
# Executable transition systems

A machine is a start state and a step function on labels; a label the state does not allow has no
successor.  Finite runs are lists of labels (`Machine.run`), and the rules by which invariants
are proved are `Reaches.induct`, from any state on, `Reachable.invariant`, from the start, and
`run_induct`, from the start with the labels taken.

Infinite runs (`FairRun`) are sequences of states that step or stutter, fair to a class of labels
taken as a whole; finite runs that end where none of these is enabled are such (`FairRun.ofRun`).
`FairRun.eventually` is the response rule: a goal is reached if, away from it, a label of that class
is always enabled and lowers a rank that no other label raises.
-/

namespace OrtSuperserve.Lib

universe u v

structure Machine (σ : Type u) (α : Type v) where
  start : σ
  step : σ → α → Option σ

namespace Machine

variable {σ : Type u} {α : Type v} (m : Machine σ α)

/-! ### Finite runs -/

/-- The state after a list of labels, if the machine allows each of them in turn. -/
def run : σ → List α → Option σ
  | s, [] => some s
  | s, a :: as => (m.step s a).bind fun t => run t as

@[simp] lemma run_nil (s : σ) : m.run s [] = some s := rfl

lemma run_cons {s t : σ} {a : α} {as : List α} :
    m.run s (a :: as) = some t ↔ ∃ u, m.step s a = some u ∧ m.run u as = some t := by
  simp [run, Option.bind_eq_some_iff]

lemma run_append {s t : σ} {as bs : List α} :
    m.run s (as ++ bs) = some t ↔ ∃ u, m.run s as = some u ∧ m.run u bs = some t := by
  induction as generalizing s with
  | nil => simp
  | cons a as ih =>
    simp only [List.cons_append, run_cons, ih]
    constructor
    · rintro ⟨u, hu, w, hw, ht⟩
      exact ⟨w, ⟨u, hu, hw⟩, ht⟩
    · rintro ⟨w, ⟨u, hu, hw⟩, ht⟩
      exact ⟨u, hu, w, hw, ht⟩

lemma run_snoc {s t : σ} {as : List α} {a : α} :
    m.run s (as ++ [a]) = some t ↔ ∃ u, m.run s as = some u ∧ m.step u a = some t := by
  rw [run_append]
  simp [run_cons]

/-- Some finite run leads from `s` to `t`. -/
def Reaches (s t : σ) : Prop := ∃ as, m.run s as = some t

/-- Some finite run leads from the start to `s`. -/
def Reachable (s : σ) : Prop := m.Reaches m.start s

variable {m} {s t u : σ} {a : α}

lemma Reaches.refl (s : σ) : m.Reaches s s := ⟨[], rfl⟩

lemma Reaches.trans (h₁ : m.Reaches s t) (h₂ : m.Reaches t u) : m.Reaches s u := by
  obtain ⟨as, ha⟩ := h₁
  obtain ⟨bs, hb⟩ := h₂
  exact ⟨as ++ bs, m.run_append.2 ⟨t, ha, hb⟩⟩

lemma Reaches.single (h : m.step s a = some t) : m.Reaches s t :=
  ⟨[a], m.run_cons.2 ⟨t, h, rfl⟩⟩

lemma Reaches.tail (h : m.Reaches s t) (hs : m.step t a = some u) : m.Reaches s u :=
  h.trans (Reaches.single hs)

lemma Reachable.start : m.Reachable m.start := Reaches.refl _

lemma Reachable.tail (h : m.Reachable s) (hs : m.step s a = some t) : m.Reachable t :=
  Reaches.tail h hs

lemma Reachable.trans (h : m.Reachable s) (hs : m.Reaches s t) : m.Reachable t :=
  Reaches.trans h hs

/-- **Run rule.**  What holds of `s` and is preserved by the steps taken after `s` holds of every
state reached from `s`. -/
theorem Reaches.induct {P : σ → Prop} (h : m.Reaches s t) (hs : P s)
    (hstep : ∀ u a v, m.Reaches s u → P u → m.step u a = some v → P v) : P t := by
  obtain ⟨as, ha⟩ := h
  induction as using List.reverseRecOn generalizing t with
  | nil =>
    obtain rfl : s = t := by simpa using ha
    exact hs
  | append_singleton as a ih =>
    obtain ⟨u, hu, ht⟩ := m.run_snoc.1 ha
    exact hstep u a t ⟨as, hu⟩ (ih hu) ht

/-- **Invariant rule.** -/
theorem Reachable.invariant {P : σ → Prop} (h : m.Reachable s) (hs : P m.start)
    (hstep : ∀ u a v, m.Reachable u → P u → m.step u a = some v → P v) : P s :=
  Reaches.induct h hs hstep

/-- Machines that step alike wherever one of them gets reach the same states. -/
theorem reachable_congr {n : Machine σ α} (hstart : m.start = n.start)
    (hstep : ∀ s a, n.Reachable s → m.step s a = n.step s a) : m.Reachable s ↔ n.Reachable s := by
  constructor
  · intro h
    refine h.invariant (P := n.Reachable) (hstart ▸ .start) ?_
    intro u a v _ hu hst
    exact hu.tail (hstep u a hu ▸ hst)
  · intro h
    refine h.invariant (P := m.Reachable) (hstart ▸ .start) ?_
    intro u a v hu hm hst
    exact hm.tail ((hstep u a hu).trans hst)

/-- **Trace rule.**  What holds of the start, and is preserved by each step of a run along with the
labels taken so far, holds of the run. -/
theorem run_induct {P : List α → σ → Prop} {as : List α} (h : m.run m.start as = some s)
    (hs : P [] m.start)
    (hstep : ∀ as u a v, m.run m.start as = some u → P as u → m.step u a = some v →
      P (as ++ [a]) v) : P as s := by
  induction as using List.reverseRecOn generalizing s with
  | nil =>
    obtain rfl : m.start = s := by simpa using h
    exact hs
  | append_singleton as a ih =>
    obtain ⟨u, hu, hst⟩ := m.run_snoc.1 h
    exact hstep as u a s hu (ih hu) hst

/-- Every step of the run `as` from `s` is in the relation. -/
def Steps (m : Machine σ α) (s : σ) (as : List α) (P : σ → α → σ → Prop) : Prop :=
  ∀ pre a post u v, as = pre ++ a :: post → m.run s pre = some u → m.step u a = some v → P u a v

/-- Relations that agree on the steps of a run hold along it together. -/
lemma Steps.congr {as : List α} {P Q : σ → α → σ → Prop}
    (h : ∀ u a v, m.Reaches s u → m.step u a = some v → (P u a v ↔ Q u a v)) :
    m.Steps s as P ↔ m.Steps s as Q := by
  constructor <;> intro hP pre a post u v has hpre hst
  · exact (h u a v ⟨pre, hpre⟩ hst).1 (hP pre a post u v has hpre hst)
  · exact (h u a v ⟨pre, hpre⟩ hst).2 (hP pre a post u v has hpre hst)

/-! ### Fair runs -/

variable (m)

/-- An infinite run from the start, each of whose moments takes a step or stutters; `fair` is weak
fairness towards the labels of `internal` together: if from some moment on one of them is always
enabled, one of them is taken. -/
structure FairRun (internal : α → Prop) where
  state : ℕ → σ
  label : ℕ → Option α
  init : state 0 = m.start
  next : ∀ k, (label k = none ∧ state (k + 1) = state k) ∨
    ∃ a, label k = some a ∧ m.step (state k) a = some (state (k + 1))
  fair : ∀ k, (∀ j, k ≤ j → ∃ a t, internal a ∧ m.step (state j) a = some t) →
    ∃ j, k ≤ j ∧ ∃ a, label j = some a ∧ internal a

/-- A rank for the goal `G` under the invariant `I`. -/
structure Ranking (internal : α → Prop) (I G : σ → Prop) (rank : σ → ℕ) : Prop where
  enabled : ∀ s, I s → ¬ G s → ∃ a t, internal a ∧ m.step s a = some t
  decreases : ∀ s a t, I s → ¬ G s → internal a → m.step s a = some t → G t ∨ rank t < rank s
  others : ∀ s a t, I s → ¬ G s → ¬ internal a → m.step s a = some t → G t ∨ rank t ≤ rank s

variable {m} {internal : α → Prop} (ρ : m.FairRun internal)

lemma FairRun.reachable (k : ℕ) : m.Reachable (ρ.state k) := by
  induction k with
  | zero => rw [ρ.init]; exact Reachable.start
  | succ k ih =>
    rcases ρ.next k with ⟨-, h⟩ | ⟨a, -, h⟩
    · rw [h]; exact ih
    · exact ih.tail h

lemma FairRun.reaches {k j : ℕ} (h : k ≤ j) : m.Reaches (ρ.state k) (ρ.state j) := by
  induction j, h using Nat.le_induction with
  | base => exact Reaches.refl _
  | succ j _ ih =>
    rcases ρ.next j with ⟨-, h⟩ | ⟨a, -, h⟩
    · rw [h]; exact ih
    · exact ih.tail h

variable {I G : σ → Prop} {rank : σ → ℕ} {k : ℕ}

/-- Until the goal is reached the rank does not rise. -/
lemma FairRun.rank_le (hr : m.Ranking internal I G rank) (hI : ∀ j, k ≤ j → I (ρ.state j)) {j : ℕ}
    (hkj : k ≤ j) (hG : ∀ i, k ≤ i → i ≤ j → ¬ G (ρ.state i)) :
    rank (ρ.state j) ≤ rank (ρ.state k) := by
  induction j, hkj using Nat.le_induction with
  | base => exact le_rfl
  | succ j hj ih =>
    have hle := ih fun i h₁ h₂ => hG i h₁ (by omega)
    have hnG := hG j hj (by omega)
    have hnG' := hG (j + 1) (by omega) le_rfl
    rcases ρ.next j with ⟨-, h⟩ | ⟨a, -, h⟩
    · rw [h]; exact hle
    · by_cases ha : internal a
      · have := (hr.decreases _ a _ (hI j hj) hnG ha h).resolve_left hnG'
        omega
      · have := (hr.others _ a _ (hI j hj) hnG ha h).resolve_left hnG'
        omega

/-- **Response rule.**  In a fair run that keeps the invariant from `k` on, a ranked goal is reached
from `k` on. -/
theorem FairRun.eventually (hr : m.Ranking internal I G rank) (hI : ∀ j, k ≤ j → I (ρ.state j)) :
    ∃ j, k ≤ j ∧ G (ρ.state j) := by
  generalize hn : rank (ρ.state k) = n
  induction n using Nat.strong_induction_on generalizing k with
  | _ n ih =>
    by_contra hcon
    push Not at hcon
    -- the goal is never met from `k` on, so fairness gives an internal step, which lowers the rank
    obtain ⟨j, hj, a, hl, ha⟩ := ρ.fair k fun j hj => hr.enabled _ (hI j hj) (hcon j hj)
    obtain ⟨b, hb, hst⟩ : ∃ b, ρ.label j = some b ∧
        m.step (ρ.state j) b = some (ρ.state (j + 1)) := by
      rcases ρ.next j with ⟨h, -⟩ | h
      · rw [h] at hl; cases hl
      · exact h
    obtain rfl : b = a := by rw [hb] at hl; exact Option.some.inj hl
    have hlt := (hr.decreases _ _ _ (hI j hj) (hcon j hj) ha hst).resolve_left (hcon _ (by omega))
    have hle := ρ.rank_le hr hI hj fun i h₁ _ => hcon i h₁
    obtain ⟨i, hi, hG⟩ := ih (rank (ρ.state (j + 1))) (by omega) (k := j + 1)
      (fun i hi => hI i (by omega)) rfl
    exact hcon i (by omega) hG

/-- **Bound rule.**  A run that keeps the invariant and has not reached the goal has taken no more
internal steps than the rank has come down. -/
theorem Ranking.countP_add_le (hr : m.Ranking internal I G rank) [DecidablePred internal] {as : List α}
    {s t : σ} (h : m.run s as = some t)
    (hI : ∀ pre post u, as = pre ++ post → m.run s pre = some u → I u ∧ ¬ G u) :
    as.countP (fun a => decide (internal a)) + rank t ≤ rank s := by
  induction as using List.reverseRecOn generalizing t with
  | nil =>
    obtain rfl : s = t := by simpa using h
    simp
  | append_singleton as a ih =>
    obtain ⟨u, hu, hst⟩ := m.run_snoc.1 h
    have hle := ih hu fun pre post v has hv => hI pre (post ++ [a]) v (by simp [has]) hv
    obtain ⟨hIu, hGu⟩ := hI as [a] u rfl hu
    have hGt := (hI (as ++ [a]) [] t (by simp) h).2
    rw [List.countP_append, List.countP_singleton]
    by_cases ha : internal a
    · have := (hr.decreases u a t hIu hGu ha hst).resolve_left hGt
      rw [if_pos (by simpa using ha)]
      omega
    · have := (hr.others u a t hIu hGu ha hst).resolve_left hGt
      rw [if_neg (by simpa using ha)]
      omega

/-- A finite run that ends where no internal label is enabled, stuttering from there on. -/
def FairRun.ofRun {t : σ} (as : List α) (h : m.run m.start as = some t)
    (hquiet : ∀ a u, internal a → m.step t a ≠ some u) : m.FairRun internal where
  state k := (m.run m.start (as.take k)).getD t
  label k := as[k]?
  init := by simp
  next k := by
    rcases lt_or_ge k as.length with hk | hk
    · have hsplit : as.take (k + 1) = as.take k ++ [as[k]] := by simp
      have hrun : m.run m.start (as.take (k + 1) ++ as.drop (k + 1)) = some t := by
        rw [List.take_append_drop]; exact h
      obtain ⟨v, hv, -⟩ := m.run_append.1 hrun
      rw [hsplit] at hv
      obtain ⟨u, hu, hst⟩ := m.run_snoc.1 hv
      refine .inr ⟨as[k], List.getElem?_eq_getElem hk, ?_⟩
      rw [hsplit, hv, hu]
      exact hst
    · refine .inl ⟨List.getElem?_eq_none hk, ?_⟩
      rw [List.take_of_length_le hk, List.take_of_length_le (by omega)]
  fair k hen := by
    obtain ⟨a, u, ha, hst⟩ := hen (max k as.length) (le_max_left _ _)
    rw [List.take_of_length_le (le_max_right _ _), h] at hst
    exact absurd hst (hquiet a u ha)

/-- A run that ends where nothing internal is enabled is a fair run: it stays at the end, has no labels
but those of the run, and is where the run is before. -/
lemma exists_fairRun {t : σ} (as : List α) (h : m.run m.start as = some t)
    (hquiet : ∀ a u, internal a → m.step t a ≠ some u) :
    ∃ ρ : m.FairRun internal, (∀ k, as.length ≤ k → ρ.state k = t) ∧
      (∀ k a, ρ.label k = some a → a ∈ as) ∧
      ∀ k u, m.run m.start (as.take k) = some u → ρ.state k = u := by
  have hstate : ∀ k u, m.run m.start (as.take k) = some u →
      (m.run m.start (as.take k)).getD t = u := by
    intro k u hu
    rw [hu, Option.getD_some]
  refine ⟨.ofRun as h hquiet, ?_, fun _ _ hl => List.mem_of_getElem? hl, hstate⟩
  intro k hk
  exact hstate k t (by rw [List.take_of_length_le hk, h])

end Machine

end OrtSuperserve.Lib

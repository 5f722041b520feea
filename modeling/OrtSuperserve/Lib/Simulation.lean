import OrtSuperserve.Lib.Machine

/-!
# Simulation of one machine by another

`Simulation m n R` answers each step of `m` from a reachable state with a run of `n`, which may be
empty, so that related states stay related.  Then every state `m` reaches is related to one that `n`
reaches (`Simulation.reachable`), and what `n` keeps invariant holds of it (`Simulation.invariant`).
The relation of an abstraction function is the case `Simulation.of_map`.  A function that takes steps
to steps or stutters takes runs to runs (`run_filterMap`), and fair runs to fair runs
(`FairRun.exists_map`), so that what `n` brings about in every fair run, `m` does; `run_lift` takes the
runs of `n` back to `m`.
-/

namespace OrtSuperserve.Lib.Machine

universe u v w x

variable {σ : Type u} {α : Type v} {τ : Type w} {β : Type x}

structure Simulation (m : Machine σ α) (n : Machine τ β) (R : σ → τ → Prop) : Prop where
  start : R m.start n.start
  step : ∀ s a s' t, m.Reachable s → R s t → m.step s a = some s' → ∃ t', n.Reaches t t' ∧ R s' t'

namespace Simulation

variable {m : Machine σ α} {n : Machine τ β} {R : σ → τ → Prop}

/-- A function that takes steps to runs. -/
theorem of_map {f : σ → τ} (hstart : f m.start = n.start)
    (hstep : ∀ s a s', m.Reachable s → m.step s a = some s' → n.Reaches (f s) (f s')) :
    Simulation m n fun s t => t = f s := by
  refine ⟨hstart.symm, ?_⟩
  rintro s a s' t hs rfl hst
  exact ⟨f s', hstep s a s' hs hst, rfl⟩

/-- **Runs are simulated**: whatever `m` reaches from a reachable state, `n` reaches up to `R`. -/
theorem reaches (h : Simulation m n R) {s s' : σ} {t : τ} (hs : m.Reachable s) (hR : R s t)
    (hr : m.Reaches s s') : ∃ t', n.Reaches t t' ∧ R s' t' := by
  refine hr.induct (P := fun u => ∃ t', n.Reaches t t' ∧ R u t') ⟨t, Reaches.refl t, hR⟩ ?_
  rintro u a v hu ⟨t₁, ht₁, hR₁⟩ hst
  obtain ⟨t₂, ht₂, hR₂⟩ := h.step u a v t₁ (hs.trans hu) hR₁ hst
  exact ⟨t₂, ht₁.trans ht₂, hR₂⟩

theorem reachable (h : Simulation m n R) {s : σ} (hs : m.Reachable s) :
    ∃ t, n.Reachable t ∧ R s t := h.reaches Reachable.start h.start hs

/-- What holds of the states `n` reaches holds of those related to them. -/
theorem invariant (h : Simulation m n R) {P : τ → Prop} (hP : ∀ t, n.Reachable t → P t) {s : σ}
    (hs : m.Reachable s) : ∃ t, R s t ∧ P t := by
  obtain ⟨t, ht, hR⟩ := h.reachable hs
  exact ⟨t, hR, hP t ht⟩

end Simulation

/-! ### Runs -/

section Runs

variable {m : Machine σ α} {n : Machine τ β} {f : σ → τ} {P : σ → Prop}

/-- **Runs seen through a function.**  Each step of `m` from a state with `P` is the step of `n` with
the label `g` gives it, or a stutter. -/
theorem run_filterMap {g : α → Option β} (hP : ∀ s a s', P s → m.step s a = some s' → P s')
    (hstep : ∀ s a s', P s → m.step s a = some s' →
      (g a = none ∧ f s' = f s) ∨ ∃ b, g a = some b ∧ n.step (f s) b = some (f s'))
    {s t : σ} {as : List α} (hs : P s) (h : m.run s as = some t) :
    n.run (f s) (as.filterMap g) = some (f t) := by
  induction as generalizing s with
  | nil =>
    obtain rfl : s = t := by simpa using h
    rfl
  | cons a as ih =>
    obtain ⟨s', hst, h⟩ := m.run_cons.1 h
    have ih := ih (hP s a s' hs hst) h
    rcases hstep s a s' hs hst with ⟨hg, hf⟩ | ⟨b, hg, hb⟩
    · rw [List.filterMap_cons_none hg, ← hf]
      exact ih
    · rw [List.filterMap_cons_some hg]
      exact n.run_cons.2 ⟨f s', hb, ih⟩

/-- **Runs taken back through a function.**  Each step of `n` with a label in `Q` comes from a step of
`m` with that label. -/
theorem run_lift {n : Machine τ α} {Q : α → Prop}
    (hstep : ∀ s a u, P s → Q a → n.step (f s) a = some u →
      ∃ s', m.step s a = some s' ∧ P s' ∧ f s' = u)
    {s : σ} {u : τ} {as : List α} (hs : P s) (hQ : ∀ a ∈ as, Q a) (h : n.run (f s) as = some u) :
    ∃ t, m.run s as = some t ∧ f t = u := by
  induction as generalizing s with
  | nil => exact ⟨s, rfl, by simpa using h⟩
  | cons a as ih =>
    obtain ⟨u', hst, h⟩ := n.run_cons.1 h
    obtain ⟨s', hst', hs', rfl⟩ := hstep s a u' hs (hQ a List.mem_cons_self) hst
    obtain ⟨t, hrun, ht⟩ := ih hs' (fun b hb => hQ b (List.mem_cons_of_mem a hb)) h
    exact ⟨t, m.run_cons.2 ⟨s', hst', hrun⟩, ht⟩

end Runs

/-! ### Fair runs -/

/-- **Fair runs seen through a function.**  Each step of the run is the step of `n` with the label `g`
gives it, or a stutter; internal labels are internal in `n`; and whenever `n` could take an internal
step, so can `m`. -/
theorem FairRun.exists_map {m : Machine σ α} {n : Machine τ β} {internal : α → Prop}
    {internal' : β → Prop} (f : σ → τ) (g : α → Option β) (hstart : f m.start = n.start)
    (ρ : m.FairRun internal)
    (hstep : ∀ k a, ρ.label k = some a → m.step (ρ.state k) a = some (ρ.state (k + 1)) →
      (g a = none ∧ f (ρ.state (k + 1)) = f (ρ.state k)) ∨
        ∃ b, g a = some b ∧ n.step (f (ρ.state k)) b = some (f (ρ.state (k + 1))))
    (hlabel : ∀ k a, ρ.label k = some a → internal a → ∃ b, g a = some b ∧ internal' b)
    (henabled : ∀ s b t, m.Reachable s → internal' b → n.step (f s) b = some t →
      ∃ a s', internal a ∧ m.step s a = some s') :
    ∃ ρ' : n.FairRun internal',
      (∀ k, ρ'.state k = f (ρ.state k)) ∧ ∀ k, ρ'.label k = (ρ.label k).bind g := by
  refine ⟨⟨fun k => f (ρ.state k), fun k => (ρ.label k).bind g, ?_, ?_, ?_⟩, fun _ => rfl,
    fun _ => rfl⟩
  · rw [ρ.init, hstart]
  · intro k
    rcases ρ.next k with ⟨hl, hs⟩ | ⟨a, hl, hs⟩
    · exact .inl ⟨by rw [hl]; rfl, by rw [hs]⟩
    · rcases hstep k a hl hs with ⟨hg, hf⟩ | ⟨b, hg, hb⟩
      · exact .inl ⟨by rw [hl]; exact hg, hf⟩
      · exact .inr ⟨b, by rw [hl]; exact hg, hb⟩
  · intro k hen
    obtain ⟨j, hj, a, hl, ha⟩ := ρ.fair k fun j hj => by
      obtain ⟨b, t, hb, hst⟩ := hen j hj
      exact henabled _ b t (ρ.reachable j) hb hst
    obtain ⟨b, hg, hb⟩ := hlabel j a hl ha
    exact ⟨j, hj, b, by rw [hl]; exact hg, hb⟩

end OrtSuperserve.Lib.Machine

import OrtSuperserve.Traffic
import OrtSuperserve.Dispatch

/-!
# The operations of the batcher's own code

The batcher allocates, divides and indexes by numbers that come from the configuration.  `InRange` says
that the next of these operations is defined.  It always is for just those configurations under which
the buffer can be allocated and, unless `min_batch_size` lets no batch through, there is a worker
(`batcher_in_range_iff`).
-/

namespace OrtSuperserve

open Lib

variable {I P O F : Type} {S : Setup I P O F} {s : State I P O F}

/-- User code that never panics. -/
structure UserCode.PanicFree (user : UserCode I P O F) : Prop where
  preprocess : ∀ c input, user.preprocess c input ≠ .panic
  batch : ∀ r items, user.batch r items ≠ .panic
  postprocess : ∀ c row, user.postprocess c row ≠ .panic

/-- The operations the batcher comes to next are in range: the two allocations, the remainder
`dispatch_index % num_workers`, and the index `worker_txs[worker_idx]`.  The responders are fields of
their commands, so a vector of them is no larger than the buffer. -/
structure State.InRange (S : Setup I P O F) (s : State I P O F) : Prop where
  running : s.batcher.phase ≠ .panicked
  batchBuffer : s.batcher.phase = .starting →
    ¬ S.target.capacityOverflow S.target.commandSize S.config.maxBatchSize
  responders : s.batcher.phase = .collected →
    ¬ S.target.capacityOverflow S.target.commandSize s.batcher.batchBuffer.length
  numWorkers : ∀ t responders, s.batcher.phase = .dispatching t responders →
    S.config.numSessions ≠ 0
  workerIdx : ∀ t responders, s.batcher.phase = .dispatching t responders →
    s.chosen S < s.workers.length
  dispatchIndex : s.batcher.dispatchIndex < 2 ^ S.target.bits

/-- The configurations under which the batcher's own code does not panic. -/
structure Sound (config : ServerConfig) (target : Target) : Prop where
  buffer : ¬ target.capacityOverflow target.commandSize config.maxBatchSize
  workers : config.numSessions ≠ 0 ∨ config.roundSize < config.minBatchSize

lemma Target.capacityOverflow.mono {target : Target} {elemSize n m : ℕ}
    (h : target.capacityOverflow elemSize n) (hle : n ≤ m) : target.capacityOverflow elemSize m :=
  lt_of_lt_of_le h (Nat.mul_le_mul_right _ hle)

/-- A batch of a round can be allocated if the buffer can, and one command. -/
lemma not_capacityOverflow_of_le {config : ServerConfig} {target : Target} {n : ℕ}
    (hsize : ¬ target.capacityOverflow target.commandSize 1)
    (hbuf : ¬ target.capacityOverflow target.commandSize config.maxBatchSize)
    (hn : n ≤ config.roundSize) : ¬ target.capacityOverflow target.commandSize n := by
  intro h
  by_cases hmax : n ≤ config.maxBatchSize
  · exact hbuf (h.mono hmax)
  · have : config.roundSize = max 1 config.maxBatchSize := rfl
    exact hsize (h.mono (by omega))

/-! ### Sound configurations -/

/-- A batch comes to a dispatch only if there is a worker. -/
lemma Sound.numSessions {batch : List (Command I P)} (h : Sound S.config S.target)
    (hb : Formed S.config batch) : S.config.numSessions ≠ 0 := by
  have := hb.min
  have := hb.max
  exact h.workers.resolve_right (by omega)

/-- **No step of the batcher unwinds it.** -/
lemma Batcher.Move.ne_panicked {V : WorkerMessage F → Reply F → Prop} {batch : List (Command I P)}
    {b b' : Batcher I P F} {l : BatcherAction I P F} {evs : List (Event I P O F)}
    (h : Batcher.Move S b l b' evs) (hf : b.Fits S V batch) (hS : Sound S.config S.target)
    (hu : ∀ r items, S.user.batch r items ≠ .panic) : b'.phase ≠ .panicked := by
  cases h with
  | overflow hp ho => exact absurd ho hS.buffer
  | more cmd hp => simp [hp]
  | spawn => simp [spawnPreprocess]
  | batchPanic items rs hp hpanic => exact absurd hpanic (hu _ _)
  | divZero t rs accepted hp h0 =>
    simp only [Fits, hp] at hf
    exact absurd h0 (hS.numSessions hf.2.1)
  | _ => simp [nextRound]

lemma Step.ne_panicked {a : Action I} {s' : State I P O F} (h : Step S s a s')
    (hst : Stream S s) (hS : Sound S.config S.target)
    (hu : ∀ r items, S.user.batch r items ≠ .panic) (hs : s.batcher.phase ≠ .panicked) :
    s'.batcher.phase ≠ .panicked := by
  cases h.effect with
  | batcher l evs move => exact move.ne_panicked hst.fits hS hu
  | accepted cmd batcher => rwa [batcher]
  | dropped cmd batcher => rwa [batcher]
  | quiet evs batcher => rwa [batcher]

theorem ne_panicked (hs : (server S).Reachable s) (hS : Sound S.config S.target)
    (hu : ∀ r items, S.user.batch r items ≠ .panic) : s.batcher.phase ≠ .panicked := by
  refine hs.invariant (P := fun s => s.batcher.phase ≠ .panicked) ?_ ?_
  · intro h
    cases h
  · intro u a v hu' hp hst
    exact (server_step hst).ne_panicked (stream hu') hS hu hp

/-- **Every reachable state is in range.** -/
theorem inRange (hs : (server S).Reachable s) (hS : Sound S.config S.target)
    (hsize : ¬ S.target.capacityOverflow S.target.commandSize 1)
    (hu : ∀ r items, S.user.batch r items ≠ .panic) : s.InRange S := by
  have hfits := (stream hs).fits
  have hrota := rota hs
  refine ⟨ne_panicked hs hS hu, fun _ => hS.buffer, ?_, ?_, ?_, ?_⟩
  · intro hp
    simp only [Batcher.Fits, hp] at hfits
    obtain ⟨hbuf, -, hmax⟩ := hfits
    exact not_capacityOverflow_of_le hsize hS.buffer (hbuf ▸ hmax)
  · intro t rs hp
    simp only [Batcher.Fits, hp] at hfits
    exact hS.numSessions hfits.2.1
  · intro t rs hp
    simp only [Batcher.Fits, hp] at hfits
    have hn := hS.numSessions hfits.2.1
    rw [hrota.workers]
    exact Nat.mod_lt _ (by omega)
  · rw [hrota.index]
    exact Nat.mod_lt _ (Nat.two_pow_pos _)

/-! ### The others -/

lemma panicFree_obliging : obligingUser.PanicFree := by
  refine ⟨?_, ?_, ?_⟩
  · intro c input h
    cases h
  · intro r items h
    cases h
  · intro c row h
    cases h

/-- Without a worker, a batch that passes the minimum check comes to the division by zero. -/
lemma exists_dispatching_obliging {config : ServerConfig} {target : Target}
    (hfit : ¬ target.capacityOverflow target.commandSize config.maxBatchSize)
    (hmin : config.minBatchSize ≤ config.roundSize) :
    ∃ (s : State Unit Unit Unit Unit) (t : ArrayD Unit) (responders : List ℕ),
      (server (obliging config target)).Reachable s ∧
      s.batcher.phase = .dispatching t responders := by
  have hpos := config.one_le_roundSize
  obtain ⟨s, hs, hp, hlen, hitems⟩ := exists_obliging hfit config.roundSize
  have htake : s.commandQueue.take config.roundSize = s.commandQueue := by
    rw [← hlen, List.take_length]
  have hgoes : Goes (obliging config target) (s.commandQueue.take config.roundSize) := by
    rw [htake]
    exact goes_obliging (by omega) (by omega) hitems
  obtain ⟨v, t, rs, hv, hpv, -⟩ := exists_dispatch hs hp (by rw [hlen]; exact le_rfl) hgoes
  exact ⟨v, t, rs, hs.trans hv.1, hpv⟩

/-- **No operation of the batcher is out of range just when the configuration is sound.**  For every
configuration and target on which a single command can be allocated: whatever the types, the user's
code as long as it does not panic, the session and the run, every operation is in range in every
reachable state, if and only if the buffer for `max_batch_size` commands can be allocated and there
is a worker or no batch ever has `min_batch_size` commands. -/
theorem batcher_in_range_iff (config : ServerConfig) (target : Target)
    (hsize : ¬ target.capacityOverflow target.commandSize 1) :
    (∀ (I P O F : Type) (S : Setup I P O F), S.config = config → S.target = target →
      S.user.PanicFree → ∀ s, (server S).Reachable s → s.InRange S) ↔
    ¬ target.capacityOverflow target.commandSize config.maxBatchSize ∧
      (config.numSessions ≠ 0 ∨ config.roundSize < config.minBatchSize) := by
  constructor
  · intro h
    have h := h _ _ _ _ (obliging config target) rfl rfl panicFree_obliging
    have hbuf : ¬ target.capacityOverflow target.commandSize config.maxBatchSize :=
      (h _ .start).batchBuffer rfl
    refine ⟨hbuf, ?_⟩
    by_cases hmin : config.minBatchSize ≤ config.roundSize
    · obtain ⟨s, t, rs, hs, hp⟩ := exists_dispatching_obliging hbuf hmin
      exact .inl ((h s hs).numWorkers t rs hp)
    · exact .inr (by omega)
  · rintro ⟨hbuf, hn⟩ I P O F S rfl rfl hu s hs
    exact inRange hs ⟨hbuf, hn⟩ hsize hu.batch

/-- A call on a server with default configuration is taken up to its dispatch. -/
def defaultRun : List (Action Unit) :=
  [.batcher (.turn .start), .client (.infer 0 ()), .client (.prepare 0), .client (.send 0),
    .batcher .recv, .batcher (.turn .timeout), .batcher (.turn .check),
    .batcher (.turn (.preprocessed 0)), .batcher (.turn (.filter [0])), .batcher (.turn .batch)]

theorem batcher_in_range_default : ∃ s : State Unit Unit Unit Unit,
    (server (obliging .new {})).run (.start (obliging .new {})) defaultRun = some s ∧
      (∃ t responders, s.batcher.phase = .dispatching t responders) ∧ s.InRange (obliging .new {}) := by
  obtain ⟨s, hrun, hp⟩ : ∃ s : State Unit Unit Unit Unit,
      (server (obliging .new {})).run (.start (obliging .new {})) defaultRun = some s ∧
        s.batcher.phase = .dispatching ⟨[0], [], rfl⟩ [0] := ⟨_, rfl, rfl⟩
  exact ⟨s, hrun, ⟨_, _, hp⟩, (batcher_in_range_iff .new {} (by decide)).2 (by decide) _ _ _ _
    (obliging .new {}) rfl rfl panicFree_obliging s ⟨defaultRun, hrun⟩⟩

/-- Without sessions the batcher unwinds at its first dispatch. -/
theorem not_batcher_in_range : ¬ ∀ (config : ServerConfig) (target : Target),
    ¬ target.capacityOverflow target.commandSize 1 →
    ∀ (I P O F : Type) (S : Setup I P O F), S.config = config → S.target = target →
      S.user.PanicFree → ∀ s, (server S).Reachable s → s.InRange S := by
  intro h
  obtain ⟨s, hrun, hp⟩ : ∃ s : State Unit Unit Unit Unit,
      (server (obliging (.withNumSessions .new 0) {})).run
          (.start (obliging (.withNumSessions .new 0) {})) (defaultRun ++ [.batcher .dispatch]) =
        some s ∧ s.batcher.phase = .panicked := ⟨_, rfl, rfl⟩
  exact (h _ {} (by decide) _ _ _ _ (obliging (.withNumSessions .new 0) {}) rfl rfl
    panicFree_obliging s ⟨_, hrun⟩).running hp

end OrtSuperserve

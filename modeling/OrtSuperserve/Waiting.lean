import OrtSuperserve.Traffic

/-!
# When a batch is too small

The collection loop ends when the timer fires, when the command channel is closed, or when the buffer
has `max_batch_size` commands; the minimum check behind it does not ask which.  With `min_batch_size`
larger than a full round every full round is rejected, though the timer is running
(`rejected_after_wait_iff`).
-/

namespace OrtSuperserve

open Lib

variable {I P O F : Type} {S : Setup I P O F} {s s' : State I P O F} {a : Action I}
  {as : List (Action I)}

/-- The batcher's part in an action. -/
def Action.batcher? : Action I → Option BatcherTaskAction
  | .batcher a => some a
  | _ => none

/-- The last thing the batcher did in a run. -/
def lastOfBatcher (as : List (Action I)) : Option BatcherTaskAction :=
  (as.filterMap Action.batcher?).getLast?

/-- The collection of the round has ended by the timer, or by the channel, closed by all its senders. -/
def Waited (as : List (Action I)) : Prop :=
  lastOfBatcher as = some (.turn .timeout) ∨ lastOfBatcher as = some .closed

/-- The step answers commands with "Insufficient batch size". -/
def RejectsShort (s s' : State I P O F) : Prop :=
  ∃ evs, s'.log = s.log ++ evs ∧
    ∃ c, (c, .answered (.error .insufficientBatchSize)) ∈ fates evs

lemma lastOfBatcher_batcher (as : List (Action I)) (a : BatcherTaskAction) :
    lastOfBatcher (as ++ [.batcher a]) = some a := by
  simp [lastOfBatcher, Action.batcher?]

lemma lastOfBatcher_other (as : List (Action I)) (h : a.batcher? = none) :
    lastOfBatcher (as ++ [a]) = lastOfBatcher as := by
  simp [lastOfBatcher, h]

/-! ### How a collection ends -/

namespace Batcher

variable {b b' : Batcher I P F} {l : BatcherAction I P F} {evs : List (Event I P O F)}

/-- The batcher comes behind the collection loop by leaving it. -/
lemma Move.leaves (h : Move S b l b' evs) (hp : b'.phase = .collected) :
    Leaves S b l ∧ b'.batchBuffer = b.batchBuffer := by
  cases h with
  | leave _ hp ha => exact ⟨ha, rfl⟩
  | more cmd hp' => simp [hp'] at hp
  | spawn => simp [spawnPreprocess] at hp
  | _ => simp [nextRound] at hp

/-- Only the minimum check answers so. -/
lemma Move.rejectsShort (h : Move S b l b' evs) {c : ℕ}
    (hc : (c, .answered (.error .insufficientBatchSize)) ∈ fates evs) :
    b.phase = .collected ∧ b.batchBuffer.length < S.config.minBatchSize := by
  cases h.sends hc with
  | short hp hlt => exact ⟨hp, hlt⟩
  | reply r n _ he =>
    cases r with
    | ok outputs => cases he.2
    | err t => cases he
    | closed => cases he

end Batcher

/-- Behind the collection loop, a batch below `max_batch_size` has waited, and a larger one has not. -/
def Ended (S : Setup I P O F) (as : List (Action I)) (s : State I P O F) : Prop :=
  s.batcher.phase = .collected →
    (Waited as ∧ s.batcher.batchBuffer.length < S.config.maxBatchSize) ∨
      (lastOfBatcher as = some (.turn .full) ∧
        S.config.maxBatchSize ≤ s.batcher.batchBuffer.length)

lemma Step.ended (h : Step S s a s') (hs : Ended S as s) : Ended S (as ++ [a]) s' := by
  have hother : a.batcher? = none → s'.batcher = s.batcher → Ended S (as ++ [a]) s' := by
    intro ha hb
    unfold Ended Waited
    rw [lastOfBatcher_other as ha, hb]
    exact hs
  cases h with
  | client a s' hm => exact hother rfl (by cases hm <;> rfl)
  | worker w a t r => exact hother rfl rfl
  | discard cmd rest => exact hother rfl rfl
  | recv cmd rest b' evs hq hm =>
    intro hp
    exact (hm.leaves hp).1.elim
  | dispatch b' evs hm =>
    intro hp
    exact (hm.leaves hp).1.elim
  | reply r b' evs hr hm =>
    intro hp
    exact (hm.leaves hp).1.elim
  | closed b' evs hq hh hm =>
    intro hp
    obtain ⟨hlt, hbuf⟩ := hm.leaves hp
    refine .inl ⟨.inr (lastOfBatcher_batcher as _), ?_⟩
    rw [hbuf]
    exact hlt
  | turn t b' evs hm =>
    intro hp
    obtain ⟨hl, hbuf⟩ := hm.leaves hp
    have hbuf : b'.batchBuffer = s.batcher.batchBuffer := hbuf
    cases t with
    | timeout =>
      refine .inl ⟨.inl (lastOfBatcher_batcher as _), ?_⟩
      rw [hbuf]
      exact hl
    | full =>
      refine .inr ⟨lastOfBatcher_batcher as _, ?_⟩
      rw [hbuf]
      exact hl
    | _ => exact hl.elim

theorem ended (h : (server S).run (.start S) as = some s) : Ended S as s := by
  refine (server S).run_induct (P := Ended S) h ?_ ?_
  · intro hp
    cases hp
  · intro as u a v _ hu hst
    exact (server_step hst).ended hu

/-! ### A batcher that never starts -/

/-- If the buffer cannot be allocated, the batcher never comes to its loop. -/
def State.NeverStarted (s : State I P O F) : Prop :=
  s.batcher.phase = .starting ∨ s.batcher.phase = .panicked

lemma Step.neverStarted (h : Step S s a s')
    (hover : S.target.capacityOverflow S.target.commandSize S.config.maxBatchSize)
    (hs : s.NeverStarted) : s'.NeverStarted := by
  cases h.effect with
  | batcher l evs move =>
    rcases hs with hp | hp
    · generalize hb : s'.batcher = b' at move
      cases move with
      | overflow => exact .inr (by rw [hb])
      | start _ hfit => exact absurd hover hfit
      | leave _ hp' => simp [hp] at hp'
      | _ => simp_all
    · exact absurd hp (Batcher.ne_panicked move.alive)
  | accepted cmd batcher => simpa [State.NeverStarted, batcher] using hs
  | dropped cmd batcher => simpa [State.NeverStarted, batcher] using hs
  | quiet evs batcher => simpa [State.NeverStarted, batcher] using hs

theorem neverStarted (hs : (server S).Reachable s)
    (hover : S.target.capacityOverflow S.target.commandSize S.config.maxBatchSize) :
    s.NeverStarted := by
  refine hs.invariant (P := State.NeverStarted) (.inl rfl) ?_
  intro u a v _ hu hst
  exact (server_step hst).neverStarted hover hu

/-! ### When no batch is rejected early -/

/-- Only the minimum check of the batcher rejects a batch as too small. -/
lemma Step.rejectsShort (h : Step S s a s') (hr : RejectsShort s s') :
    s.batcher.phase = .collected ∧ s.batcher.batchBuffer.length < S.config.minBatchSize := by
  obtain ⟨evs, hlog, c, hc⟩ := hr
  cases h.effect with
  | batcher l evs' move log =>
    obtain rfl := List.append_cancel_left (hlog.symm.trans log)
    exact move.rejectsShort hc
  | accepted cmd _ _ log =>
    obtain rfl := List.append_cancel_left (hlog.symm.trans log)
    simp at hc
  | dropped cmd _ _ log =>
    obtain rfl := List.append_cancel_left (hlog.symm.trans log)
    simp at hc
  | quiet evs' _ hquiet log =>
    obtain rfl := List.append_cancel_left (hlog.symm.trans log)
    have hnil : fates evs = [] := hquiet.fates_eq
    rw [hnil] at hc
    cases hc

/-- A batch that fills a round is not too small. -/
lemma waited_of_rejectsShort (hrun : (server S).run (.start S) as = some s)
    (hst : (server S).step s a = some s') (hr : RejectsShort s s')
    (hmin : S.config.minBatchSize ≤ S.config.roundSize) : Waited as := by
  obtain ⟨hp, hlt⟩ := (server_step hst).rejectsShort hr
  have hfits := (stream ⟨as, hrun⟩).fits
  simp only [Batcher.Fits, hp] at hfits
  obtain ⟨hbuf, hpos, -⟩ := hfits
  rcases ended hrun hp with ⟨hw, -⟩ | ⟨-, hfull⟩
  · exact hw
  · have : S.config.roundSize = max 1 S.config.maxBatchSize := rfl
    rw [hbuf] at hlt hfull
    omega

/-- With a larger minimum a full round is rejected as soon as it is full. -/
lemma exists_rejected {config : ServerConfig} {target : Target}
    (hfit : ¬ target.capacityOverflow target.commandSize config.maxBatchSize)
    (hmin : config.roundSize < config.minBatchSize) :
    ∃ (as : List (Action Unit)) (s s' : State Unit Unit Unit Unit),
      (server (obliging config target)).run (.start (obliging config target)) as = some s ∧
      (server (obliging config target)).step s (.batcher (.turn .check)) = some s' ∧
      RejectsShort s s' ∧ ¬ Waited as := by
  have hpos := config.one_le_roundSize
  have hmax : config.maxBatchSize ≤ config.roundSize := le_max_right _ _
  set S := obliging config target with hS
  obtain ⟨u, hu, hpu, hlen, -⟩ := exists_obliging hfit config.roundSize
  obtain ⟨s, hs, hp, hbuf, -⟩ := exists_full hu hpu hlen.ge
  obtain ⟨as, hrun⟩ := hu.trans hs.1
  have hlenb : s.batcher.batchBuffer.length = config.roundSize := by
    rw [hbuf, List.length_take, hlen]
    exact min_self _
  obtain ⟨cmd, rest, hcons⟩ : ∃ cmd rest, s.batcher.batchBuffer = cmd :: rest :=
    List.exists_cons_of_length_pos (by omega)
  have hcheck : s.batcher.step S (.turn .check) =
      some ({ s.batcher with batchBuffer := [] }.reject (s.batcher.batchBuffer.map Command.responder)
        .insufficientBatchSize) := by
    have hlt : s.batcher.batchBuffer.length < S.config.minBatchSize := by
      rw [hlenb]
      exact hmin
    simp only [Batcher.step, hp, Batcher.check, if_pos hlt]
    rw [if_neg (by simp [hcons])]
  refine ⟨as, s, _, hrun, step_turn hcheck, ⟨_, rfl, cmd.responder, ?_⟩, ?_⟩
  · rw [fates_sendErr, hcons]
    simp
  · have hlast : lastOfBatcher as = some (.turn .full) := by
      rcases ended hrun hp with ⟨-, hlt⟩ | ⟨hlast, -⟩
      · have hlt : s.batcher.batchBuffer.length < config.maxBatchSize := hlt
        omega
      · exact hlast
    unfold Waited
    rw [hlast]
    simp

/-- **A batch is rejected as too small only after the wait, just when a full round is large enough.**
For every configuration and target: whatever the types, the user's code, the session and the run, a
step that answers "Insufficient batch size" comes only after the timer of the round has fired or the
command channel was closed, if and only if `min_batch_size` is no more than a round can collect, or the
batcher cannot even allocate its buffer. -/
theorem rejected_after_wait_iff (config : ServerConfig) (target : Target) :
    (∀ (I P O F : Type) (S : Setup I P O F), S.config = config → S.target = target →
      ∀ (as : List (Action I)) (a : Action I) (s s' : State I P O F),
        (server S).run (.start S) as = some s → (server S).step s a = some s' →
        RejectsShort s s' → Waited as) ↔
    config.minBatchSize ≤ config.roundSize ∨
      target.capacityOverflow target.commandSize config.maxBatchSize := by
  constructor
  · intro h
    by_contra hcon
    push Not at hcon
    obtain ⟨as, s, s', hrun, hst, hr, hnot⟩ := exists_rejected hcon.2 hcon.1
    exact hnot (h _ _ _ _ (obliging config target) rfl rfl as _ s s' hrun hst hr)
  · rintro hcond I P O F S rfl rfl as a s s' hrun hst hr
    rcases hcond with hmin | hover
    · exact waited_of_rejectsShort hrun hst hr hmin
    · obtain ⟨hp, -⟩ := (server_step hst).rejectsShort hr
      rcases neverStarted ⟨as, hrun⟩ hover with hp' | hp'
      · rw [hp] at hp'
        cases hp'
      · rw [hp] at hp'
        cases hp'

/-- Batches of one, of which two are asked for. -/
def greedyConfig : ServerConfig := (ServerConfig.new.withMaxBatchSize 1).withMinBatchSize 2

/-- The first request fills the buffer, and is rejected though the timer is running. -/
theorem not_rejected_after_wait : ¬ ∀ (S : Setup Unit Unit Unit Unit) (as : List (Action Unit))
    (a : Action Unit) (s s' : State Unit Unit Unit Unit),
    (server S).run (.start S) as = some s → (server S).step s a = some s' →
    RejectsShort s s' → Waited as := by
  intro h
  set S := obliging greedyConfig {} with hS
  obtain ⟨s, s', hrun, hst, hlog⟩ : ∃ s s' : State Unit Unit Unit Unit,
      (server S).run (.start S)
          [.batcher (.turn .start), .client (.infer 0 ()), .client (.prepare 0), .client (.send 0),
            .batcher .recv, .batcher (.turn .full)] = some s ∧
        (server S).step s (.batcher (.turn .check)) = some s' ∧
        s'.log = s.log ++ [.answer 0 (.error .insufficientBatchSize)] := ⟨_, _, rfl, rfl, rfl⟩
  have hw := h S _ _ s s' hrun hst ⟨_, hlog, 0, by simp⟩
  rcases hw with hw | hw
  · exact absurd hw (by decide)
  · exact absurd hw (by decide)

end OrtSuperserve

import OrtSuperserve.Quiescence

/-!
# How long a command waits

A worker that panics over its message costs the callers of that batch their answer and the others
nothing but time: in a fair run every command accepted is dealt with as long as the batcher does not
unwind, whichever workers panic, and even when all have (`used_in_fair`).

And the wait is bounded (`used_in_long`).  The price of a round is `4 * R + 10` steps of the server's
own, for `R` the size a round can have; a command with `k` others before it in the channel is dealt
with after `k + 2` times that price, with a step for each worker and two for the message underway.
-/

namespace OrtSuperserve

open Lib

variable {I P O F : Type} {S : Setup I P O F} {s s' t : State I P O F} {a : Action I}

/-! ### Fair runs with crashes -/

/-- In a run whose threads die in `process_message` only, no dead worker has a message left. -/
lemma deadEmpty_fair {fair : Action I → Prop} (ρ : (server S).FairRun fair)
    (hdie : ∀ j w, ρ.label j ≠ some (.worker w .die)) (k : ℕ) : (ρ.state k).DeadEmpty := by
  induction k with
  | zero =>
    rw [ρ.init]
    exact deadEmpty_start S
  | succ k ih =>
    rcases ρ.next k with ⟨-, h⟩ | ⟨a, hl, h⟩
    · rw [h]
      exact ih
    · refine (server_step h).deadEmpty (inFlight (ρ.reachable k)) ?_ ih
      rintro w rfl
      exact hdie k w hl

/-- **Every command is dealt with.**  In a run that is fair to the server's own steps, while the batcher
does not unwind and threads die in `process_message` only, the responder of each command accepted is
used. -/
theorem used_in_fair (ρ : (server S).FairRun Action.internal)
    (hdie : ∀ j w, ρ.label j ≠ some (.worker w .die))
    (hb : ∀ j, (ρ.state j).batcher.phase ≠ .panicked) {k : ℕ} {cmd : Command I P}
    (hm : cmd ∈ accepted (ρ.state k).log) : ∃ j, k ≤ j ∧ Used cmd (ρ.state j) := by
  obtain ⟨i, hi⟩ := List.mem_iff_getElem?.1 hm
  refine ρ.eventually (ranking S i cmd) ?_
  intro j hj
  exact ⟨ρ.reachable j, hb j, deadEmpty_fair ρ hdie j, accepted_getElem? hi (ρ.reaches hj)⟩

/-! ### The size of the rank -/

/-- No round costs more than the price of a round. -/
lemma Batcher.Move.potential_le {b b' : Batcher I P F} {l : BatcherAction I P F}
    {evs : List (Event I P O F)} {V : WorkerMessage F → Reply F → Prop} {batch : List (Command I P)}
    (h : Batcher.Move S b l b' evs) (hf : b.Fits S V batch)
    (hb : b.potential S.config.roundSize ≤ roundCost S.config.roundSize) :
    b'.potential S.config.roundSize ≤ roundCost S.config.roundSize := by
  by_cases hh : b.atHead = true
  · have hp := phase_of_atHead hh
    cases h with
    | first cmd =>
      simp only [Batcher.potential, Batcher.work, roundCost]
      omega
    | stop =>
      simp only [Batcher.potential, Batcher.work]
      omega
    | _ => simp_all
  · have hlt := h.potential_lt hf
    rw [if_neg hh] at hlt
    omega

lemma potential_le (hs : (server S).Reachable s) :
    s.batcher.potential S.config.roundSize ≤ roundCost S.config.roundSize := by
  refine hs.invariant (P := fun s => s.batcher.potential S.config.roundSize ≤
    roundCost S.config.roundSize) ?_ ?_
  · show S.config.roundSize + 2 ≤ roundCost S.config.roundSize
    unfold roundCost
    omega
  · intro u a v hu hle hst
    cases (server_step hst).effect with
    | batcher l evs move => exact move.potential_le (stream hu).fits hle
    | accepted cmd batcher => rwa [batcher]
    | dropped cmd batcher => rwa [batcher]
    | quiet evs batcher => rwa [batcher]

/-- A step for each worker, and two for each message. -/
lemma load_le (ts : List (WorkerThread F)) :
    (ts.map WorkerThread.load).sum ≤
      ts.length + 2 * ((ts.map WorkerThread.messages).sum).card := by
  induction ts with
  | nil => simp
  | cons t ts ih =>
    have hload : t.load ≤ 1 + 2 * t.queue.length := by
      unfold WorkerThread.load
      split <;> omega
    have hmsgs : t.queue.length ≤ t.messages.card := by
      unfold WorkerThread.messages
      rw [Multiset.card_add, Multiset.coe_card]
      omega
    simp only [List.map_cons, List.sum_cons, List.length_cons, Multiset.card_add]
    omega

/-- **The rank is small.** -/
lemma rank_le (hs : (server S).Reachable s) (i : ℕ) :
    s.rank S i ≤ (s.ahead i + 1) * roundCost S.config.roundSize + S.config.numSessions + 2 := by
  have hpot := potential_le hs
  have hload : s.load ≤ s.workers.length + 2 * s.inFlight.card := load_le s.workers
  have hbal := (inFlight hs).balance
  have hout := s.batcher.length_outbox_le
  rw [(rota hs).workers] at hload
  unfold State.rank
  rw [Nat.add_mul, Nat.one_mul]
  omega

/-! ### The bound -/

instance : DecidablePred (Action.internal : Action I → Prop) := fun a =>
  match a with
  | .client _ | .discard => isFalse id
  | .batcher _ => isTrue trivial
  | .worker _ .init | .worker _ .take | .worker _ .process => isTrue trivial
  | .worker _ .exit | .worker _ .die | .worker _ .discard => isFalse id

/-- **And before long.**  From a reachable state on, whatever the clients do and however the steps
are interleaved: once the server has taken more steps of its own than the rounds ahead of a command
can cost, the command is dealt with, unless the batcher has unwound. -/
theorem used_in_long (hs : (server S).Reachable s) (hd : s.DeadEmpty) {i : ℕ} {cmd : Command I P}
    (hi : (accepted s.log)[i]? = some cmd) {as : List (Action I)}
    (h : (server S).run s as = some t) (hdie : ∀ w, .worker w .die ∉ as)
    (hb : t.batcher.phase ≠ .panicked)
    (hlong : (s.ahead i + 1) * roundCost S.config.roundSize + S.config.numSessions + 2 <
      as.countP fun a => decide a.internal) : Used cmd t := by
  by_contra hG
  have hle := (ranking S i cmd).countP_add_le h fun pre post u has hu => by
    obtain ⟨u', hu', hpost⟩ := (server S).run_append.1 (has ▸ h)
    obtain rfl : u = u' := Option.some.inj (hu.symm.trans hu')
    refine ⟨⟨hs.trans ⟨pre, hu⟩, ?_, ?_, accepted_getElem? hi ⟨pre, hu⟩⟩, ?_⟩
    · intro hp
      exact hb (panicked_of_reaches hp ⟨post, hpost⟩)
    · refine deadEmpty_run hs hd hu ?_
      intro w hw
      exact hdie w (by rw [has]; exact List.mem_append_left _ hw)
    · intro hused
      exact hG (hused.mono ⟨post, hpost⟩)
  have hrank := rank_le hs i
  omega

end OrtSuperserve

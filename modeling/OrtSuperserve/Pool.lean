import OrtSuperserve.Dispatch
import OrtSuperserve.Traffic

/-!
# How many workers are busy at once

The batcher waits for the reply to a message before it collects the next batch, so the workers of a
pool hold one message between them.  With one worker a queue of requests that can be batched does get
the pool busy (`exists_busy`); with more, never all of them (`pool_busy_iff`).
-/

namespace OrtSuperserve

open Lib

variable {I P O F : Type} {S : Setup I P O F} {s u v : State I P O F}

/-- Every worker holds a message, in its channel or in its hands. -/
def State.Busy (s : State I P O F) : Prop := ∀ t ∈ s.workers, t.messages ≠ 0

/-! ### No two messages -/

lemma length_le_sum {α M : Type} (f : α → Multiset M) :
    ∀ l : List α, (∀ a ∈ l, f a ≠ 0) → l.length ≤ (l.map f).sum.card
  | [], _ => le_rfl
  | a :: l, h => by
    have ih := length_le_sum f l fun x hx => h x (List.mem_cons_of_mem a hx)
    have hpos := Multiset.card_pos.2 (h a List.mem_cons_self)
    rw [List.map_cons, List.sum_cons, Multiset.card_add, List.length_cons]
    omega

/-- **At most one worker is busy.** -/
theorem Busy.length_le (hs : (server S).Reachable s) (h : s.Busy) : s.workers.length ≤ 1 := by
  have hcard := length_le_sum _ _ h
  have hbal := (inFlight hs).balance
  have hout := s.batcher.length_outbox_le
  unfold State.inFlight at hbal
  omega

/-! ### One message -/

/-- A queue of commands that preprocess and batch. -/
structure Ready (S : Setup I P O F) (queue : List (Command I P)) : Prop where
  preprocess : ∀ cmd ∈ queue, (cmd.item S.user).isSome
  batch : ∀ r items, items ≠ [] → items.length ≤ S.config.maxBatchSize →
    (∀ p ∈ items, ∃ cmd ∈ queue, cmd.item S.user = some p) → ∃ t, S.user.batch r items = .ok t

lemma Ready.goes {queue : List (Command I P)} (h : Ready S queue) (hmin : 1 ≤ S.config.minBatchSize)
    (hle : S.config.minBatchSize ≤ S.config.maxBatchSize)
    (hlen : S.config.maxBatchSize ≤ queue.length) : Goes S (queue.take S.config.maxBatchSize) := by
  have htake : (queue.take S.config.maxBatchSize).length = S.config.maxBatchSize := by
    rw [List.length_take, min_eq_left hlen]
  have hitems : ∀ cmd ∈ queue.take S.config.maxBatchSize, (cmd.item S.user).isSome := fun cmd hm =>
    h.preprocess cmd (List.mem_of_mem_take hm)
  have hsurv := survivors_length_of_items hitems
  have hne : survivors S.user (queue.take S.config.maxBatchSize) ≠ [] :=
    List.ne_nil_of_length_pos (by omega)
  refine .of_items (by omega) (by omega) hitems ?_
  intro r
  refine h.batch r _ (by simpa using hne) (by simp; omega) ?_
  intro p hp
  obtain ⟨⟨c, p⟩, hm, rfl⟩ := List.mem_map.1 hp
  obtain ⟨cmd, hcmd, -, hitem⟩ := mem_survivors.1 hm
  exact ⟨cmd, List.mem_of_mem_take hcmd, hitem⟩

/-- **A pool of one gets busy.** -/
theorem exists_busy (hs : (server S).Reachable s) (hp : s.batcher.phase = .head)
    (hw : ∀ t ∈ s.workers, t.state = .receiving) (hn : S.config.numSessions = 1)
    (hlw : s.workers.length = 1)
    (hmin : 1 ≤ S.config.minBatchSize) (hle : S.config.minBatchSize ≤ S.config.maxBatchSize)
    (hlen : S.config.maxBatchSize ≤ s.commandQueue.length) (hr : Ready S s.commandQueue) :
    ∃ v, (server S).Reaches s v ∧ v.Busy := by
  have hround : S.config.roundSize = S.config.maxBatchSize := max_eq_right (by omega)
  obtain ⟨u, tensor, rs, ⟨hu, hfr⟩, hpu, -⟩ := exists_dispatch hs hp (hround ▸ hlen)
    (hround ▸ hr.goes hmin hle hlen)
  have hwu := hfr.workers
  obtain ⟨t, ht⟩ := List.length_eq_one_iff.1 hlw
  have hrecv : t.state = .receiving := hw t (by simp [ht])
  have hchosen : u.chosen S = 0 := by rw [State.chosen, hn, Nat.mod_one]
  have hacc : u.accepts S = true := by
    rw [State.accepts, hchosen, hwu, ht]
    simp [WorkerThread.alive, hrecv]
  have hsend : u.batcher.step S (.sent (u.accepts S)) =
      some ({ u.batcher with
          dispatchIndex := (u.batcher.dispatchIndex + 1) % 2 ^ S.target.bits
          phase := .awaiting (u.batcher.workerMsg S tensor) rs },
        [.dispatch (u.batcher.dispatchIndex % S.config.numSessions) tensor]) := by
    rw [Batcher.step_sent hpu, hacc, Batcher.dispatch, if_neg (by omega), if_pos rfl]
  refine ⟨_, hu.tail (step_dispatch hsend), ?_⟩
  intro t' ht'
  simp only [State.afterBatcher, hchosen, hwu, ht, List.modify_zero_cons, List.mem_singleton,
    Batcher.outbox] at ht'
  rw [ht']
  simp [WorkerThread.messages]

/-- **The whole pool gets busy just when it has one worker.**  From a server at the top of its loop,
its workers initialised and waiting, with commands enough for a batch each in the queue, all of which
preprocess and batch, a state where every worker holds a message can be reached if and only if
`num_sessions` is `1`. -/
theorem pool_busy_iff (hs : (server S).Reachable s) (hp : s.batcher.phase = .head)
    (hw : ∀ t ∈ s.workers, t.state = .receiving) (hn : 1 ≤ S.config.numSessions)
    (hmin : 1 ≤ S.config.minBatchSize) (hle : S.config.minBatchSize ≤ S.config.maxBatchSize)
    (hlen : S.config.numSessions * S.config.maxBatchSize ≤ s.commandQueue.length)
    (hr : Ready S s.commandQueue) :
    (∃ v, (server S).Reaches s v ∧ v.Busy) ↔ S.config.numSessions = 1 := by
  constructor
  · rintro ⟨v, hv, hbusy⟩
    have hle := Busy.length_le (hs.trans hv) hbusy
    rw [(rota (hs.trans hv)).workers] at hle
    omega
  · intro hone
    rw [hone, one_mul] at hlen
    exact exists_busy hs hp hw hone ((rota hs).workers.trans hone) hmin hle hlen hr

/-! ### A pool of two -/

/-- What the sample batches. -/
lemma exists_sampleBatch {r : ℕ} {items : List ℕ} (hne : items ≠ []) (hlen : items.length ≤ 2) :
    ∃ t, sampleUser.batch r items = .ok t := by
  have hfit : Allocatable 64 f32Size ((items.map single).length :: [1]) := by
    have hpos := List.length_pos_iff.2 hne
    rw [List.length_map]
    obtain h | h : items.length = 1 ∨ items.length = 2 := by omega
    · rw [h]
      exact ⟨by decide, by decide⟩
    · rw [h]
      exact ⟨by decide, by decide⟩
  have hne' : items.map single ≠ [] := by simpa using hne
  obtain ⟨t, ht⟩ := (ArrayD.stack_of_shapes 64 f32Size hne' (by simp [single])).1 hfit
  exact ⟨t, by simp only [sampleUser, batchArray, if_neg hne', ht]⟩

/-- Worker `0` is ready, and two calls have sent `7` and `8`. -/
def queueRun : List (Action ℕ) :=
  [.batcher (.turn .start), .worker 0 .init, .client (.infer 0 7), .client (.prepare 0),
    .client (.send 0), .client (.infer 0 8), .client (.prepare 1), .client (.send 1)]

lemma ready_queue {S : Setup ℕ ℕ ℕ ℕ} (hu : S.user = sampleUser) (hmax : S.config.maxBatchSize ≤ 2) :
    Ready S [.newRaw 0 7 0, .newRaw 1 8 1] := by
  refine ⟨?_, ?_⟩
  · rw [hu]
    decide
  · intro r items hne hlen _
    rw [hu]
    exact exists_sampleBatch hne (hlen.trans hmax)

theorem pool_busy_iff_sample :
    ∃ s : State ℕ ℕ ℕ ℕ, (server sample).run (.start sample) queueRun = some s ∧
      ∃ v, (server sample).Reaches s v ∧ v.Busy := by
  obtain ⟨s, hrun, hp, hw, hq⟩ : ∃ s : State ℕ ℕ ℕ ℕ,
      (server sample).run (.start sample) queueRun = some s ∧ s.batcher.phase = .head ∧
        s.workers = [⟨[], .receiving⟩] ∧ s.commandQueue = [.newRaw 0 7 0, .newRaw 1 8 1] :=
    ⟨_, rfl, rfl, rfl, rfl⟩
  exact ⟨s, hrun, (pool_busy_iff ⟨queueRun, hrun⟩ hp (by simp [hw]) (by decide) (by decide)
    (by decide) (by rw [hq]; decide) (by rw [hq]; exact ready_queue rfl (by decide))).2 rfl⟩

/-- The sample with two workers and batches of one. -/
def poolPair : Setup ℕ ℕ ℕ ℕ := { sample with config := { numSessions := 2, maxBatchSize := 1 } }

/-- Of two workers with a batch for each in the queue, one stays idle. -/
theorem not_pool_busy : ¬ ∀ (S : Setup ℕ ℕ ℕ ℕ) (s : State ℕ ℕ ℕ ℕ), (server S).Reachable s →
    s.batcher.phase = .head → (∀ t ∈ s.workers, t.state = .receiving) → 1 ≤ S.config.numSessions →
    1 ≤ S.config.minBatchSize → S.config.minBatchSize ≤ S.config.maxBatchSize →
    S.config.numSessions * S.config.maxBatchSize ≤ s.commandQueue.length →
    Ready S s.commandQueue → ∃ v, (server S).Reaches s v ∧ v.Busy := by
  intro h
  obtain ⟨s, hrun, hp, hw, hq⟩ : ∃ s : State ℕ ℕ ℕ ℕ,
      (server poolPair).run (.start poolPair) (.worker 1 .init :: queueRun) = some s ∧
        s.batcher.phase = .head ∧ s.workers = [⟨[], .receiving⟩, ⟨[], .receiving⟩] ∧
        s.commandQueue = [.newRaw 0 7 0, .newRaw 1 8 1] := ⟨_, rfl, rfl, rfl, rfl⟩
  have hs : (server poolPair).Reachable s := ⟨_, hrun⟩
  obtain ⟨v, hv, hbusy⟩ := h poolPair s hs hp (by simp [hw]) (by decide) (by decide) (by decide)
    (by rw [hq]; decide) (by rw [hq]; exact ready_queue rfl (by decide))
  have hle := Busy.length_le (hs.trans hv) hbusy
  rw [(rota (hs.trans hv)).workers] at hle
  exact absurd hle (by decide)

end OrtSuperserve

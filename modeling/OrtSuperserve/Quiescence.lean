import OrtSuperserve.Shutdown
import OrtSuperserve.Dispatch

/-!
# When the server comes to rest

A server that has no step of its own to take is at rest: its batcher waits for a command or is gone,
and its workers wait for messages or are gone (`quiescent_iff`); and then every command accepted is
dealt with, so no command is ever stuck in it (`no_deadlock`).

Workers may die on the way.  One that panics over a message, in `process_message`, has no other message
with it, as the batcher waits for the reply to each; so the batcher hears of it and goes on.
-/

namespace OrtSuperserve

open Lib

variable {I P O F : Type} {S : Setup I P O F} {s s' t : State I P O F} {a : Action I}

/-! ### Along a run -/

/-- A batcher that has unwound does not come back. -/
lemma panicked_of_reaches (hp : s.batcher.phase = .panicked) (h : (server S).Reaches s t) :
    t.batcher.phase = .panicked := by
  refine h.induct (P := fun u => u.batcher.phase = .panicked) hp ?_
  intro u a v _ hu hst
  cases (server_step hst).effect with
  | batcher l evs move => exact absurd hu (Batcher.ne_panicked move.alive)
  | accepted cmd batcher => rwa [batcher]
  | dropped cmd batcher => rwa [batcher]
  | quiet evs batcher => rwa [batcher]

/-- A responder that is used stays so. -/
lemma Used.mono {cmd : Command I P} (hu : Used cmd s) (h : (server S).Reaches s t) : Used cmd t := by
  obtain ⟨x, hx⟩ := hu
  exact ⟨x, ((log_grows h).filterMap Event.fate?).subset hx⟩

/-- A command keeps its place among those accepted. -/
lemma accepted_getElem? {i : ℕ} {cmd : Command I P} (hi : (accepted s.log)[i]? = some cmd)
    (h : (server S).Reaches s t) : (accepted t.log)[i]? = some cmd := by
  obtain ⟨rest, hrest⟩ : accepted s.log <+: accepted t.log :=
    (log_grows h).filterMap Event.accepted?
  rw [← hrest, List.getElem?_append_left (List.getElem?_eq_some_iff.1 hi).1]
  exact hi

/-! ### Rest -/

/-- The worker waits for its next message, or has left its loop. -/
def WorkerThread.Resting (t : WorkerThread F) : Prop :=
  t.state = .receiving ∧ t.queue = [] ∨ t.state = .ended ∨ t.state = .dead

/-- The batcher waits for a command that can still come, or is gone, and all workers rest. -/
structure Quiescent (s : State I P O F) : Prop where
  batcher : s.batcher.phase = .head ∧ s.commandQueue = [] ∧ true ∈ s.handles ∨ s.batcher.gone = true
  workers : ∀ t ∈ s.workers, t.Resting

/-- No worker that has died has a message left. -/
def State.DeadEmpty (s : State I P O F) : Prop := ∀ t ∈ s.workers, t.state = .dead → t.queue = []

/-- A thread that does not rest has a step to take. -/
lemma exists_worker_internal {w : ℕ} {t : WorkerThread F} (ht : s.workers[w]? = some t)
    (hrest : ¬ t.Resting) : ∃ a t, Action.internal a ∧ (server S).step s a = some t := by
  have hstep : ∀ (b : WorkerAction) (r : WorkerEffect I P O F),
      (Action.worker (I := I) w b).internal → t.step S s.batcher.gone w b = some r →
      ∃ a t, Action.internal a ∧ (server S).step s a = some t := by
    intro b r hb hr
    exact ⟨.worker w b, _, hb, by simp only [server, State.step, State.workerStep, ht, hr]; rfl⟩
  obtain ⟨queue, state⟩ := t
  cases state with
  | initializing => exact hstep .init _ trivial rfl
  | receiving =>
    cases queue with
    | nil => exact absurd (.inl ⟨rfl, rfl⟩) hrest
    | cons msg rest => exact hstep .take _ trivial rfl
  | processing msg =>
    cases hp : processMessage S.target S.session msg with
    | ok l => exact hstep .process _ trivial (by simp only [WorkerThread.step, hp]; rfl)
    | err e => exact hstep .process _ trivial (by simp only [WorkerThread.step, hp]; rfl)
    | panic => exact hstep .process _ trivial (by simp only [WorkerThread.step, hp]; rfl)
  | ended => exact absurd (.inr (.inl rfl)) hrest
  | dead => exact absurd (.inr (.inr rfl)) hrest

/-- A worker at rest takes no step of the server's own. -/
lemma WorkerThread.Move.not_resting {t : WorkerThread F} {closed : Bool} {w : ℕ} {b : WorkerAction}
    {r : WorkerEffect I P O F} (h : t.Move S closed w b r)
    (hi : (Action.worker (I := I) w b).internal) : ¬ t.Resting := by
  intro hr
  unfold WorkerThread.Resting at hr
  cases h with
  | take msg rest hs hq => simp [hs, hq] at hr
  | init hs => simp [hs] at hr
  | served msg outputs hs => simp [hs] at hr
  | failed msg e hs => simp [hs] at hr
  | panicked msg hs => simp [hs] at hr
  | _ => exact hi

/-- **The server stops by itself only at rest.** -/
theorem quiescent_iff (hs : (server S).Reachable s) (hdead : s.DeadEmpty) :
    (∀ a t, Action.internal a → (server S).step s a ≠ some t) ↔ Quiescent s := by
  constructor
  · intro hstuck
    have hnone : ¬ ∃ a t, Action.internal a ∧ (server S).step s a = some t := by
      rintro ⟨a, t, ha, hst⟩
      exact hstuck a t ha hst
    refine ⟨?_, ?_⟩
    · by_cases hgone : s.batcher.gone = true
      · exact .inr hgone
      have hgone : s.batcher.gone = false := by simpa using hgone
      have hhead : s.batcher.phase = .head ∧ s.commandQueue = [] := by
        by_contra hne
        rw [not_and] at hne
        exact hnone (exists_step hs hdead hne hgone)
      refine .inl ⟨hhead.1, hhead.2, ?_⟩
      by_contra hopen
      -- with all handles dropped the receiver sees the end of the channel
      refine hnone ⟨.batcher .closed, { s with batcher := { s.batcher with phase := .stopped } },
        trivial, ?_⟩
      simp [server, State.step, State.batcherStep, hhead.2, hopen, Batcher.step, hhead.1]
    · intro t ht
      by_contra hrest
      obtain ⟨w, hw⟩ := List.mem_iff_getElem?.1 ht
      exact hnone (exists_worker_internal hw hrest)
  · intro hq a t ha hst
    have hmove : ∀ {l : BatcherAction I P F} {b' : Batcher I P F} {evs : List (Event I P O F)},
        Batcher.Move S s.batcher l b' evs → (∀ cmd, l = .recv cmd → s.commandQueue ≠ []) →
        (l = .closed → true ∉ s.handles) → False := by
      intro l b' evs hm hrecv hclosed
      rcases hq.batcher with ⟨hp, hnil, hopen⟩ | hgone
      · rcases hm.of_head hp with ⟨cmd, hl⟩ | hl
        · exact hrecv cmd hl hnil
        · exact hclosed hl hopen
      · rw [hm.alive] at hgone
        cases hgone
    cases server_step hst with
    | client => exact ha
    | discard => exact ha
    | recv cmd rest b' evs hne hm => exact hmove hm (fun _ _ h => by simp [hne] at h) (by simp)
    | closed b' evs _ hh hm =>
      refine hmove hm (by simp) ?_
      intro _ hopen
      cases hh true hopen
    | dispatch b' evs hm => exact hmove hm (by simp) (by simp)
    | reply r b' evs hr hm => exact hmove hm (by simp) (by simp)
    | turn n b' evs hm => exact hmove hm (by simp) (by simp)
    | worker w b th r hth hm => exact hm.not_resting ha (hq.workers th (List.mem_of_getElem? hth))

/-- **At rest everything is dealt with.** -/
theorem Quiescent.used (hq : Quiescent s) (hs : (server S).Reachable s)
    (hb : s.batcher.phase ≠ .panicked) {cmd : Command I P} (hm : cmd ∈ accepted s.log) :
    Used cmd s := by
  rcases hq.batcher with ⟨hp, hnil, -⟩ | hgone
  · by_contra hG
    obtain ⟨i, hi⟩ := List.mem_iff_getElem?.1 hm
    exact (ahead_of_head hs hp hi hG).2 hnil
  · unfold Batcher.gone at hgone
    split at hgone
    · exact used_of_stopped hs ‹_› hm
    · exact absurd ‹_› hb
    · cases hgone

/-! ### Workers that die over a message -/

/-- A worker has at most one message, in its channel or in its hands. -/
lemma InFlight.card_messages_le (h : InFlight S s) {t : WorkerThread F} (ht : t ∈ s.workers) :
    t.messages.card ≤ 1 := by
  obtain ⟨w, hw⟩ := List.mem_iff_getElem?.1 ht
  have hsum := sum_map_set WorkerThread.messages (⟨[], .dead⟩ : WorkerThread F) hw
  have hcard := congrArg Multiset.card hsum
  have hle := s.batcher.length_outbox_le
  have hbal := h.balance
  have hnone : (⟨[], .dead⟩ : WorkerThread F).messages.card = 0 := by simp [WorkerThread.messages]
  have hin : s.inFlight.card = ((s.workers.map WorkerThread.messages).sum).card := rfl
  rw [Multiset.card_add, Multiset.card_add] at hcard
  omega

/-- A thread that has a message in its hands has none in its channel. -/
lemma InFlight.queue_of_processing (h : InFlight S s) {t : WorkerThread F} (ht : t ∈ s.workers)
    {msg : WorkerMessage F} (hs : t.state = .processing msg) : t.queue = [] := by
  have hle := h.card_messages_le ht
  have hmsgs : t.messages.card = t.queue.length + 1 := by simp [WorkerThread.messages, hs]
  apply List.length_eq_zero_iff.1
  omega

lemma Step.deadEmpty (h : Step S s a s') (hin : InFlight S s) (ha : ∀ w, a ≠ .worker w .die)
    (hs : s.DeadEmpty) : s'.DeadEmpty := by
  cases h with
  | client _ _ hm => cases hm <;> exact hs
  | dispatch b' evs hm =>
    intro t ht hd
    obtain ⟨w, hw⟩ := List.mem_iff_getElem?.1 ht
    simp only [State.afterBatcher, List.getElem?_modify] at hw
    obtain ⟨t', ht', rfl⟩ := Option.map_eq_some_iff.1 hw
    by_cases hc : s.chosen S = w
    · -- a dead worker takes no message
      rw [if_pos hc] at hd ⊢
      have hnil := hs t' (List.mem_of_getElem? ht') hd
      have hacc : s.accepts S = false := by
        have hd : t'.state = .dead := hd
        simp [State.accepts, hc, ht', WorkerThread.alive, hd]
      have hout : b'.outbox = [] := hm.outbox_of_ne_sent (by rw [hacc]; simp)
      simp [hnil, hout]
    · rw [if_neg hc] at hd ⊢
      exact hs t' (List.mem_of_getElem? ht') hd
  | worker w b t r ht hm =>
    intro t' ht' hd
    rcases List.mem_or_eq_of_mem_set ht' with ht' | rfl
    · exact hs t' ht' hd
    · cases hm with
      | panicked msg hst =>
        have hnil : t.queue = [] := hin.queue_of_processing (List.mem_of_getElem? ht) hst
        exact hnil
      | dieIdle => exact absurd rfl (ha w)
      | dieBusy => exact absurd rfl (ha w)
      | discard msg rest hst hq =>
        have hnil := hs t (List.mem_of_getElem? ht) hst
        rw [hq] at hnil
        cases hnil
      | _ => cases hd
  | _ => exact hs

/-- While threads die in `process_message` only, no dead worker has a message left. -/
theorem deadEmpty_run (hs : (server S).Reachable s) (hd : s.DeadEmpty) {as : List (Action I)}
    (h : (server S).run s as = some t) (hdie : ∀ w, .worker w .die ∉ as) : t.DeadEmpty := by
  induction as using List.reverseRecOn generalizing t with
  | nil =>
    obtain rfl : s = t := by simpa using h
    exact hd
  | append_singleton as a ih =>
    obtain ⟨u, hu, hst⟩ := (server S).run_snoc.1 h
    refine (server_step hst).deadEmpty (inFlight (hs.trans ⟨as, hu⟩)) ?_ (ih hu ?_)
    · rintro w rfl
      exact hdie w (by simp)
    · intro w hw
      exact hdie w (by simp [hw])

lemma deadEmpty_start (S : Setup I P O F) : (State.start S).DeadEmpty := by
  intro t ht hd
  rw [(List.mem_replicate.1 ht).2] at hd
  cases hd

/-- **No deadlock.**  In every run in which threads die in `process_message` only: where the server has
no step of its own left, it is at rest, and unless the batcher has unwound every command accepted is
dealt with. -/
theorem no_deadlock {as : List (Action I)} (h : (server S).run (.start S) as = some s)
    (hdie : ∀ w, .worker w .die ∉ as)
    (hstuck : ∀ a t, Action.internal a → (server S).step s a ≠ some t) :
    Quiescent s ∧
      (s.batcher.phase ≠ .panicked → ∀ cmd ∈ accepted s.log, Used cmd s) := by
  have hs : (server S).Reachable s := ⟨as, h⟩
  have hq := (quiescent_iff hs (deadEmpty_run .start (deadEmpty_start S) h hdie)).1 hstuck
  exact ⟨hq, fun hb cmd hm => hq.used hs hb hm⟩

/-! ### A worker that panics -/

/-- The sample with a session that panics. -/
def fragile : Setup ℕ ℕ ℕ ℕ :=
  { sample with session := { identitySession with run := fun _ _ _ => .panic } }

/-- The worker panics over the first batch, and the second finds it dead. -/
def fragileRun : List (Action ℕ) :=
  [.batcher (.turn .start), .worker 0 .init, .client (.infer 0 7), .client (.prepare 0),
    .client (.send 0), .batcher .recv, .batcher (.turn .timeout), .batcher (.turn .check),
    .batcher (.turn (.preprocessed 0)), .batcher (.turn (.filter [0])), .batcher (.turn .batch),
    .batcher .dispatch, .worker 0 .take, .client (.infer 0 8), .client (.prepare 1),
    .client (.send 1), .worker 0 .process, .batcher .reply, .batcher .recv,
    .batcher (.turn .timeout), .batcher (.turn .check), .batcher (.turn (.preprocessed 0)),
    .batcher (.turn (.filter [0])), .batcher (.turn .batch), .batcher .dispatch]

theorem no_deadlock_sample : ∃ s : State ℕ ℕ ℕ ℕ,
    (server fragile).run (.start fragile) fragileRun = some s ∧ s.workers = [⟨[], .dead⟩] ∧
    ∃ cmd cmd' : Command ℕ ℕ, accepted s.log = [cmd, cmd'] ∧ Used cmd s ∧ Used cmd' s := by
  obtain ⟨s, hrun, hp, hq, hh, hw, cmd, cmd', hacc⟩ : ∃ s : State ℕ ℕ ℕ ℕ,
      (server fragile).run (.start fragile) fragileRun = some s ∧ s.batcher.phase = .head ∧
        s.commandQueue = [] ∧ s.handles = [true] ∧ s.workers = [⟨[], .dead⟩] ∧
        ∃ cmd cmd' : Command ℕ ℕ, accepted s.log = [cmd, cmd'] :=
    ⟨_, rfl, rfl, rfl, rfl, rfl, _, _, rfl⟩
  have hdie : ∀ w, Action.worker w .die ∉ fragileRun := by simp [fragileRun]
  have hrest : Quiescent s := by
    refine ⟨.inl ⟨hp, hq, by simp [hh]⟩, ?_⟩
    intro t ht
    rw [hw, List.mem_singleton] at ht
    exact .inr (.inr (by rw [ht]))
  have hstuck := (quiescent_iff ⟨fragileRun, hrun⟩
    (deadEmpty_run .start (deadEmpty_start fragile) hrun hdie)).2 hrest
  obtain ⟨-, hused⟩ := no_deadlock hrun hdie hstuck
  have hused := hused (by rw [hp]; simp)
  exact ⟨s, hrun, hw, cmd, cmd', hacc, hused cmd (by simp [hacc]), hused cmd' (by simp [hacc])⟩

end OrtSuperserve

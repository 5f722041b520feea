import OrtSuperserve.Deadlines

/-!
# The server comes to an end

When every handle is dropped, or the batcher has unwound, all that was spawned ends: in a fair run the
batcher leaves its loop, and after it every worker thread (`terminates_in_fair`).  What goes down is
the price of the commands in the channel, the work left in the round, the steps the workers have to
take for their messages, and the number of threads.
-/

namespace OrtSuperserve

open Lib

variable {I P O F : Type} {S : Setup I P O F} {s s' t : State I P O F} {a : Action I}

/-! ### The end -/

/-- The server's own steps, with the ones in which a worker leaves its loop. -/
def Action.closing (a : Action I) : Prop := a.internal ∨ ∃ w, a = .worker w .exit

/-- No command can be sent any more: every handle is dropped, or the batcher is gone. -/
def State.Closed (s : State I P O F) : Prop :=
  (∀ x ∈ s.handles, x = false) ∨ s.batcher.gone = true

/-- Nothing that was spawned runs. -/
structure Terminated (s : State I P O F) : Prop where
  batcher : s.batcher.gone = true
  workers : ∀ t ∈ s.workers, t.alive = false

/-- A dropped handle is not taken up again. -/
lemma Step.closed_mono (h : Step S s a s') (hs : s.Closed) : s'.Closed := by
  rcases hs with hh | hg
  · refine .inl ?_
    intro x hx
    cases h with
    | client _ _ hm =>
      cases hm with
      | clone i hi => exact absurd (hh true (List.mem_of_getElem? hi)) (by simp)
      | shutdown i hi =>
        rcases List.mem_or_eq_of_mem_set hx with hx | rfl
        · exact hh x hx
        · rfl
      | _ => exact hh x hx
    | _ => exact hh x hx
  · exact .inr (h.gone_mono hg)

/-- Then no call sends anything. -/
lemma State.Closed.not_sending (hs : s.Closed) (hr : (server S).Reachable s) {c : ℕ}
    {call : Call I P O} {cmd : Command I P} (hc : s.calls[c]? = some call)
    (hst : call.state = .sending cmd) : s.batcher.gone = true := by
  rcases hs with hh | hg
  · have hrun := not_running hr hh call (List.mem_of_getElem? hc)
    rw [hst] at hrun
    cases hrun
  · exact hg

/-! ### The rank -/

/-- The steps of a thread to its end. -/
def WorkerThread.toll (t : WorkerThread F) : ℕ := t.load + if t.alive then 1 else 0

def State.toll (s : State I P O F) : ℕ := (s.workers.map WorkerThread.toll).sum

def State.remaining (S : Setup I P O F) (s : State I P O F) : ℕ :=
  s.commandQueue.length * roundCost S.config.roundSize +
    s.batcher.potential S.config.roundSize + s.toll

/-- The end of the channel takes the batcher on without a new round. -/
lemma Batcher.Move.potential_closed {b b' : Batcher I P F} {evs : List (Event I P O F)}
    {V : WorkerMessage F → Reply F → Prop} {batch : List (Command I P)}
    (h : Batcher.Move S b .closed b' evs) (hf : b.Fits S V batch) :
    b'.potential S.config.roundSize < b.potential S.config.roundSize := by
  have hlt := h.potential_lt hf
  cases h with
  | stop hp =>
    simp only [Batcher.potential, Batcher.work, hp]
    omega
  | leave _ hp =>
    simp only [Batcher.atHead, hp, Bool.false_eq_true, if_false] at hlt
    omega

/-- A move of the batcher, paid for by the command it receives. -/
lemma remaining_batcher {l : BatcherAction I P F} {b' : Batcher I P F} {evs : List (Event I P O F)}
    (hf : s.batcher.Fits S (Reply.For S) (currentBatch [] s.log))
    (hm : Batcher.Move S s.batcher l b' evs) (hb : s'.batcher = b')
    (hq : s.commandQueue = received evs ++ s'.commandQueue)
    (htoll : s'.toll ≤ s.toll + 2 * b'.outbox.length)
    (hhead : s.batcher.atHead = true → (received evs).length = 1 ∨ l = .closed) :
    s'.remaining S < s.remaining S := by
  have hlt := hm.potential_lt hf
  have hlen : s.commandQueue.length = (received evs).length + s'.commandQueue.length := by
    rw [hq, List.length_append]
  unfold State.remaining
  rw [hb, hlen, Nat.add_mul]
  by_cases hh : s.batcher.atHead = true
  · rw [if_pos hh] at hlt
    rcases hhead hh with hone | rfl
    · rw [hone, Nat.one_mul]
      omega
    · have hclosed := hm.potential_closed hf
      have hout : b'.outbox = [] := hm.outbox_of_ne_sent (by simp)
      rw [hout, List.length_nil] at htoll
      omega
  · rw [if_neg hh] at hlt
    omega

lemma toll_afterBatcher {b' : Batcher I P F} {evs : List (Event I P O F)} (w : ℕ) :
    (s.afterBatcher w (b', evs)).toll ≤ s.toll + 2 * b'.outbox.length := by
  have hpush : ∀ t : WorkerThread F,
      ({ t with queue := t.queue ++ b'.outbox } : WorkerThread F).toll =
        t.toll + 2 * b'.outbox.length := by
    intro t
    show WorkerThread.load _ + _ = WorkerThread.load t + _ + _
    rw [load_push]
    exact Nat.add_right_comm _ _ _
  unfold State.toll State.afterBatcher
  by_cases hw : w < s.workers.length
  · exact (sum_map_modify _ _ _ hpush _ _ hw).le
  · rw [List.modify_eq_self (not_lt.1 hw)]
    exact Nat.le_add_right _ _

/-- A step of the batcher. -/
lemma remaining_decreases {a : BatcherTaskAction} (hr : (server S).Reachable s)
    (hs : Step S s (.batcher a) s') : s'.remaining S < s.remaining S := by
  have hf := (stream hr).fits
  -- at the top of the loop there are two steps only
  have hhead : ∀ {l : BatcherAction I P F} {b' : Batcher I P F} {evs : List (Event I P O F)},
      Batcher.Move S s.batcher l b' evs → s.batcher.atHead = true →
      (received evs).length = 1 ∨ l = .closed := by
    intro l b' evs hm hh
    rcases hm.of_head (phase_of_atHead hh) with ⟨cmd, rfl⟩ | hl
    · exact .inl (by rw [hm.received_eq]; rfl)
    · exact .inr hl
  cases hs with
  | recv cmd rest b' evs hq hm =>
    refine remaining_batcher hf hm rfl ?_ (Nat.le_add_right _ _) (hhead hm)
    rw [hm.received_eq]
    exact hq
  | closed b' evs hq hh hm =>
    refine remaining_batcher hf hm rfl ?_ (Nat.le_add_right _ _) (hhead hm)
    rw [hm.received_eq]
    rfl
  | dispatch b' evs hm =>
    refine remaining_batcher hf hm rfl ?_ (toll_afterBatcher _) (hhead hm)
    rw [hm.received_eq]
    rfl
  | reply r b' evs hr hm =>
    refine remaining_batcher hf hm rfl ?_ (Nat.le_add_right _ _) (hhead hm)
    rw [hm.received_eq]
    rfl
  | turn n b' evs hm =>
    refine remaining_batcher hf hm rfl ?_ (Nat.le_add_right _ _) (hhead hm)
    rw [hm.received_eq]
    rfl

/-- A thread that has ended or died does not come back. -/
lemma WorkerThread.Move.alive_of {w : ℕ} {b : WorkerAction} {t : WorkerThread F} {closed : Bool}
    {r : WorkerEffect I P O F} (hm : t.Move S closed w b r) (hr : r.thread.alive = true) :
    t.alive = true := by
  cases hm with
  | init hs => simp [WorkerThread.alive, hs]
  | take msg rest hs => simp [WorkerThread.alive, hs]
  | served msg outputs hs => simp [WorkerThread.alive, hs]
  | failed msg e hs => simp [WorkerThread.alive, hs]
  | discard msg rest hs => simp [WorkerThread.alive, hs] at hr
  | _ => simp [WorkerThread.alive] at hr

/-- A step of a thread. -/
lemma WorkerThread.Move.toll_le {w : ℕ} {b : WorkerAction} {t : WorkerThread F} {closed : Bool}
    {r : WorkerEffect I P O F} (hm : t.Move S closed w b r) :
    r.thread.toll ≤ t.toll ∧ ((Action.worker (I := I) w b).closing → r.thread.toll < t.toll) := by
  obtain ⟨hle, hlt⟩ := hm.load_le
  have halive : (if r.thread.alive then 1 else 0) ≤ if t.alive then 1 else 0 := by
    by_cases hr : r.thread.alive = true
    · rw [if_pos hr, if_pos (hm.alive_of hr)]
    · rw [if_neg hr]
      exact Nat.zero_le _
  unfold WorkerThread.toll
  refine ⟨Nat.add_le_add hle halive, ?_⟩
  rintro (hi | ⟨v, hv⟩)
  · exact Nat.add_lt_add_of_lt_of_le (hlt hi) halive
  · obtain ⟨rfl, rfl⟩ : w = v ∧ b = .exit := by simpa using hv
    cases hm with
    | exit hs hq => simp [WorkerThread.load, WorkerThread.alive, hs, hq]

lemma remaining_worker {w : ℕ} {b : WorkerAction} {t : WorkerThread F} {r : WorkerEffect I P O F}
    (ht : s.workers[w]? = some t) (hm : t.Move S s.batcher.gone w b r) :
    let s' := { s with
      workers := s.workers.set w r.thread
      replies := r.replies ++ s.replies
      log := s.log ++ r.events }
    s'.remaining S ≤ s.remaining S ∧
      ((Action.worker (I := I) w b).closing → s'.remaining S < s.remaining S) := by
  intro s'
  obtain ⟨hle, hlt⟩ := hm.toll_le
  have hsum : s'.toll + t.toll = s.toll + r.thread.toll := sum_map_set WorkerThread.toll r.thread ht
  have hrem : ∀ u : State I P O F, u.remaining S = u.commandQueue.length *
      roundCost S.config.roundSize + u.batcher.potential S.config.roundSize + u.toll := fun _ => rfl
  refine ⟨?_, ?_⟩
  · rw [hrem, hrem]
    show s.commandQueue.length * _ + s.batcher.potential _ + s'.toll ≤ _
    omega
  · intro ha
    have := hlt ha
    rw [hrem, hrem]
    show s.commandQueue.length * _ + s.batcher.potential _ + s'.toll < _
    omega

/-! ### The ranking -/

/-- What holds while the server comes to its end. -/
structure Closing (S : Setup I P O F) (s : State I P O F) : Prop where
  reachable : (server S).Reachable s
  workers : s.DeadEmpty
  closed : s.Closed

/-- A worker that waits behind the batcher leaves its loop. -/
lemma step_exit {w : ℕ} (hw : s.workers[w]? = some ⟨[], .receiving⟩) (hg : s.batcher.gone = true) :
    (server S).step s (.worker w .exit) =
      some { s with workers := s.workers.set w ⟨[], .ended⟩ } := by
  simp [server, State.step, State.workerStep, hw, WorkerThread.step, hg]

lemma Closing.enabled (h : Closing S s) (hG : ¬ Terminated s) :
    ∃ a t, Action.closing a ∧ (server S).step s a = some t := by
  by_contra hnone
  have hq : Quiescent s := (quiescent_iff h.reachable h.workers).1 fun a t ha hst =>
    hnone ⟨a, t, .inl ha, hst⟩
  have hgone : s.batcher.gone = true := by
    rcases hq.batcher with ⟨hp, -, hopen⟩ | hgone
    · rcases h.closed with hh | hg
      · cases hh true hopen
      · exact hg
    · exact hgone
  refine hG ⟨hgone, ?_⟩
  intro t ht
  obtain ⟨w, hw⟩ := List.mem_iff_getElem?.1 ht
  obtain ⟨queue, state⟩ := t
  rcases hq.workers _ ht with ⟨hs, hnil⟩ | hs | hs
  · obtain rfl : state = .receiving := hs
    obtain rfl : queue = [] := hnil
    exact absurd ⟨_, _, .inr ⟨w, rfl⟩, step_exit hw hgone⟩ hnone
  · obtain rfl : state = .ended := hs
    rfl
  · obtain rfl : state = .dead := hs
    rfl

/-- The calls that are left add nothing. -/
lemma remaining_client {a : ClientAction I} (h : Closing S s) (hm : ClientMove S s a s') :
    s'.remaining S ≤ s.remaining S := by
  cases hm with
  | send c call cmd hc hst hg =>
    rw [h.closed.not_sending h.reachable hc hst] at hg
    cases hg
  | _ => exact le_rfl

theorem closing_ranking (S : Setup I P O F) :
    (server S).Ranking Action.closing (Closing S) Terminated (State.remaining S) where
  enabled s h hG := h.enabled hG
  decreases s a t h hG ha hst := by
    refine .inr ?_
    cases a with
    | batcher a => exact remaining_decreases h.reachable (server_step hst)
    | worker w b =>
      cases server_step hst with
      | worker _ _ th r ht hm => exact (remaining_worker ht hm).2 ha
    | client a =>
      rcases ha with hi | ⟨w, hw⟩
      · exact hi.elim
      · cases hw
    | discard =>
      rcases ha with hi | ⟨w, hw⟩
      · exact hi.elim
      · cases hw
  others s a t h hG ha hst := by
    refine .inr ?_
    cases server_step hst with
    | client _ _ hm => exact remaining_client h hm
    | worker w b th r ht hm => exact (remaining_worker ht hm).1
    | discard cmd rest hq hg =>
      have hlen : s.commandQueue.length = rest.length + 1 := by rw [hq, List.length_cons]
      show rest.length * _ + s.batcher.potential _ + s.toll ≤ s.commandQueue.length * _ + _ + s.toll
      rw [hlen, Nat.succ_mul]
      omega
    | _ => exact absurd (.inl trivial) ha

/-- A server that is closed stays closed. -/
lemma closed_of_reaches (hs : s.Closed) (h : (server S).Reaches s t) : t.Closed :=
  h.induct (P := State.Closed) hs fun _ _ _ _ hu hst => (server_step hst).closed_mono hu

/-- **The server comes to its end.**  In a run that is fair to the server's own steps and to the
workers that leave their loop, and in which threads die in `process_message` only: once every handle
is dropped, or the batcher has unwound, the batcher is gone and no worker thread runs from some moment
on. -/
theorem terminates_in_fair (ρ : (server S).FairRun Action.closing)
    (hdie : ∀ j w, ρ.label j ≠ some (.worker w .die)) {k : ℕ} (hclosed : (ρ.state k).Closed) :
    ∃ j, k ≤ j ∧ ∀ i, j ≤ i → Terminated (ρ.state i) := by
  obtain ⟨j, hj, hend⟩ := ρ.eventually (k := k) (closing_ranking S) fun j hj =>
    ⟨ρ.reachable j, deadEmpty_fair ρ hdie j, closed_of_reaches hclosed (ρ.reaches hj)⟩
  refine ⟨j, hj, ?_⟩
  intro i hi
  refine (ρ.reaches hi).induct (P := Terminated) hend ?_
  intro u a v _ hu hst
  have hstep := server_step hst
  refine ⟨hstep.gone_mono hu.batcher, ?_⟩
  intro t ht
  cases hstep with
  | client _ _ hm => cases hm <;> exact hu.workers t ht
  | dispatch b' evs hm =>
    have := hm.alive
    rw [hu.batcher] at this
    cases this
  | worker w b th r hth hm =>
    rcases List.mem_or_eq_of_mem_set ht with ht | rfl
    · exact hu.workers t ht
    · by_contra hr
      have := hm.alive_of (by simpa using hr)
      rw [hu.workers th (List.mem_of_getElem? hth)] at this
      cases this
  | _ => exact hu.workers t ht

end OrtSuperserve

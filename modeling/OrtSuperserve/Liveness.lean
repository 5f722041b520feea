import OrtSuperserve.Responses

/-!
# Every command is dealt with in the end

While the batcher and the workers are alive, fairness to the server's own steps, all taken together,
is enough for the responder of every command accepted to be used (`eventually_used`).  The rank that
goes down is the number of commands ahead in the channel, each worth a round, with the work left in the
round and the work the workers have with the message underway.
-/

namespace OrtSuperserve

open Lib

variable {I P O F : Type} {S : Setup I P O F} {s s' u v : State I P O F}

/-- The server's own steps: those of the batcher, and those by which a worker gets ready and serves. -/
def Action.internal : Action I → Prop
  | .batcher _ => True
  | .worker _ .init => True
  | .worker _ .take => True
  | .worker _ .process => True
  | _ => False

/-! ### The rank -/

/-- The price of a round. -/
def roundCost (R : ℕ) : ℕ := 4 * R + 10

namespace Batcher

/-- The work up to the top of the loop. -/
def potential (R : ℕ) (b : Batcher I P F) : ℕ :=
  match b.phase with
  | .collecting => b.work R + (3 * R + 10)
  | _ => b.work R

/-- The batcher is at the top of the loop. -/
def atHead (b : Batcher I P F) : Bool :=
  match b.phase with
  | .head => true
  | _ => false

/-- **Every step lowers the potential**, except that a round begins on credit. -/
lemma Move.potential_lt {V : WorkerMessage F → Reply F → Prop} {batch : List (Command I P)}
    {b b' : Batcher I P F} {a : BatcherAction I P F} {evs : List (Event I P O F)}
    (h : Move S b a b' evs) (hf : b.Fits S V batch) :
    b'.potential S.config.roundSize + 2 * b'.outbox.length <
      b.potential S.config.roundSize + if b.atHead then roundCost S.config.roundSize else 0 := by
  by_cases hc : collected evs = []
  · have hlt := h.work_lt hf hc
    cases h with
    | first cmd hp =>
      simp only [potential, atHead, hp, if_true, roundCost]
      omega
    | more cmd hp =>
      simp only [potential, hp] at hlt ⊢
      omega
    | leave => simp at hc
    | spawn hp =>
      simp only [potential, hp, spawnPreprocess] at hlt ⊢
      omega
    | finish hp =>
      simp only [potential, hp, nextRound] at hlt ⊢
      omega
    | _ => simp only [potential, nextRound, *] at hlt ⊢; omega
  · cases h with
    | leave a hp =>
      simp only [Fits, hp] at hf
      simp only [potential, work, outbox, hp, List.length_nil]
      omega
    | spawn => exact absurd (collected_spawnPreprocess b) hc
    | _ => simp at hc

end Batcher

/-- The steps a worker has to take for its messages, and to get ready. -/
def WorkerThread.load (t : WorkerThread F) : ℕ :=
  2 * t.queue.length +
    match t.state with
    | .initializing | .processing _ => 1
    | .receiving | .ended | .dead => 0

def State.load (s : State I P O F) : ℕ := (s.workers.map WorkerThread.load).sum

/-- The commands to be received up to the one accepted at position `i`. -/
def State.ahead (i : ℕ) (s : State I P O F) : ℕ := i + 1 - (received s.log).length

def State.rank (S : Setup I P O F) (i : ℕ) (s : State I P O F) : ℕ :=
  s.ahead i * roundCost S.config.roundSize + s.batcher.potential S.config.roundSize + s.load

/-! ### The commands ahead -/

lemma used_of_answers {c : ℕ} (h : 0 < s.answers c + s.drops c) : ∃ x, (c, x) ∈ fates s.log := by
  rw [← count_fates] at h
  obtain ⟨⟨d, x⟩, hm, rfl⟩ := List.mem_map.1 (List.count_pos_iff.1 h)
  exact ⟨x, hm⟩

/-- A batcher that holds no responder has used up those it received. -/
lemma used_of_held (hs : (server S).Reachable s) (hh : s.batcher.held = []) {cmd : Command I P}
    (hm : cmd ∈ accepted s.log) (hq : s.inQueue cmd.responder = 0) :
    ∃ x, (cmd.responder, x) ∈ fates s.log := by
  have hone : s.responders.count cmd.responder = 1 :=
    List.count_eq_one_of_mem (calls hs).nodup (List.mem_map_of_mem hm)
  have hled := ledger hs cmd.responder
  have hheld := congrArg (List.count cmd.responder) hh
  rw [Batcher.held, List.count_append, count_responders, List.count_nil] at hheld
  unfold State.inBuffer State.inBatch State.inTasks at hled
  exact used_of_answers (by omega)

/-- At the top of the loop a command that is not dealt with is in the channel. -/
lemma ahead_of_head (hs : (server S).Reachable s) (hp : s.batcher.phase = .head) {i : ℕ}
    {cmd : Command I P} (hi : (accepted s.log)[i]? = some cmd)
    (hG : ¬ ∃ x, (cmd.responder, x) ∈ fates s.log) :
    (received s.log).length ≤ i ∧ s.commandQueue ≠ [] := by
  have hst := stream hs
  have hne : s.batcher.phase ≠ .panicked := by simp [hp]
  have horder := hst.accepted_eq hne
  have hle : (received s.log).length ≤ i := by
    by_contra hlt
    rw [horder, List.getElem?_append_left (by omega)] at hi
    have hbuf : s.batcher.batchBuffer = [] := by simpa only [Batcher.Fits, hp] using hst.fits
    exact hG (used_of_held hs (by simp [Batcher.held, hp, hbuf, Phase.responders])
      (horder ▸ List.mem_append_left _ (List.mem_of_getElem? hi))
      (inQueue_of_received (calls hs) hst hne (List.mem_of_getElem? hi)))
  refine ⟨hle, ?_⟩
  intro hnil
  have hlen := (List.getElem?_eq_some_iff.1 hi).1
  rw [horder, hnil, List.append_nil] at hlen
  omega

/-! ### The rank goes down -/

/-- What holds while the batcher is alive and no worker has died over a message. -/
structure Alive (S : Setup I P O F) (i : ℕ) (cmd : Command I P) (s : State I P O F) : Prop where
  reachable : (server S).Reachable s
  batcher : s.batcher.phase ≠ .panicked
  workers : ∀ t ∈ s.workers, t.state = .dead → t.queue = []
  accepted : (accepted s.log)[i]? = some cmd

/-- The responder of the command is used. -/
def Used (cmd : Command I P) (s : State I P O F) : Prop := ∃ x, (cmd.responder, x) ∈ fates s.log

lemma load_push (t : WorkerThread F) (l : List (WorkerMessage F)) :
    ({ t with queue := t.queue ++ l } : WorkerThread F).load = t.load + 2 * l.length := by
  simp only [WorkerThread.load, List.length_append]
  omega

lemma load_afterBatcher {b' : Batcher I P F} {evs : List (Event I P O F)} (w : ℕ) :
    (s.afterBatcher w (b', evs)).load ≤ s.load + 2 * b'.outbox.length := by
  unfold State.load State.afterBatcher
  by_cases hw : w < s.workers.length
  · exact (sum_map_modify _ _ _ (fun t => load_push t b'.outbox) _ _ hw).le
  · rw [List.modify_eq_self (not_lt.1 hw)]
    exact Nat.le_add_right _ _

/-- Receiving commands brings the others nearer. -/
lemma ahead_append {i : ℕ} {evs : List (Event I P O F)} (hlog : s'.log = s.log ++ evs) :
    s'.ahead i = s.ahead i - (received evs).length := by
  rw [State.ahead, State.ahead, hlog, received_append, List.length_append]
  omega

/-- A step of the batcher that is not at the top of its loop. -/
lemma rank_batcher {i : ℕ} {l : BatcherAction I P F} {b' : Batcher I P F}
    {evs : List (Event I P O F)} (hf : s.batcher.Fits S (Reply.For S) (currentBatch [] s.log))
    (hm : Batcher.Move S s.batcher l b' evs) (hb : s'.batcher = b') (hlog : s'.log = s.log ++ evs)
    (hload : s'.load ≤ s.load + 2 * b'.outbox.length)
    (hhead : s.batcher.atHead = true → 0 < s.ahead i ∧ (received evs).length = 1) :
    s'.rank S i < s.rank S i := by
  have hlt := hm.potential_lt hf
  have hahead := ahead_append (i := i) hlog
  unfold State.rank
  rw [hb, hahead]
  by_cases hh : s.batcher.atHead = true
  · obtain ⟨hpos, hone⟩ := hhead hh
    obtain ⟨n, hn⟩ : ∃ n, s.ahead i = n + 1 := ⟨s.ahead i - 1, by omega⟩
    rw [if_pos hh] at hlt
    rw [hone, hn, Nat.add_sub_cancel, Nat.succ_mul]
    omega
  · rw [if_neg hh] at hlt
    have := Nat.mul_le_mul_right (roundCost S.config.roundSize)
      (Nat.sub_le (s.ahead i) (received evs).length)
    omega

/-- A step of a thread adds nothing to its load, and serving lowers it. -/
lemma WorkerThread.Move.load_le {w : ℕ} {b : WorkerAction} {t : WorkerThread F} {closed : Bool}
    {r : WorkerEffect I P O F} (hm : t.Move S closed w b r) :
    r.thread.load ≤ t.load ∧
      ((Action.worker (I := I) w b).internal → r.thread.load < t.load) := by
  cases hm <;> (simp_all [WorkerThread.load, Action.internal]; try omega)

lemma rank_worker {i w : ℕ} {b : WorkerAction} {t : WorkerThread F} {r : WorkerEffect I P O F}
    (ht : s.workers[w]? = some t) (hm : t.Move S s.batcher.gone w b r) :
    let s' := { s with
      workers := s.workers.set w r.thread
      replies := r.replies ++ s.replies
      log := s.log ++ r.events }
    s'.rank S i ≤ s.rank S i ∧
      ((Action.worker (I := I) w b).internal → s'.rank S i < s.rank S i) := by
  have hrec : received r.events = [] := hm.quiet.received_eq
  have hsum := sum_map_set WorkerThread.load r.thread ht
  have hload := hm.load_le
  intro s'
  have hahead : s'.ahead i = s.ahead i := by
    rw [ahead_append rfl, hrec]
    rfl
  have hsload : s'.load + t.load = s.load + r.thread.load := hsum
  unfold State.rank
  rw [hahead]
  refine ⟨?_, ?_⟩
  · have := hload.1
    simp only [s'] at *
    omega
  · intro hi
    have := hload.2 hi
    simp only [s'] at *
    omega

/-! ### Workers that have left their loop -/

/-- A worker that has left its loop did so behind the batcher, with nothing left to do. -/
def State.EndedBehind (s : State I P O F) : Prop :=
  ∀ t ∈ s.workers, t.state = .ended → s.batcher.gone = true ∧ t.queue = []

lemma Step.endedBehind {a : Action I} (h : Step S s a s') (hs : s.EndedBehind) :
    s'.EndedBehind := by
  -- as long as the batcher moves no worker has ended
  have hnone : s.batcher.gone = false → ∀ t ∈ s.workers, t.state ≠ .ended := by
    intro hg t ht he
    rw [(hs t ht he).1] at hg
    cases hg
  cases h with
  | client a _ hm => cases hm <;> exact hs
  | recv cmd rest b' evs hq hm => exact fun t ht he => absurd he (hnone hm.alive t ht)
  | closed b' evs hq hh hm => exact fun t ht he => absurd he (hnone hm.alive t ht)
  | reply r b' evs hr hm => exact fun t ht he => absurd he (hnone hm.alive t ht)
  | turn tn b' evs hm => exact fun t ht he => absurd he (hnone hm.alive t ht)
  | dispatch b' evs hm =>
    intro t ht he
    obtain ⟨t', ht', hstate⟩ := exists_of_afterBatcher ht
    exact absurd (hstate.trans he) (hnone hm.alive t' ht')
  | worker w b th r hth hm =>
    intro t ht he
    rcases List.mem_or_eq_of_mem_set ht with ht | rfl
    · exact hs t ht he
    · cases hm with
      | exit hs hq hc => exact ⟨hc, hq⟩
      | _ => simp_all
  | discard => exact hs

lemma worker_ended (hs : (server S).Reachable s) : s.EndedBehind := by
  refine hs.invariant (P := State.EndedBehind) ?_ fun _ _ _ _ hu hst => (server_step hst).endedBehind hu
  intro t ht hst
  rw [(List.mem_replicate.1 ht).2] at hst
  cases hst

section Ranking

variable {i : ℕ} {cmd : Command I P}

/-- At the top of the loop the batcher takes a command or stops. -/
lemma Batcher.Move.of_head {b b' : Batcher I P F} {l : BatcherAction I P F}
    {evs : List (Event I P O F)} (h : Batcher.Move S b l b' evs) (hp : b.phase = .head) :
    (∃ cmd, l = .recv cmd) ∨ l = .closed := by
  cases h with
  | first cmd => exact .inl ⟨cmd, rfl⟩
  | stop => exact .inr rfl
  | _ => simp_all

lemma phase_of_atHead {b : Batcher I P F} (h : b.atHead = true) : b.phase = .head := by
  unfold Batcher.atHead at h
  split at h
  · assumption
  · cases h

/-- A step of the batcher ends the wait or lowers the rank. -/
lemma rank_decreases {a : BatcherTaskAction} (hr : (server S).Reachable s)
    (hi : (accepted s.log)[i]? = some cmd) (hG : ¬ Used cmd s) (hs : Step S s (.batcher a) s') :
    s'.rank S i < s.rank S i := by
  have hfits := (stream hr).fits
  have hahead := fun hh => ahead_of_head hr (phase_of_atHead hh) hi hG
  -- away from the top of the loop there is nothing to pay for
  have hpass : ∀ {l : BatcherAction I P F} {b' : Batcher I P F} {evs : List (Event I P O F)},
      Batcher.Move S s.batcher l b' evs → (∀ cmd, l ≠ .recv cmd) → l ≠ .closed →
      s.batcher.atHead = true → 0 < s.ahead i ∧ (received evs).length = 1 := fun hm h₁ h₂ hh => by
    rcases hm.of_head (phase_of_atHead hh) with ⟨cmd, hl⟩ | hl
    · exact absurd hl (h₁ cmd)
    · exact absurd hl h₂
  cases hs with
  | recv cmd' rest b' evs hq hm =>
    refine rank_batcher hfits hm rfl rfl (Nat.le_add_right _ _) fun hh => ⟨?_, ?_⟩
    · have := (hahead hh).1
      unfold State.ahead
      omega
    · rw [hm.received_eq]
      rfl
  | closed b' evs hq hh hm =>
    exact rank_batcher hfits hm rfl rfl (Nat.le_add_right _ _) fun hh => absurd hq (hahead hh).2
  | dispatch b' evs hm =>
    exact rank_batcher hfits hm rfl rfl (load_afterBatcher _) (hpass hm (by simp) (by simp))
  | reply r b' evs hr hm =>
    exact rank_batcher hfits hm rfl rfl (Nat.le_add_right _ _) (hpass hm (by simp) (by simp))
  | turn t b' evs hm =>
    exact rank_batcher hfits hm rfl rfl (Nat.le_add_right _ _) (hpass hm (by simp) (by simp))

/-- The worker that has the message underway can go on, unless it died over it. -/
lemma exists_worker_step (hr : (server S).Reachable s)
    (hdead : ∀ t ∈ s.workers, t.state = .dead → t.queue = []) {msg : WorkerMessage F}
    (hm : msg ∈ s.inFlight) (hg : s.batcher.gone = false) :
    ∃ a t, Action.internal a ∧ (server S).step s a = some t := by
  obtain ⟨th, hth, hmsg⟩ := mem_sum_map.1 hm
  obtain ⟨w, hw⟩ := List.mem_iff_getElem?.1 hth
  have hstep : ∀ (b : WorkerAction) (r : WorkerEffect I P O F),
      (Action.worker (I := I) w b).internal → th.step S s.batcher.gone w b = some r →
      ∃ a t, Action.internal a ∧ (server S).step s a = some t := fun b r hb hr =>
    ⟨.worker w b, _, hb, by simp only [server, State.step, State.workerStep, hw, hr]; rfl⟩
  cases hs : th.state with
  | initializing => exact hstep .init _ trivial (by simp only [WorkerThread.step, hs]; rfl)
  | receiving =>
    cases hq : th.queue with
    | nil => simp [WorkerThread.messages, hs, hq] at hmsg
    | cons m rest => exact hstep .take _ trivial (by simp only [WorkerThread.step, hs, hq]; rfl)
  | processing m =>
    cases hp : processMessage S.target S.session m with
    | ok l => exact hstep .process _ trivial (by simp only [WorkerThread.step, hs, hp]; rfl)
    | err e => exact hstep .process _ trivial (by simp only [WorkerThread.step, hs, hp]; rfl)
    | panic => exact hstep .process _ trivial (by simp only [WorkerThread.step, hs, hp]; rfl)
  | ended =>
    have := (worker_ended hr th hth hs).1
    rw [hg] at this
    cases this
  | dead => simp [WorkerThread.messages, hs, hdead th hth hs] at hmsg

/-- Away from an empty channel, a server whose batcher has not ended has a step to take. -/
lemma exists_step (hr : (server S).Reachable s)
    (hdead : ∀ t ∈ s.workers, t.state = .dead → t.queue = [])
    (hhead : s.batcher.phase = .head → s.commandQueue ≠ []) (hgone : s.batcher.gone = false) :
    ∃ a t, Action.internal a ∧ (server S).step s a = some t := by
  have hin := inFlight hr
  have hturn : ∀ t b' evs, s.batcher.step S (.turn t) = some (b', evs) →
      ∃ a t, Action.internal a ∧ (server S).step s a = some t := fun t b' evs hb =>
    ⟨.batcher (.turn t), _, trivial, step_turn hb⟩
  have hround : s.batcher.inRound = true → (∀ t rs, s.batcher.phase ≠ .dispatching t rs) →
      (∀ msg rs, s.batcher.phase ≠ .awaiting msg rs) →
      ∃ a t, Action.internal a ∧ (server S).step s a = some t := fun hb hd hw => by
    obtain ⟨t, b', evs, hb'⟩ := Batcher.exists_turn (S := S) hb hd hw
    exact hturn t b' evs hb'
  match hp : s.batcher.phase with
  | .starting => exact hturn .start _ _ (by simp only [Batcher.step, hp]; rfl)
  | .head =>
    obtain ⟨cmd', rest, hq⟩ := List.exists_cons_of_ne_nil (hhead hp)
    exact ⟨.batcher .recv, _, trivial, step_recv hq (by simp only [Batcher.step, hp]; rfl)⟩
  | .collecting =>
    by_cases hlt : s.batcher.batchBuffer.length < S.config.maxBatchSize
    · exact hturn .timeout _ _ (by simp only [Batcher.step, hp, if_pos hlt]; rfl)
    · exact hturn .full _ _ (by simp only [Batcher.step, hp, if_neg hlt]; rfl)
  | .collected => exact hround (by simp [Batcher.inRound, hp]) (by simp [hp]) (by simp [hp])
  | .preprocessing j => exact hround (by simp [Batcher.inRound, hp]) (by simp [hp]) (by simp [hp])
  | .batching items rs => exact hround (by simp [Batcher.inRound, hp]) (by simp [hp]) (by simp [hp])
  | .dispatching t rs =>
    exact ⟨.batcher .dispatch, _, trivial, step_dispatch (Batcher.step_sent hp _)⟩
  | .awaiting msg rs =>
    have hbal := hin.balance
    have hout : s.batcher.outbox = [msg] := by simp only [Batcher.outbox, hp]
    rw [hout, List.length_singleton] at hbal
    by_cases hcard : s.inFlight.card = 0
    · -- the reply is there
      obtain ⟨⟨r, rep⟩, hrep⟩ := List.length_eq_one_iff.1 (show s.replies.length = 1 by omega)
      obtain ⟨m, hm, hr, -⟩ := hin.replies (r, rep) (by simp [hrep])
      have hlook : s.replies.lookup s.batcher.round = some rep := by
        rw [hrep, ← hin.resultTx m hm, ← hr]
        simp
      exact ⟨.batcher .reply, _, trivial, by
        simp only [server, State.step, State.batcherStep, hlook, Batcher.step_reply hp rep]; rfl⟩
    · obtain ⟨m, hm⟩ := Multiset.card_pos_iff_exists_mem.1 (Nat.pos_of_ne_zero hcard)
      exact exists_worker_step hr hdead hm hgone
  | .postprocessing tasks =>
    exact hround (by simp [Batcher.inRound, hp]) (by simp [hp]) (by simp [hp])
  | .stopped => simp [Batcher.gone, hp] at hgone
  | .panicked => simp [Batcher.gone, hp] at hgone

/-- A batcher that has stopped has dealt with everything. -/
lemma used_of_stopped (hr : (server S).Reachable s) (hp : s.batcher.phase = .stopped)
    (hm : cmd ∈ accepted s.log) : Used cmd s := by
  have hst := stream hr
  have hbuf : s.batcher.batchBuffer = [] := by simpa only [Batcher.Fits, hp] using hst.fits
  apply used_of_held hr _ hm
  · simp [State.inQueue, hst.stopped hp]
  · simp [Batcher.held, hp, hbuf, Phase.responders]

/-- While the command waits, the server has a step to take. -/
lemma exists_internal (h : Alive S i cmd s) (hG : ¬ Used cmd s) :
    ∃ a t, Action.internal a ∧ (server S).step s a = some t := by
  apply exists_step h.reachable h.workers
  · intro hp
    exact (ahead_of_head h.reachable hp h.accepted hG).2
  · unfold Batcher.gone
    split
    · exact absurd (used_of_stopped h.reachable ‹_› (List.mem_of_getElem? h.accepted)) hG
    · exact absurd ‹_› h.batcher
    · rfl

/-- Nothing changes that the rank is made of. -/
lemma rank_of_quiet {E : List (Event I P O F)} (hlog : s'.log = s.log ++ E)
    (hrec : received E = []) (hb : s'.batcher = s.batcher) (hw : s'.workers = s.workers) :
    s'.rank S i = s.rank S i := by
  have hahead : s'.ahead i = s.ahead i := by
    rw [ahead_append hlog, hrec]
    rfl
  rw [State.rank, hahead, hb, State.load, hw, State.rank, State.load]

/-- Calls and handles do not change the rank. -/
lemma rank_client {a : ClientAction I} (hm : ClientMove S s a s') : s'.rank S i = s.rank S i := by
  cases hm with
  | prepare c call =>
    exact rank_of_quiet rfl (quiet_prepare S c call.input).received_eq rfl rfl
  | send c call cmd => exact rank_of_quiet (E := [.accepted cmd]) rfl rfl rfl rfl
  | _ => exact rank_of_quiet (E := []) (List.append_nil _).symm rfl rfl rfl

/-- **The rank.** -/
theorem ranking (S : Setup I P O F) (i : ℕ) (cmd : Command I P) :
    (server S).Ranking Action.internal (Alive S i cmd) (Used cmd) (State.rank S i) where
  enabled s h hG := exists_internal h hG
  decreases s a t h hG ha hst := by
    have hstep := server_step hst
    cases a with
    | client a => exact ha.elim
    | batcher a => exact .inr (rank_decreases h.reachable h.accepted hG hstep)
    | worker w b =>
      cases hstep with
      | worker _ _ th r ht hm => exact .inr ((rank_worker ht hm).2 ha)
    | discard => exact ha.elim
  others s a t h hG ha hst := by
    have hstep := server_step hst
    cases a with
    | client a =>
      cases hstep with
      | client _ _ hm => exact .inr (rank_client hm).le
    | batcher a => exact absurd trivial ha
    | worker w b =>
      cases hstep with
      | worker _ _ th r ht hm => exact .inr (rank_worker ht hm).1
    | discard =>
      cases hstep with
      | discard cmd rest hq hg =>
        exact .inr (le_of_eq (rank_of_quiet (E := [.drop cmd.responder]) rfl rfl rfl rfl))

end Ranking

/-- **Every command accepted is dealt with.**  In a run that is fair to the server's own steps, while
the batcher does not unwind and no worker dies, the responder of each command accepted is used. -/
theorem eventually_used (ρ : (server S).FairRun Action.internal) {k : ℕ}
    (hb : ∀ j, (ρ.state j).batcher.phase ≠ .panicked)
    (hw : ∀ j, ∀ t ∈ (ρ.state j).workers, t.state ≠ .dead) {cmd : Command I P}
    (hm : cmd ∈ accepted (ρ.state k).log) : ∃ j, k ≤ j ∧ Used cmd (ρ.state j) := by
  obtain ⟨i, hi⟩ := List.mem_iff_getElem?.1 hm
  refine ρ.eventually (ranking S i cmd) fun j hj =>
    ⟨ρ.reachable j, hb j, fun t ht hd => absurd hd (hw j t ht), ?_⟩
  obtain ⟨rest, hrest⟩ : accepted (ρ.state k).log <+: accepted (ρ.state j).log :=
    (log_grows (ρ.reaches hj)).filterMap Event.accepted?
  rw [← hrest, List.getElem?_append_left (List.getElem?_eq_some_iff.1 hi).1]
  exact hi

/-- A server at the top of its loop, with an empty channel, a handle alive and its workers waiting, has
no step of its own to take. -/
lemma idle_quiet (hp : s.batcher.phase = .head) (hq : s.commandQueue = []) (hh : true ∈ s.handles)
    (hw : ∀ t ∈ s.workers, t = ⟨[], .receiving⟩) (a : Action I) (t : State I P O F)
    (ha : a.internal) : (server S).step s a ≠ some t := by
  intro hst
  cases server_step hst with
  | client => exact ha
  | discard => exact ha
  | recv cmd rest b' evs hq' hm =>
    rw [hq] at hq'
    cases hq'
  | closed b' evs _ hh' hm => exact absurd (hh' true hh) (by simp)
  | dispatch b' evs hm => rcases hm.of_head hp with ⟨cmd, hl⟩ | hl <;> cases hl
  | reply r b' evs hr hm => rcases hm.of_head hp with ⟨cmd, hl⟩ | hl <;> cases hl
  | turn n b' evs hm => rcases hm.of_head hp with ⟨cmd, hl⟩ | hl <;> cases hl
  | worker w b th r hth hm =>
    obtain rfl := hw th (List.mem_of_getElem? hth)
    cases hm <;> simp_all [Action.internal]

end OrtSuperserve

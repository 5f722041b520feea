import OrtSuperserve.Service
import OrtSuperserve.Quiescence

/-!
# The size of the pool does not show

The batcher waits for the reply to each message before it forms the next batch, so the pool never has
more than one message.  Hence servers that differ in the number of their sessions do the same: whatever
one of them does without losing a worker, the other can do as well, with the same calls, the same
batches and the same replies, in the same order.  Only the worker a message is dispatched to differs.

That takes sessions that are interchangeable: each worker has its own, with a state (`pool`), and what
it returns for a message is to be the same on every worker, whatever that one has seen before
(`pool_size_invisible`).
-/

namespace OrtSuperserve

open Lib

variable {I P O F : Type}

/-! ### Two pools -/

/-- The server with another number of sessions. -/
def Setup.withSessions (S : Setup I P O F) (n : ℕ) : Setup I P O F :=
  { S with config := S.config.withNumSessions n }

/-- A dispatch without the worker it goes to. -/
def Event.unplaced : Event I P O F → Event I P O F
  | .dispatch _ t => .dispatch 0 t
  | e => e

/-- The message a thread is processing. -/
def WorkerThread.hands (t : WorkerThread F) : Multiset (WorkerMessage F) :=
  match t.state with
  | .processing msg => {msg}
  | _ => 0

/-- The messages in the channels of the workers. -/
def State.queued (s : State I P O F) : Multiset (WorkerMessage F) :=
  (s.workers.map fun t => (t.queue : Multiset (WorkerMessage F))).sum

/-- The messages in their hands. -/
def State.hands (s : State I P O F) : Multiset (WorkerMessage F) :=
  (s.workers.map WorkerThread.hands).sum

/-- The states agree but for the workers that have the messages, and the index of the next one. -/
structure Alike (s t : State I P O F) : Prop where
  handles : t.handles = s.handles
  calls : t.calls = s.calls
  commandQueue : t.commandQueue = s.commandQueue
  batcher : t.batcher = { s.batcher with dispatchIndex := t.batcher.dispatchIndex }
  replies : t.replies = s.replies
  log : t.log.map Event.unplaced = s.log.map Event.unplaced
  queued : t.queued = s.queued
  hands : t.hands = s.hands

variable {S : Setup I P O F} {s s' t t' : State I P O F} {n : ℕ}

/-! ### What the two have in common -/

lemma unplaced_fates {l l' : List (Event I P O F)}
    (h : l.map Event.unplaced = l'.map Event.unplaced) : fates l = fates l' := by
  have hcomp : ∀ l : List (Event I P O F), fates (l.map Event.unplaced) = fates l := by
    intro l
    show (l.map Event.unplaced).filterMap Event.fate? = l.filterMap Event.fate?
    rw [List.filterMap_map]
    apply List.filterMap_congr
    intro e _
    cases e <;> rfl
  rw [← hcomp l, h, hcomp]

lemma unplaced_workerPanic {l l' : List (Event I P O F)}
    (h : l.map Event.unplaced = l'.map Event.unplaced) :
    l.any Event.workerPanic = l'.any Event.workerPanic := by
  have hcomp : ∀ l : List (Event I P O F),
      (l.map Event.unplaced).any Event.workerPanic = l.any Event.workerPanic := by
    intro l
    rw [List.any_map]
    congr 1
    funext e
    cases e <;> rfl
  rw [← hcomp l, h, hcomp]

lemma Alike.gone (h : Alike s t) : t.batcher.gone = s.batcher.gone := by
  rw [h.batcher]
  rfl

/-- The calls and handles do the same. -/
lemma Alike.client (h : Alike s t) {a : ClientAction I} (hm : ClientMove S s a s') :
    ∃ t', ClientMove (S.withSessions n) t a t' ∧ Alike s' t' := by
  have hlog : ∀ evs : List (Event I P O F),
      (t.log ++ evs).map Event.unplaced = (s.log ++ evs).map Event.unplaced := by
    intro evs
    rw [List.map_append, h.log, List.map_append]
  have hcalls : ∀ c call st, (t.setCall c call st).calls = (s.setCall c call st).calls := by
    intro c call st
    rw [State.setCall, h.calls]
    rfl
  cases hm with
  | clone i hh =>
    refine ⟨_, .clone i (by rw [h.handles]; exact hh), { h with handles := ?_ }⟩
    show t.handles ++ [true] = s.handles ++ [true]
    rw [h.handles]
  | infer i input hh =>
    refine ⟨_, .infer i input (by rw [h.handles]; exact hh), { h with calls := ?_ }⟩
    show t.calls ++ _ = s.calls ++ _
    rw [h.calls]
  | prepare c call hc hs =>
    exact ⟨_, .prepare c call (by rw [h.calls]; exact hc) hs,
      { h with calls := hcalls c call _, log := hlog _ }⟩
  | send c call cmd hc hs hg =>
    refine ⟨_, .send c call cmd (by rw [h.calls]; exact hc) hs (by rw [h.gone]; exact hg),
      { h with calls := hcalls c call _, commandQueue := ?_, log := hlog _ }⟩
    show t.commandQueue ++ [cmd] = s.commandQueue ++ [cmd]
    rw [h.commandQueue]
  | refused c call cmd hc hs hg =>
    exact ⟨_, .refused c call cmd (by rw [h.calls]; exact hc) hs (by rw [h.gone]; exact hg),
      { h with calls := hcalls c call _ }⟩
  | receive c call fate hc hs hf =>
    have hf : (fates t.log).lookup c = some fate := by
      rw [unplaced_fates h.log]
      exact hf
    exact ⟨_, .receive c call fate (by rw [h.calls]; exact hc) hs hf,
      { h with calls := hcalls c call _ }⟩
  | cancel c call hc hs =>
    exact ⟨_, .cancel c call (by rw [h.calls]; exact hc) hs, { h with calls := hcalls c call _ }⟩
  | shutdown i hh hu =>
    refine ⟨_, .shutdown i (by rw [h.handles]; exact hh) (by rw [h.calls]; exact hu),
      { h with handles := ?_ }⟩
    show t.handles.set i false = s.handles.set i false
    rw [h.handles]

/-! ### The batcher -/

/-- The batcher does the same with another number of sessions, but where it dispatches. -/
lemma Batcher.Move.withSessions {b b' : Batcher I P F} {l : BatcherAction I P F}
    {evs : List (Event I P O F)} (h : Batcher.Move S b l b' evs) (hl : ∀ x, l ≠ .sent x) (d : ℕ) :
    Batcher.Move (S.withSessions n) { b with dispatchIndex := d } l { b' with dispatchIndex := d }
      evs := by
  cases h with
  | overflow hp h => exact .overflow hp h
  | start hp h => exact .start hp h
  | first cmd hp => exact .first cmd hp
  | stop hp => exact .stop hp
  | more cmd hp hlt => exact .more cmd hp hlt
  | leave _ hp ha => exact .leave l hp ha
  | empty hp h => exact .empty hp h
  | short hp hne hlt => exact .short hp hne hlt
  | spawn hp hne hle => exact .spawn hp hne hle
  | joinOk j k idx call input item hp hk h => exact .joinOk j k idx call input item hp hk h
  | joinErr j k idx call input e hp hk h => exact .joinErr j k idx call input e hp hk h
  | joinPanic j k idx call input hp hk h => exact .joinPanic j k idx call input hp hk h
  | filterNone j keys hp ht hk h => exact .filterNone j keys hp ht hk h
  | filterSome j keys hp ht hk h => exact .filterSome j keys hp ht hk h
  | batchOk items responders t hp h => exact .batchOk items responders t hp h
  | batchErr items responders e hp h => exact .batchErr items responders e hp h
  | batchPanic items responders hp h => exact .batchPanic items responders hp h
  | divZero => exact absurd rfl (hl _)
  | sent => exact absurd rfl (hl _)
  | refused => exact absurd rfl (hl _)
  | replyOk msg responders outputs hp h => exact .replyOk msg responders outputs hp h
  | replyFailed msg responders r e hp h => exact .replyFailed msg responders r e hp h
  | post tasks k rawOutput responder hp hk => exact .post tasks k rawOutput responder hp hk
  | finish hp => exact .finish hp

lemma Alike.move (h : Alike s t) {b' : Batcher I P F} {l : BatcherAction I P F}
    {evs : List (Event I P O F)} (hm : Batcher.Move S s.batcher l b' evs) (hl : ∀ x, l ≠ .sent x) :
    Batcher.Move (S.withSessions n) t.batcher l
      { b' with dispatchIndex := t.batcher.dispatchIndex } evs := by
  rw [h.batcher]
  exact hm.withSessions hl _

lemma queued_afterBatcher {w : ℕ} (hw : w < s.workers.length)
    (r : Batcher I P F × List (Event I P O F)) :
    (s.afterBatcher w r).queued = s.queued + r.1.outbox :=
  sum_map_modify _ _ _ (fun t => (Multiset.coe_add t.queue r.1.outbox).symm) _ _ hw

lemma hands_afterBatcher {w : ℕ} (hw : w < s.workers.length)
    (r : Batcher I P F × List (Event I P O F)) : (s.afterBatcher w r).hands = s.hands := by
  have hsum := sum_map_modify (WorkerThread.hands (F := F))
    (fun t => { t with queue := t.queue ++ r.1.outbox }) 0 (fun t => (add_zero _).symm) s.workers w hw
  rw [add_zero] at hsum
  exact hsum

lemma lt_of_accepts (h : s.accepts S = true) : s.chosen S < s.workers.length := by
  by_contra hlt
  rw [State.accepts, List.getElem?_eq_none (not_lt.1 hlt)] at h
  cases h

/-- While no worker has died each dispatch finds its worker. -/
lemma accepts_of_quiet (hs : (server S).Reachable s) (hg : s.batcher.gone = false)
    (hn : S.config.numSessions ≠ 0) (hw : s.log.any Event.workerPanic = false) :
    s.accepts S = true := by
  by_contra hacc
  rw [workerPanic_of_refused hs hg hn (by simpa using hacc)] at hw
  cases hw

/-- A batch that finds a worker here finds one there. -/
lemma Alike.dispatch (h : Alike s t) (hn' : n ≠ 0) (hs : s.accepts S = true)
    (ht : t.accepts (S.withSessions n) = true) {b' : Batcher I P F} {evs : List (Event I P O F)}
    (hm : Batcher.Move S s.batcher (.sent true) b' evs) (hn : S.config.numSessions ≠ 0) :
    ∃ t', (server (S.withSessions n)).step t (.batcher .dispatch) = some t' ∧
      Alike (s.afterBatcher (s.chosen S) (b', evs)) t' := by
  have hb := h.batcher
  cases hm with
  | divZero _ _ _ _ h0 => exact absurd h0 hn
  | leave _ hp hl => exact hl.elim
  | sent tensor responders hp _ =>
    have hp' : t.batcher.phase = .dispatching tensor responders := by
      rw [hb]
      exact hp
    have hmove : Batcher.Move (S.withSessions n) t.batcher (.sent true) _ _ :=
      .sent tensor responders hp' hn'
    rw [← ht] at hmove
    refine ⟨_, (Step.dispatch _ _ hmove).step_eq, ?_⟩
    have hmsg : t.batcher.workerMsg (S.withSessions n) tensor = s.batcher.workerMsg S tensor := by
      rw [hb]
      rfl
    refine { h with batcher := ?_, log := ?_, queued := ?_, hands := ?_ }
    · simp only [State.afterBatcher, hmsg]
      rw [hb]
    · simp only [State.afterBatcher, List.map_append, h.log]
      rfl
    · rw [queued_afterBatcher (lt_of_accepts ht), queued_afterBatcher (lt_of_accepts hs), h.queued]
      simp only [Batcher.outbox, hmsg]
    · rw [hands_afterBatcher (lt_of_accepts ht), hands_afterBatcher (lt_of_accepts hs), h.hands]

/-! ### The workers -/

section

variable {w : ℕ} {th : WorkerThread F} {msg : WorkerMessage F}

lemma queued_set (hget : s.workers[w]? = some th) (u : WorkerThread F) :
    ({ s with workers := s.workers.set w u } : State I P O F).queued + th.queue = s.queued + u.queue :=
  sum_map_set (fun t => (t.queue : Multiset (WorkerMessage F))) u hget

lemma hands_set (hget : s.workers[w]? = some th) (u : WorkerThread F) :
    ({ s with workers := s.workers.set w u } : State I P O F).hands + th.hands = s.hands + u.hands :=
  sum_map_set WorkerThread.hands u hget

lemma queued_take {rest : List (WorkerMessage F)} (hget : s.workers[w]? = some th)
    (hq : th.queue = msg :: rest) (st : WorkerState F) :
    s.queued = msg ::ₘ ({ s with workers := s.workers.set w ⟨rest, st⟩ } : State I P O F).queued := by
  have := queued_set hget ⟨rest, st⟩
  rw [hq, ← Multiset.cons_coe, Multiset.add_cons, ← Multiset.cons_add] at this
  exact (add_right_cancel this).symm

lemma hands_take (hget : s.workers[w]? = some th) (hh : th.hands = 0)
    (rest : List (WorkerMessage F)) :
    ({ s with workers := s.workers.set w ⟨rest, .processing msg⟩ } : State I P O F).hands =
      msg ::ₘ s.hands := by
  have := hands_set hget ⟨rest, .processing msg⟩
  rw [hh, add_zero] at this
  rw [this, ← Multiset.singleton_add, add_comm]
  rfl

lemma hands_answer (hget : s.workers[w]? = some th) (hst : th.state = .processing msg) :
    s.hands =
      msg ::ₘ ({ s with workers := s.workers.set w { th with state := .receiving } } :
        State I P O F).hands := by
  have := hands_set hget { th with state := .receiving }
  have hone : th.hands = {msg} := by rw [WorkerThread.hands, hst]
  have hnone : ({ th with state := .receiving } : WorkerThread F).hands = 0 := rfl
  rw [hone, hnone, add_zero] at this
  rw [← this, ← Multiset.singleton_add, add_comm]

/-- A step of a worker in which nothing is logged. -/
lemma step_worker {a : WorkerAction} {u : WorkerThread F} {rs : List (ℕ × Reply F)}
    (hget : s.workers[w]? = some th)
    (hm : WorkerThread.Move S th s.batcher.gone w a ⟨u, rs, []⟩) :
    (server S).step s (.worker w a) =
      some { s with workers := s.workers.set w u, replies := rs ++ s.replies } := by
  rw [(Step.worker w a th _ hget hm).step_eq, List.append_nil]

/-- A message in the channel of a worker gets into its hands, unless a worker has died. -/
lemma exists_takes (hs : (server S).Reachable s) (hw : s.log.any Event.workerPanic = false)
    (hmsg : msg ∈ s.queued) : ∃ ws : List (WorkerThread F),
      (server S).Reaches s { s with workers := ws } ∧
      s.queued = msg ::ₘ ({ s with workers := ws } : State I P O F).queued ∧
      ({ s with workers := ws } : State I P O F).hands = msg ::ₘ s.hands := by
  obtain ⟨th, hth, hq⟩ := mem_sum_map.1 hmsg
  obtain ⟨w, hget⟩ := List.mem_iff_getElem?.1 hth
  -- it is the only one underway, so it is the next to be taken
  have hle := (inFlight hs).card_messages_le hth
  have hone : th.queue = [msg] ∧ th.hands = 0 := by
    have hsum : th.messages = th.queue + th.hands := rfl
    rw [hsum, Multiset.card_add, Multiset.coe_card] at hle
    have hpos := List.length_pos_of_mem (Multiset.mem_coe.1 hq)
    obtain ⟨m, hm⟩ := List.length_eq_one_iff.1 (show th.queue.length = 1 by omega)
    rw [hm, Multiset.mem_coe, List.mem_singleton] at hq
    exact ⟨by rw [hm, hq], Multiset.card_eq_zero.1 (by omega)⟩
  have hreach : (server S).Reaches s
      { s with workers := s.workers.set w ⟨[], .processing msg⟩ } := by
    have htake : ∀ u : WorkerThread F, u.state = .receiving → u.queue = [msg] →
        (server S).Reaches { s with workers := s.workers.set w u }
          { s with workers := s.workers.set w ⟨[], .processing msg⟩ } := by
      intro u hst hq
      have hu : (s.workers.set w u)[w]? = some u :=
        List.getElem?_set_self (List.getElem?_eq_some_iff.1 hget).1
      refine Machine.Reaches.single (a := .worker w .take) ?_
      rw [step_worker hu (.take msg [] hst hq), List.set_set]
      rfl
    cases hst : th.state with
    | initializing =>
      refine .trans (.single (a := .worker w .init) (step_worker hget (.init hst))) ?_
      exact htake { th with state := .receiving } rfl hone.1
    | receiving =>
      have hself : s.workers.set w th = s.workers := by
        obtain ⟨hlt, rfl⟩ := List.getElem?_eq_some_iff.1 hget
        exact List.set_getElem_self hlt
      have := htake th hst hone.1
      rwa [hself] at this
    | processing m => simp [WorkerThread.hands, hst] at hone
    | ended =>
      have hnil := (worker_ended hs th hth hst).2
      simp [hnil] at hone
    | dead =>
      obtain ⟨v, hv⟩ := panic_of_dead hs th hth hst
      rw [workerPanic_of_mem hv] at hw
      cases hw
  exact ⟨_, hreach, queued_take hget hone.1 _, hands_take hget hone.2 _⟩

/-- A message in the hands of a worker is answered. -/
lemma exists_processes (hmsg : msg ∈ s.hands) {rep : Reply F} (hfor : Reply.For S msg rep)
    (hrep : rep ≠ .closed) : ∃ ws : List (WorkerThread F),
      (server S).Reaches s { s with workers := ws, replies := (msg.resultTx, rep) :: s.replies } ∧
      ({ s with workers := ws } : State I P O F).queued = s.queued ∧
      s.hands = msg ::ₘ ({ s with workers := ws } : State I P O F).hands := by
  obtain ⟨th, hth, hq⟩ := mem_sum_map.1 hmsg
  obtain ⟨w, hget⟩ := List.mem_iff_getElem?.1 hth
  have hst : th.state = .processing msg := by
    unfold WorkerThread.hands at hq
    split at hq
    · rw [Multiset.mem_singleton.1 hq]
      assumption
    · cases hq
  have hm : WorkerThread.Move S th s.batcher.gone w .process
      ⟨{ th with state := .receiving }, [(msg.resultTx, rep)], []⟩ := by
    cases rep with
    | ok outputs => exact .served msg outputs hst hfor
    | err e => exact .failed msg e hst hfor
    | closed => exact absurd rfl hrep
  refine ⟨_, .single (step_worker hget hm), ?_, hands_answer hget hst⟩
  exact add_right_cancel (queued_set hget { th with state := .receiving })

/-- A worker that keeps its messages stays alike. -/
lemma Alike.stay (h : Alike s t) (hget : s.workers[w]? = some th) {u : WorkerThread F}
    (hq : th.queue = u.queue) (hh : th.hands = u.hands) :
    Alike { s with workers := s.workers.set w u, log := s.log ++ [] } t := by
  have hqueued := queued_set hget u
  have hhands := hands_set hget u
  rw [hq] at hqueued
  rw [hh] at hhands
  refine { h with log := ?_, queued := ?_, hands := ?_ }
  · rw [List.append_nil, h.log]
  · rw [h.queued]
    exact (add_right_cancel hqueued).symm
  · rw [h.hands]
    exact (add_right_cancel hhands).symm

/-- A message taken here is taken there by the worker that has it. -/
lemma Alike.take (h : Alike s t) (ht : (server (S.withSessions n)).Reachable t)
    (hw : s.log.any Event.workerPanic = false) (hget : s.workers[w]? = some th)
    {rest : List (WorkerMessage F)} (hst : th.state = .receiving) (hq : th.queue = msg :: rest) :
    ∃ t', (server (S.withSessions n)).Reaches t t' ∧
      Alike
        { s with
          workers := s.workers.set w ⟨rest, .processing msg⟩
          log := s.log ++ [] } t' := by
  have hrest := queued_take hget hq (.processing msg)
  have hkeep : ({ s with workers := s.workers.set w ⟨rest, .processing msg⟩ } : State I P O F).hands =
      msg ::ₘ s.hands := hands_take hget (by simp [WorkerThread.hands, hst]) rest
  have hmsg : msg ∈ t.queued := by
    rw [h.queued, hrest]
    exact Multiset.mem_cons_self _ _
  have hwt : t.log.any Event.workerPanic = false := by
    rw [unplaced_workerPanic h.log]
    exact hw
  obtain ⟨ws, hreach, hq', hh'⟩ := exists_takes ht hwt hmsg
  refine ⟨_, hreach, { h with log := ?_, queued := ?_, hands := ?_ }⟩
  · rw [List.append_nil, h.log]
  · rw [h.queued, hrest] at hq'
    exact ((Multiset.cons_inj_right msg).1 hq').symm
  · rw [h.hands] at hh'
    exact hh'.trans hkeep.symm

/-- A message answered here is answered there, in the same way. -/
lemma Alike.answer (h : Alike s t) (hget : s.workers[w]? = some th)
    (hst : th.state = .processing msg) {rep : Reply F} (hfor : Reply.For S msg rep)
    (hrep : rep ≠ .closed) :
    ∃ t', (server (S.withSessions n)).Reaches t t' ∧
      Alike
        { s with
          workers := s.workers.set w { th with state := .receiving }
          replies := [(msg.resultTx, rep)] ++ s.replies
          log := s.log ++ [] } t' := by
  have hhands := hands_answer hget hst
  have hmsg : msg ∈ t.hands := by
    rw [h.hands, hhands]
    exact Multiset.mem_cons_self _ _
  obtain ⟨ws, hreach, hq, hh⟩ := exists_processes (S := S.withSessions n) hmsg hfor hrep
  refine ⟨_, hreach, { h with replies := ?_, log := ?_, queued := ?_, hands := ?_ }⟩
  · rw [h.replies]
    rfl
  · rw [List.append_nil, h.log]
  · have hqueued := add_right_cancel (queued_set hget { th with state := .receiving })
    exact hq.trans (h.queued.trans hqueued.symm)
  · rw [h.hands, hhands] at hh
    exact ((Multiset.cons_inj_right msg).1 hh).symm

/-- What a worker does here, one does there. -/
lemma Alike.worker (h : Alike s t) (hs : (server S).Reachable s)
    (ht : (server (S.withSessions n)).Reachable t) {a : WorkerAction} {r : WorkerEffect I P O F}
    (hget : s.workers[w]? = some th) (hm : th.Move S s.batcher.gone w a r)
    (hw : (s.log ++ r.events).any Event.workerPanic = false) :
    ∃ t', (server (S.withSessions n)).Reaches t t' ∧
      Alike
        { s with
          workers := s.workers.set w r.thread
          replies := r.replies ++ s.replies
          log := s.log ++ r.events } t' := by
  rw [List.any_append, Bool.or_eq_false_iff] at hw
  cases hm with
  | init hst => exact ⟨t, .refl t, h.stay hget rfl (by simp [WorkerThread.hands, hst])⟩
  | take m rest hst hq => exact h.take ht hw.1 hget hst hq
  | served m outputs hst hp => exact h.answer hget hst hp (by simp)
  | failed m e hst hp => exact h.answer hget hst hp (by simp)
  | exit hst => exact ⟨t, .refl t, h.stay hget rfl (by simp [WorkerThread.hands, hst])⟩
  | panicked => cases hw.2
  | dieIdle => cases hw.2
  | dieBusy => cases hw.2
  | discard m rest hst =>
    obtain ⟨v, hv⟩ := panic_of_dead hs th (List.mem_of_getElem? hget) hst
    rw [workerPanic_of_mem hv] at hw
    cases hw.1

end

/-! ### The pools compared -/

lemma Alike.start (S : Setup I P O F) (n : ℕ) :
    Alike (State.start S) (State.start (S.withSessions n)) := by
  refine ⟨rfl, rfl, rfl, rfl, rfl, rfl, ?_, ?_⟩ <;>
    simp [State.start, State.queued, State.hands, WorkerThread.hands]

/-- A server with one number of sessions, followed by one with another. -/
theorem pool_simulation (hn : S.config.numSessions ≠ 0) (hn' : n ≠ 0) :
    Machine.Simulation (server S) (server (S.withSessions n)) fun s t =>
      (server (S.withSessions n)).Reachable t ∧
        (s.log.any Event.workerPanic = false → Alike s t) := by
  refine ⟨⟨.start, fun _ => .start S n⟩, ?_⟩
  rintro s a s' t hs ⟨ht, hR⟩ hst
  have hstep := server_step hst
  by_cases hw' : s'.log.any Event.workerPanic = true
  · exact ⟨t, .refl t, ht, fun hw => by rw [hw'] at hw; cases hw⟩
  have hw' : s'.log.any Event.workerPanic = false := by simpa using hw'
  have hw : s.log.any Event.workerPanic = false := by
    rw [List.any_eq_false] at hw' ⊢
    exact fun e he => hw' e (hstep.log_grows.subset he)
  have h := hR hw
  have hlog : ∀ evs : List (Event I P O F),
      (t.log ++ evs).map Event.unplaced = (s.log ++ evs).map Event.unplaced := by
    intro evs
    rw [List.map_append, h.log, List.map_append]
  have hfollow : (∃ t', (server (S.withSessions n)).Reaches t t' ∧ Alike s' t') →
      ∃ t', (server (S.withSessions n)).Reaches t t' ∧
        (server (S.withSessions n)).Reachable t' ∧
          (s'.log.any Event.workerPanic = false → Alike s' t') := by
    rintro ⟨t', hreach, h'⟩
    exact ⟨t', hreach, ht.trans hreach, fun _ => h'⟩
  apply hfollow
  cases hstep with
  | client a _ hm =>
    obtain ⟨t', hm', h'⟩ := h.client hm
    exact ⟨t', .single (Step.client a t' hm').step_eq, h'⟩
  | recv cmd rest b' evs hq hm =>
    have hm' := h.move (n := n) hm (by simp)
    refine ⟨_, .single (Step.recv cmd rest _ evs (by rw [h.commandQueue]; exact hq) hm').step_eq, ?_⟩
    exact { h with commandQueue := rfl, batcher := rfl, log := hlog evs }
  | closed b' evs hq hh hm =>
    have hm' := h.move (n := n) hm (by simp)
    refine ⟨_, .single (Step.closed _ evs (by rw [h.commandQueue]; exact hq)
      (by rw [h.handles]; exact hh) hm').step_eq, ?_⟩
    exact { h with batcher := rfl, log := hlog evs }
  | dispatch b' evs hm =>
    have hacc := accepts_of_quiet hs hm.alive hn hw
    have hwt : t.log.any Event.workerPanic = false := by
      rw [unplaced_workerPanic h.log]
      exact hw
    have hacc' := accepts_of_quiet ht (h.gone.trans hm.alive) hn' hwt
    rw [hacc] at hm
    obtain ⟨t', hst', h'⟩ := h.dispatch hn' hacc hacc' hm hn
    exact ⟨t', .single hst', h'⟩
  | reply r b' evs hr hm =>
    have hm' := h.move (n := n) hm (by simp)
    have hround : t.batcher.round = s.batcher.round := by rw [h.batcher]
    refine ⟨_, .single (Step.reply r _ evs (by rw [h.replies, hround]; exact hr) hm').step_eq, ?_⟩
    refine { h with batcher := rfl, replies := ?_, log := hlog evs }
    rw [h.replies, hround]
  | turn tn b' evs hm =>
    have hm' := h.move (n := n) hm (by simp)
    exact ⟨_, .single (Step.turn tn _ evs hm').step_eq, { h with batcher := rfl, log := hlog evs }⟩
  | worker w a th r hget hm => exact h.worker hs ht hget hm hw'
  | discard cmd rest hq hg =>
    have hg' : t.batcher.gone = true := by
      rw [h.gone]
      exact hg
    refine ⟨_, .single (Step.discard cmd rest (by rw [h.commandQueue]; exact hq) hg').step_eq, ?_⟩
    exact { h with commandQueue := rfl, log := hlog _ }

/-- Every state the server reaches without losing a worker, the server with `n` sessions reaches as
well. -/
lemma exists_alike (hn : S.config.numSessions ≠ 0) (hn' : n ≠ 0) (hs : (server S).Reachable s)
    (hw : s.log.any Event.workerPanic = false) :
    ∃ t, (server (S.withSessions n)).Reachable t ∧ Alike s t := by
  obtain ⟨t, -, ht, hR⟩ := (pool_simulation hn hn').reachable hs
  exact ⟨t, ht, hR hw⟩

/-! ### A session for each worker -/

/-- The tensors a worker has been sent. -/
def sentTo (w : ℕ) (log : List (Event I P O F)) : List (ArrayD F) :=
  ((dispatches log).filter fun x => x.1 = w).map Prod.snd

/-- The server in which each worker has a session of its own, and the session a state: the worker `w`
runs `sessions w seen`, where `seen` is all it has been sent, the tensor in its hands last. -/
def pool (S : Setup I P O F) (sessions : ℕ → List (ArrayD F) → Session F) :
    Machine (State I P O F) (Action I) where
  start := .start S
  step s a :=
    match a with
    | .worker w b => s.step { S with session := sessions w (sentTo w s.log) } (.worker w b)
    | a => s.step S a

/-- What comes of a message of the server depends neither on the worker that has it, nor on what that
worker has seen. -/
def Interchangeable (S : Setup I P O F) (sessions : ℕ → List (ArrayD F) → Session F) : Prop :=
  ∀ v w seen seen' r t, processMessage S.target (sessions v seen) (S.message r t) =
    processMessage S.target (sessions w seen') (S.message r t)

/-- A worker only has messages of the server in its hands. -/
lemma exists_message {w : ℕ} {th : WorkerThread F} {msg : WorkerMessage F}
    (hs : (server S).Reachable s) (hget : s.workers[w]? = some th)
    (hst : th.state = .processing msg) : ∃ r t, msg = S.message r t := by
  have hmem : msg ∈ s.inFlight := by
    refine mem_sum_map.2 ⟨th, List.mem_of_getElem? hget, ?_⟩
    simp [WorkerThread.messages, hst]
  have hout := (inFlight hs).messages msg hmem
  have hfits := (stream hs).fits
  unfold Batcher.outbox at hout
  split at hout
  · rename_i msg' rs hp
    simp only [Batcher.Fits, hp] at hfits
    obtain ⟨-, -, ⟨t, -, rfl⟩, -⟩ := hfits
    exact ⟨s.batcher.round, t, List.mem_singleton.1 hout⟩
  · cases hout

/-- Where the server gets, sessions that are interchangeable do what one of them would do. -/
lemma pool_step {sessions : ℕ → List (ArrayD F) → Session F} (h : Interchangeable S sessions)
    (hs : (server { S with session := sessions 0 [] }).Reachable s) (a : Action I) :
    (pool S sessions).step s a = (server { S with session := sessions 0 [] }).step s a := by
  cases a with
  | worker w b =>
    simp only [pool, server, State.step, State.workerStep]
    cases hget : s.workers[w]? with
    | none => rfl
    | some th =>
      cases b with
      | process =>
        cases hst : th.state with
        | processing msg =>
          obtain ⟨r, t, rfl⟩ := exists_message hs hget hst
          have hmsg : processMessage S.target (sessions w (sentTo w s.log)) (S.message r t) =
              processMessage S.target (sessions 0 []) (S.message r t) := h w 0 _ [] r t
          simp only [WorkerThread.step, hst, Setup.message] at hmsg ⊢
          rw [hmsg]
        | _ => simp only [WorkerThread.step, hst]
      | _ => cases hst : th.state <;> simp only [WorkerThread.step, hst]
  | _ => rfl

/-- Sessions that are interchangeable may as well be one. -/
lemma pool_reachable {sessions : ℕ → List (ArrayD F) → Session F} (h : Interchangeable S sessions) :
    (pool S sessions).Reachable s ↔ (server { S with session := sessions 0 [] }).Reachable s :=
  Machine.reachable_congr rfl fun _ a hs => pool_step h hs a

/-- **The size of the pool does not show.**  Every state a server whose sessions are interchangeable
reaches without losing a worker, the server with `n` of these sessions reaches as well: with the same
calls and handles, and the same log but for the workers the batches went to. -/
theorem pool_size_invisible {sessions : ℕ → List (ArrayD F) → Session F}
    (hsame : Interchangeable S sessions) (hn : S.config.numSessions ≠ 0) (hn' : n ≠ 0)
    (hs : (pool S sessions).Reachable s) (hw : s.log.any Event.workerPanic = false) :
    ∃ t, (pool (S.withSessions n) sessions).Reachable t ∧ Alike s t := by
  have hsame' : Interchangeable (S.withSessions n) sessions := hsame
  rw [pool_reachable hsame] at hs
  obtain ⟨t, ht, h⟩ := exists_alike (S := { S with session := sessions 0 [] }) hn hn' hs hw
  exact ⟨t, (pool_reachable hsame').2 ht, h⟩

/-- Sessions that are not the same: in another output, each tells its worker, and counts what that has
seen. -/
def countingSession (w : ℕ) (seen : List (ArrayD ℕ)) : Session ℕ where
  fromArrayView _ _ := .ok ()
  run _ _ t :=
    .ok [("output", .tensor (t.shape.map Int.ofNat) t.data), ("seen", .tensor [2] [w, seen.length])]

/-- Five sessions answer the calls of the sample as its one does. -/
theorem pool_size_invisible_sample : ∃ s t : State ℕ ℕ ℕ ℕ,
    (pool sample countingSession).run (.start sample) sampleRun = some s ∧
    (pool (sample.withSessions 5) countingSession).Reachable t ∧ t.workers.length = 5 ∧
    t.calls = [⟨0, 7, .returned (.ok 7)⟩, ⟨0, 0, .returned (.error .preprocessingFailed)⟩] := by
  obtain ⟨s, hrun, hw, hcalls⟩ : ∃ s : State ℕ ℕ ℕ ℕ,
      (pool sample countingSession).run (.start sample) sampleRun = some s ∧
        s.log.any Event.workerPanic = false ∧
        s.calls = [⟨0, 7, .returned (.ok 7)⟩, ⟨0, 0, .returned (.error .preprocessingFailed)⟩] :=
    ⟨_, rfl, rfl, rfl⟩
  have hsame : Interchangeable sample countingSession := fun _ _ _ _ _ _ => rfl
  have hsame' : Interchangeable (sample.withSessions 5) countingSession := hsame
  obtain ⟨t, ht, h⟩ := pool_size_invisible (n := 5) hsame (by decide) (by decide)
    ⟨sampleRun, hrun⟩ hw
  have hlen : t.workers.length = 5 := (rota ((pool_reachable hsame').1 ht)).workers
  exact ⟨s, t, hrun, ht, hlen, h.calls.trans hcalls⟩

end OrtSuperserve

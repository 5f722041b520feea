import OrtSuperserve.Effects
import OrtSuperserve.Lib.Indexed

/-!
# The message underway

The batcher waits for the reply to each message it sends, so at any time there is at most one message
in the channels and hands of the workers, or its reply underway (`InFlight`).  A reply that arrives is
one the worker could give to the message it is for.
-/

namespace OrtSuperserve

open Lib

variable {I P O F : Type}

/-- The messages in the channel and in the hands of a worker. -/
def WorkerThread.messages (t : WorkerThread F) : Multiset (WorkerMessage F) :=
  (t.queue : Multiset (WorkerMessage F)) +
    match t.state with
    | .processing msg => {msg}
    | _ => 0

/-- A reply `process_message` can give, or the reply channel dropped. -/
def Reply.For (S : Setup I P O F) (msg : WorkerMessage F) (r : Reply F) : Prop :=
  match r with
  | .ok outputs => processMessage S.target S.session msg = .ok outputs
  | .err e => processMessage S.target S.session msg = .err e
  | .closed => True

/-- A worker that puts down the message in its hands has one message less. -/
lemma WorkerThread.messages_processing {t : WorkerThread F} {msg : WorkerMessage F}
    {st : WorkerState F} (hs : t.state = .processing msg) (hst : ∀ m, st ≠ .processing m) :
    t.messages = msg ::ₘ ({ t with state := st } : WorkerThread F).messages := by
  cases st with
  | processing m => exact absurd rfl (hst m)
  | _ => simp [WorkerThread.messages, hs, ← Multiset.singleton_add, add_comm]

/-- A worker keeps its messages, or is rid of one and answers it. -/
theorem WorkerThread.Move.messages {S : Setup I P O F} {t : WorkerThread F} {closed : Bool} {w : ℕ}
    {a : WorkerAction} {r : WorkerEffect I P O F} (h : t.Move S closed w a r) :
    (r.replies = [] ∧ t.messages = r.thread.messages) ∨
      ∃ msg rep, r.replies = [(msg.resultTx, rep)] ∧ Reply.For S msg rep ∧
        t.messages = msg ::ₘ r.thread.messages := by
  cases h with
  | init hs => exact .inl ⟨rfl, by simp [WorkerThread.messages, hs]⟩
  | take msg rest hs hq =>
    refine .inl ⟨rfl, ?_⟩
    simp [WorkerThread.messages, hs, hq, ← Multiset.cons_coe, ← Multiset.singleton_add, add_comm]
  | served msg outputs hs hm =>
    exact .inr ⟨msg, _, rfl, hm, messages_processing hs (by simp)⟩
  | failed msg e hs hm =>
    exact .inr ⟨msg, _, rfl, hm, messages_processing hs (by simp)⟩
  | panicked msg hs hm =>
    exact .inr ⟨msg, _, rfl, trivial, messages_processing hs (by simp)⟩
  | exit hs => exact .inl ⟨rfl, by simp [WorkerThread.messages, hs]⟩
  | dieIdle hs => exact .inl ⟨rfl, by rcases hs with hs | hs <;> simp [WorkerThread.messages, hs]⟩
  | dieBusy msg hs =>
    exact .inr ⟨msg, _, rfl, trivial, messages_processing hs (by simp)⟩
  | discard msg rest hs hq =>
    exact .inr ⟨msg, _, rfl, trivial, by simp [WorkerThread.messages, hs, hq]⟩

/-- The messages in the channels and hands of all workers. -/
def State.inFlight (s : State I P O F) : Multiset (WorkerMessage F) :=
  (s.workers.map WorkerThread.messages).sum

/-- The messages underway and their replies, against the message the batcher waits for. -/
structure InFlight (S : Setup I P O F) (s : State I P O F) : Prop where
  balance : s.inFlight.card + s.replies.length = s.batcher.outbox.length
  messages : ∀ msg ∈ s.inFlight, msg ∈ s.batcher.outbox
  replies : ∀ x ∈ s.replies, ∃ msg ∈ s.batcher.outbox, x.1 = msg.resultTx ∧ Reply.For S msg x.2
  resultTx : ∀ msg ∈ s.batcher.outbox, msg.resultTx = s.batcher.round

namespace Batcher

variable {S : Setup I P O F} {b b' : Batcher I P F} {a : BatcherAction I P F}
  {evs : List (Event I P O F)}

lemma length_outbox_le (b : Batcher I P F) : b.outbox.length ≤ 1 := by
  unfold outbox
  split <;> simp

/-- Only a reply takes the batcher out of its wait. -/
lemma Move.outbox_of_ne_reply (h : Move S b a b' evs) (ha : ∀ r, a ≠ .reply r) : b.outbox = [] := by
  cases h with
  | replyOk => exact absurd rfl (ha _)
  | replyFailed => exact absurd rfl (ha _)
  | finish hp => simp [outbox, hp]
  | _ => simp [outbox, *]

/-- Only a dispatch that is accepted makes it wait. -/
lemma Move.outbox_of_ne_sent (h : Move S b a b' evs) (ha : a ≠ .sent true) : b'.outbox = [] := by
  cases h with
  | sent => exact absurd rfl ha
  | finish hp => simp [outbox, nextRound]
  | more cmd hp => simp [outbox, hp]
  | _ => simp [outbox, nextRound, spawnPreprocess]

/-- The message carries the reply channel of its round. -/
lemma Move.outbox_resultTx (h : Move S b a b' evs) (ha : a = .sent true) :
    ∀ msg ∈ b'.outbox, msg.resultTx = b'.round := by
  subst ha
  cases h with
  | divZero => simp [outbox]
  | sent => simp [outbox, workerMsg]
  | leave a hp hl => exact hl.elim

end Batcher

lemma messages_push (t : WorkerThread F) (l : List (WorkerMessage F)) :
    ({ t with queue := t.queue ++ l } : WorkerThread F).messages = t.messages + l := by
  simp only [WorkerThread.messages, ← Multiset.coe_add]
  exact add_right_comm _ _ _

variable {S : Setup I P O F} {s s' : State I P O F} {a : Action I}

/-- A message goes to the chosen worker, if it is accepted. -/
lemma inFlight_afterBatcher {b' : Batcher I P F} {evs : List (Event I P O F)}
    (hm : Batcher.Move S s.batcher (.sent (s.accepts S)) b' evs) :
    (s.afterBatcher (s.chosen S) (b', evs)).inFlight = s.inFlight + b'.outbox := by
  by_cases hw : s.chosen S < s.workers.length
  · exact sum_map_modify _ _ _ (fun t => messages_push t b'.outbox) _ _ hw
  · have hacc : s.accepts S = false := by
      rw [State.accepts, List.getElem?_eq_none (not_lt.1 hw)]
      rfl
    have hout : b'.outbox = [] := hm.outbox_of_ne_sent (by rw [hacc]; simp)
    simp only [State.inFlight, State.afterBatcher, hout]
    rw [List.modify_eq_self (not_lt.1 hw)]
    simp

/-- A worker keeps the messages underway, or takes one off them and answers it. -/
lemma inFlight_worker {t : WorkerThread F} {w : ℕ} {b : WorkerAction} {r : WorkerEffect I P O F}
    (ht : s.workers[w]? = some t) (hm : t.Move S s.batcher.gone w b r) :
    (r.replies = [] ∧ s.inFlight = ((s.workers.set w r.thread).map WorkerThread.messages).sum) ∨
      ∃ msg rep, r.replies = [(msg.resultTx, rep)] ∧ Reply.For S msg rep ∧
        s.inFlight = msg ::ₘ ((s.workers.set w r.thread).map WorkerThread.messages).sum := by
  have hsum := sum_map_set WorkerThread.messages r.thread ht
  rcases hm.messages with ⟨hrep, hmsgs⟩ | ⟨msg, rep, hrep, hfor, hmsgs⟩
  · rw [hmsgs] at hsum
    exact .inl ⟨hrep, (add_right_cancel hsum).symm⟩
  · refine .inr ⟨msg, rep, hrep, hfor, ?_⟩
    rw [hmsgs, Multiset.add_cons, ← Multiset.cons_add] at hsum
    exact (add_right_cancel hsum).symm

/-- A reply that arrives is all that is underway. -/
lemma InFlight.of_lookup (h : InFlight S s) {r : Reply F}
    (hr : s.replies.lookup s.batcher.round = some r) :
    s.inFlight = 0 ∧ s.replies = [(s.batcher.round, r)] := by
  obtain ⟨l₁, l₂, hl, -⟩ := List.lookup_eq_some_iff.1 hr
  have hle := s.batcher.length_outbox_le
  have hbal := h.balance
  rw [hl, List.length_append, List.length_cons] at hbal
  have h₁ : l₁ = [] := List.length_eq_zero_iff.1 (by omega)
  have h₂ : l₂ = [] := List.length_eq_zero_iff.1 (by omega)
  refine ⟨Multiset.card_eq_zero.1 (by omega), ?_⟩
  rw [hl, h₁, h₂, List.nil_append]

lemma InFlight.start (S : Setup I P O F) : InFlight S (State.start S) := by
  refine ⟨?_, ?_, ?_, ?_⟩ <;>
    simp [State.start, State.inFlight, WorkerThread.messages, Batcher.outbox, Batcher.init]

/-- A move of the batcher that neither sends nor receives. -/
lemma InFlight.quiet {b' : Batcher I P F} {l : BatcherAction I P F} {evs : List (Event I P O F)}
    (h : InFlight S s) (hm : Batcher.Move S s.batcher l b' evs) (hr : ∀ r, l ≠ .reply r)
    (hl : l ≠ .sent true) (hb : s'.batcher = b') (hw : s'.workers = s.workers)
    (hrep : s'.replies = s.replies) : InFlight S s' := by
  have hin : s'.inFlight = s.inFlight := by rw [State.inFlight, hw, State.inFlight]
  have h₁ := hm.outbox_of_ne_reply hr
  have h₂ := hm.outbox_of_ne_sent hl
  have hbal := h.balance
  rw [h₁] at hbal
  refine ⟨?_, ?_, ?_, ?_⟩
  · rw [hin, hrep, hb, h₂, hbal]
  · rw [hin, hb, h₂, ← h₁]
    exact h.messages
  · rw [hrep, hb, h₂, ← h₁]
    exact h.replies
  · rw [hb, h₂]
    simp

lemma InFlight.step (h : InFlight S s) (hs : Step S s a s') : InFlight S s' := by
  cases hs with
  | client a _ hm =>
    obtain ⟨h₁, h₂, h₃, h₄⟩ := h
    cases hm <;> exact ⟨h₁, h₂, h₃, h₄⟩
  | recv cmd rest b' evs hq hm => exact h.quiet hm (by simp) (by simp) rfl rfl rfl
  | closed b' evs hq hh hm => exact h.quiet hm (by simp) (by simp) rfl rfl rfl
  | turn t b' evs hm => exact h.quiet hm (by simp) (by simp) rfl rfl rfl
  | discard =>
    obtain ⟨h₁, h₂, h₃, h₄⟩ := h
    exact ⟨h₁, h₂, h₃, h₄⟩
  | dispatch b' evs hm =>
    have hin := inFlight_afterBatcher hm
    have hout := hm.outbox_of_ne_reply (by simp)
    have hbal := h.balance
    rw [hout, List.length_nil, Nat.add_eq_zero_iff, Multiset.card_eq_zero] at hbal
    have hrep : s.replies = [] := List.length_eq_zero_iff.1 hbal.2
    rw [hbal.1, zero_add] at hin
    refine ⟨?_, ?_, ?_, ?_⟩
    · rw [hin]
      simp [State.afterBatcher, hrep]
    · rw [hin]
      exact fun msg hmsg => hmsg
    · simp [State.afterBatcher, hrep]
    · by_cases hacc : s.accepts S = true
      · exact hm.outbox_resultTx (by rw [hacc])
      · have : b'.outbox = [] := hm.outbox_of_ne_sent (by simpa using hacc)
        simp [State.afterBatcher, this]
  | reply r b' evs hr hm =>
    obtain ⟨hin, hrep⟩ := h.of_lookup hr
    have hout : b'.outbox = [] := hm.outbox_of_ne_sent (by simp)
    have hnil : (s.replies.eraseP fun y => y.1 == s.batcher.round) = [] := by simp [hrep]
    have hin' : (s.workers.map WorkerThread.messages).sum = 0 := hin
    refine ⟨?_, ?_, ?_, ?_⟩ <;> simp [State.inFlight, hnil, hout, hin']
  | worker w a t r ht hm =>
    have hbal := h.balance
    rcases inFlight_worker ht hm with ⟨hrep, hin⟩ | ⟨msg, rep, hrep, hfor, hin⟩
    · refine ⟨?_, ?_, ?_, h.resultTx⟩
      · rw [hin] at hbal
        simpa [State.inFlight, hrep] using hbal
      · intro m hm'
        refine h.messages m ?_
        rw [hin]
        exact hm'
      · simpa [hrep] using h.replies
    · have hmsg : msg ∈ s.batcher.outbox := by
        refine h.messages msg ?_
        rw [hin]
        exact Multiset.mem_cons_self _ _
      refine ⟨?_, ?_, ?_, h.resultTx⟩
      · rw [hin, Multiset.card_cons] at hbal
        simp only [State.inFlight, hrep, List.singleton_append, List.length_cons]
        omega
      · intro m hm'
        refine h.messages m ?_
        rw [hin]
        exact Multiset.mem_cons_of_mem hm'
      · intro x hx
        rw [hrep, List.singleton_append, List.mem_cons] at hx
        rcases hx with rfl | hx
        · exact ⟨msg, hmsg, rfl, hfor⟩
        · exact h.replies x hx

/-- **At any time at most one message is underway**, and it is the one the batcher waits for. -/
theorem inFlight (hs : (server S).Reachable s) : InFlight S s :=
  hs.invariant (InFlight.start S) fun _ _ _ _ hu hstep => hu.step (server_step hstep)

/-- The reply the batcher receives is for the message it waits for. -/
theorem InFlight.reply_for (h : InFlight S s) {msg : WorkerMessage F} {responders : List ℕ}
    {r : Reply F} (hp : s.batcher.phase = .awaiting msg responders)
    (hr : s.replies.lookup s.batcher.round = some r) : Reply.For S msg r := by
  obtain ⟨m, hm, -, hfor⟩ := h.replies (s.batcher.round, r) (by rw [(h.of_lookup hr).2]; simp)
  simp only [Batcher.outbox, hp, List.mem_singleton] at hm
  exact hm ▸ hfor

end OrtSuperserve

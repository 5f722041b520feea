import OrtSuperserve.Progress
import OrtSuperserve.Lib.Machine

/-!
# A round on its own

A round begins when a batch is collected and ends when the batcher is back at the top of its loop, or
unwinds.  `script` is what a round does, written down from the batch alone: the calls of user code,
the dispatch, and what becomes of each responder.  It fixes the events of the round but not their
order.

`roundMachine` runs the rounds of the batcher: the steps of `Batcher.step`, with the worker given as
a function of the tensor (`none` if its channel refuses the message).  Whatever order the tasks finish
in and the keys come out in, a finished round has done what the script says (`round_log`), and every
round can be finished (`round_finishes`).
-/

namespace OrtSuperserve

open Lib

variable {I P O F : Type}

/-! ### What a round does -/

section Script

variable (S : Setup I P O F) (wk : ArrayD F → Option (Reply F)) (b : Batcher I P F)
  (batch : List (Command I P))

/-- The answers to a reply. -/
def afterReply (responders : List ℕ) (r : Reply F) : List (Event I P O F) :=
  match r with
  | .ok outputs =>
    if outputs.length ≠ responders.length then sendErr .outputCountMismatch responders
    else (outputs.zip responders).flatMap fun x => Batcher.postprocessed S x.1 x.2
  | .err e => sendErr (.inferenceFailed e) responders
  | .closed => sendErr .workerChannelClosed responders

def afterDispatch (t : ArrayD F) (responders : List ℕ) : List (Event I P O F) :=
  if S.config.numSessions = 0 then .panic .batcher :: dropAll responders
  else .dispatch (b.dispatchIndex % S.config.numSessions) t ::
    match wk t with
    | none => sendErr .workerUnavailable responders
    | some r => afterReply S responders r

def afterBatch (items : List P) (responders : List ℕ) : List (Event I P O F) :=
  .batch b.round items ::
    match S.user.batch b.round items with
    | .ok t => afterDispatch S wk b t responders
    | .err e => sendErr (.batchingFailed e) responders
    | .panic => .panic .batcher :: dropAll responders

/-- What happens once all preprocessing is done. -/
def afterJoin : List (Event I P O F) :=
  sendErr .preprocessingFailed (failures S.user batch) ++
    if (survivors S.user batch).isEmpty then []
    else afterBatch S wk b ((survivors S.user batch).map Prod.snd)
      ((survivors S.user batch).map Prod.fst)

/-- The preprocessing tasks of a batch. -/
def rawTasks (batch : List (Command I P)) : List (ℕ × ℕ × I) := batch.zipIdx.filterMap rawEntry

/-- The trace a preprocessing task leaves when it ends. -/
def taskPanic (user : UserCode I P O F) (x : ℕ × ℕ × I) : List (Event I P O F) :=
  match user.preprocess x.2.1 x.2.2 with
  | .panic => [.panic (.preprocess x.2.1)]
  | _ => []

/-- The events of a round. -/
def script : List (Event I P O F) :=
  if batch.length < S.config.minBatchSize then
    sendErr .insufficientBatchSize (batch.map Command.responder)
  else
    (rawTasks batch).map (fun x => .preprocess x.2.1) ++
      ((rawTasks batch).flatMap (taskPanic S.user) ++ afterJoin S wk b batch)

/-- The events a round still has to do. -/
def due : List (Event I P O F) :=
  match b.phase with
  | .collected => script S wk b batch
  | .preprocessing j => j.preprocessTasks.flatMap (taskPanic S.user) ++ afterJoin S wk b batch
  | .batching items responders => afterBatch S wk b items responders
  | .dispatching t responders => afterDispatch S wk b t responders
  | .awaiting msg responders => (wk msg.batchedTensor).elim [] (afterReply S responders)
  | .postprocessing tasks => tasks.flatMap fun x => Batcher.postprocessed S x.1 x.2
  | _ => []

end Script

/-! ### The machine -/

inductive RoundAction where
  | dispatch
  | reply
  | turn (t : Turn)
  deriving DecidableEq

section Machine

variable (S : Setup I P O F) (wk : ArrayD F → Option (Reply F))

/-- The label of the batcher that an action of the round stands for. -/
def RoundAction.label (b : Batcher I P F) (a : RoundAction) : Option (BatcherAction I P F) :=
  match a, b.phase with
  | .dispatch, .dispatching t _ => some (.sent (wk t).isSome)
  | .reply, .awaiting msg _ => (wk msg.batchedTensor).map .reply
  | .turn t, _ => some (.turn t)
  | _, _ => none

/-- A round from `b` on; the second component is the log. -/
def roundMachine (b : Batcher I P F) :
    Machine (Batcher I P F × List (Event I P O F)) RoundAction where
  start := (b, [])
  step x a :=
    if x.1.inRound then
      (a.label wk x.1).bind fun l => (x.1.step S l).map fun y => (y.1, x.2 ++ y.2)
    else none

/-- `b` has just collected `batch`. -/
structure Batcher.Collected (config : ServerConfig) (batch : List (Command I P))
    (b : Batcher I P F) : Prop where
  phase : b.phase = .collected
  buffer : b.batchBuffer = batch
  pos : 1 ≤ batch.length
  max : batch.length ≤ config.roundSize

/-- `log` is what a finished round from `b` on did, ending in `b'`. -/
def Round (b : Batcher I P F) (log : List (Event I P O F)) (b' : Batcher I P F) : Prop :=
  (roundMachine S wk b).Reachable (b', log) ∧ b'.inRound = false

end Machine

/-- A worker function: the identity model, row by row. -/
def rowsWorker (t : ArrayD ℕ) : Option (Reply ℕ) := some (.ok t.rows)

namespace Batcher

variable {S : Setup I P O F} {wk : ArrayD F → Option (Reply F)} {batch : List (Command I P)}
  {b b' : Batcher I P F} {a : BatcherAction I P F} {evs log : List (Event I P O F)}

/-- The reply a round can receive. -/
def Gives (wk : ArrayD F → Option (Reply F)) (msg : WorkerMessage F) (r : Reply F) : Prop :=
  wk msg.batchedTensor = some r

/-- A label that agrees with the worker function. -/
def Agrees (wk : ArrayD F → Option (Reply F)) (b : Batcher I P F) (a : BatcherAction I P F) : Prop :=
  (∀ t responders accepted, b.phase = .dispatching t responders → a = .sent accepted →
    accepted = (wk t).isSome) ∧
  ∀ msg responders r, b.phase = .awaiting msg responders → a = .reply r → Gives wk msg r

lemma agrees_label {x : RoundAction} (h : x.label wk b = some a) : Agrees wk b a := by
  unfold RoundAction.label at h
  split at h
  · obtain rfl := Option.some.inj h
    refine ⟨?_, fun msg rs r _ ha => by cases ha⟩
    intro t rs acc hp ha
    simp_all
  · obtain ⟨r', hr', rfl⟩ := Option.map_eq_some_iff.1 h
    refine ⟨fun t rs acc _ ha => (by cases ha), ?_⟩
    intro msg rs r hp ha
    simp_all [Gives]
  · obtain rfl := Option.some.inj h
    exact ⟨fun t rs acc _ ha => (by cases ha), fun msg rs r _ ha => by cases ha⟩
  · cases h

/-! ### One step of a round -/

lemma taskPanic_perm {tasks : List (ℕ × ℕ × I)} {k : ℕ} {x : ℕ × ℕ × I} (hk : tasks[k]? = some x) :
    (taskPanic S.user x ++ (tasks.eraseIdx k).flatMap (taskPanic S.user)).Perm
      (tasks.flatMap (taskPanic S.user)) := by
  obtain ⟨hlt, rfl⟩ := List.getElem?_eq_some_iff.1 hk
  exact (List.getElem_cons_eraseIdx_perm hlt).flatMap_right _

/-- **What a step does and what is due after it is what was due before.** -/
theorem Move.due_perm (h : Move S b a b' evs) (hf : b.Fits S (Gives wk) batch) (hb : b.inRound = true)
    (ha : Agrees wk b a) : (evs ++ due S wk b' batch).Perm (due S wk b batch) := by
  cases h with
  | overflow hp => simp [inRound, hp] at hb
  | start hp => simp [inRound, hp] at hb
  | first cmd hp => simp [inRound, hp] at hb
  | stop hp => simp [inRound, hp] at hb
  | more cmd hp => simp [inRound, hp] at hb
  | leave a hp => simp [inRound, hp] at hb
  | empty hp h =>
    simp only [Fits, hp, h] at hf
    obtain ⟨rfl, hpos, -⟩ := hf
    simp at hpos
  | short hp hne hlt =>
    simp only [Fits, hp] at hf
    obtain ⟨rfl, -, -⟩ := hf
    simp [due, nextRound, hp, script, hlt]
  | spawn hp hne hle =>
    simp only [Fits, hp] at hf
    obtain ⟨rfl, -, -⟩ := hf
    simp only [due, hp, script, if_neg (not_lt.2 hle), spawnPreprocess, splitBatch_eq]
    exact List.Perm.refl _
  | joinOk j k idx call input item hp hk h =>
    have hperm := taskPanic_perm (S := S) hk
    simp only [taskPanic, h] at hperm
    simp only [due, hp]
    exact hperm.append_right _
  | joinErr j k idx call input e hp hk h =>
    have hperm := taskPanic_perm (S := S) hk
    simp only [taskPanic, h] at hperm
    simp only [due, hp]
    exact hperm.append_right _
  | joinPanic j k idx call input hp hk h =>
    have hperm := taskPanic_perm (S := S) hk
    simp only [taskPanic, h] at hperm
    simp only [due, hp]
    exact hperm.append_right _
  | filterNone j keys hp ht hk h =>
    simp only [Fits, hp] at hf
    obtain ⟨-, -, hj⟩ := hf
    have hnil : survivors S.user batch = [] := by
      rw [hj.items ht] at h
      exact List.map_eq_nil_iff.1 h
    rw [hj.kept ht hk, hj.failed ht hk, hnil]
    simp [due, nextRound, hp, ht, afterJoin, hnil, dropAll]
  | filterSome j keys hp ht hk h =>
    simp only [Fits, hp] at hf
    obtain ⟨-, -, hj⟩ := hf
    have hitems := hj.items ht
    have hne : survivors S.user batch ≠ [] := fun hnil => h (by rw [hitems, hnil, List.map_nil])
    rw [hj.kept ht hk, hj.failed ht hk, hitems]
    simp [due, hp, ht, afterJoin, hne, afterBatch, afterDispatch]
  | batchOk items rs t hp h => simp [due, hp, afterBatch, h, afterDispatch]
  | batchErr items rs e hp h => simp [due, nextRound, hp, afterBatch, h]
  | batchPanic items rs hp h => simp [due, hp, afterBatch, h]
  | divZero t rs accepted hp h => simp [due, hp, afterDispatch, h]
  | sent t rs hp h =>
    have hacc := ha.1 t rs true hp rfl
    obtain ⟨r, hr⟩ := Option.isSome_iff_exists.1 hacc.symm
    simp [due, hp, afterDispatch, h, workerMsg, hr]
  | refused t rs hp h =>
    have hacc := ha.1 t rs false hp rfl
    have hnone : wk t = none := by simpa using hacc.symm
    simp [due, nextRound, hp, afterDispatch, h, hnone]
  | replyOk msg rs outputs hp h =>
    have hgive : wk msg.batchedTensor = _ := ha.2 msg rs _ hp rfl
    simp [due, hp, hgive, afterReply, h]
  | replyFailed msg rs r e hp h =>
    have hgive : wk msg.batchedTensor = _ := ha.2 msg rs _ hp rfl
    cases r with
    | ok outputs =>
      obtain ⟨hlen, rfl⟩ := h
      simp [due, nextRound, hp, hgive, afterReply, hlen]
    | err t =>
      obtain rfl := h
      simp [due, nextRound, hp, hgive, afterReply]
    | closed =>
      obtain rfl := h
      simp [due, nextRound, hp, hgive, afterReply]
  | post tasks k rawOutput c hp hk =>
    obtain ⟨hlt, he⟩ := List.getElem?_eq_some_iff.1 hk
    have hperm := (List.getElem_cons_eraseIdx_perm hlt).flatMap_right
      fun x => postprocessed S x.1 x.2
    rw [he, List.flatMap_cons] at hperm
    simpa only [due, hp] using hperm
  | finish hp => simp [due, nextRound, hp]

end Batcher

/-! ### Whole rounds -/

section Rounds

variable {S : Setup I P O F} {wk : ArrayD F → Option (Reply F)} {b : Batcher I P F}
  {batch : List (Command I P)}

/-- What holds during a round. -/
structure RoundInv (S : Setup I P O F) (wk : ArrayD F → Option (Reply F)) (b : Batcher I P F)
    (batch : List (Command I P)) (x : Batcher I P F × List (Event I P O F)) : Prop where
  fits : x.1.Fits S (Batcher.Gives wk) batch
  log : (x.2 ++ due S wk x.1 batch).Perm (script S wk b batch)
  sent : ∀ msg responders, x.1.phase = .awaiting msg responders → ∃ r, wk msg.batchedTensor = some r

/-- A step of the round is a move that agrees with the worker function. -/
lemma roundMachine_step {x y : Batcher I P F × List (Event I P O F)} {a : RoundAction}
    (h : (roundMachine S wk b).step x a = some y) :
    ∃ l evs, Batcher.Move S x.1 l y.1 evs ∧ y.2 = x.2 ++ evs ∧ x.1.inRound = true ∧
      Batcher.Agrees wk x.1 l := by
  simp only [roundMachine] at h
  split at h
  · obtain ⟨l, hl, hy⟩ := Option.bind_eq_some_iff.1 h
    obtain ⟨⟨b', evs⟩, hst, rfl⟩ := Option.map_eq_some_iff.1 hy
    exact ⟨l, evs, Batcher.step_move hst, rfl, ‹_›, Batcher.agrees_label hl⟩
  · cases h

/-- The receiver of a round's reply waits only after its message was taken. -/
lemma Batcher.Move.sent_isSome {b b' : Batcher I P F} {a : BatcherAction I P F}
    {evs : List (Event I P O F)} {msg : WorkerMessage F} {rs : List ℕ} (h : Batcher.Move S b a b' evs)
    (ha : Batcher.Agrees wk b a) (hb : b'.phase = .awaiting msg rs) :
    ∃ r, wk msg.batchedTensor = some r := by
  cases h with
  | sent t rs' hp =>
    obtain ⟨rfl, -⟩ := Phase.awaiting.inj hb
    exact Option.isSome_iff_exists.1 (ha.1 t rs' true hp rfl).symm
  | more cmd hp => simp [hp] at hb
  | _ => simp [Batcher.nextRound, Batcher.spawnPreprocess] at hb

lemma RoundInv.start (hb : b.Collected S.config batch) : RoundInv S wk b batch (b, []) := by
  refine ⟨?_, ?_, ?_⟩
  · simp only [Batcher.Fits, hb.phase]
    exact ⟨hb.buffer, hb.pos, hb.max⟩
  · simp [due, hb.phase]
  · intro msg rs h
    rw [hb.phase] at h
    cases h

lemma RoundInv.step {x y : Batcher I P F × List (Event I P O F)} {a : RoundAction}
    (hx : RoundInv S wk b batch x) (h : (roundMachine S wk b).step x a = some y) :
    RoundInv S wk b batch y := by
  obtain ⟨l, evs, hm, hlog, hin, hag⟩ := roundMachine_step h
  refine ⟨?_, ?_, fun msg rs hp => hm.sent_isSome hag hp⟩
  · have := hx.fits.move hm hag.2
    rwa [currentBatch, hm.collected_eq hin] at this
  · rw [hlog, List.append_assoc]
    exact ((hm.due_perm hx.fits hin hag).append_left _).trans hx.log

lemma RoundInv.reachable {x : Batcher I P F × List (Event I P O F)}
    (hb : b.Collected S.config batch) (h : (roundMachine S wk b).Reachable x) :
    RoundInv S wk b batch x :=
  h.invariant (RoundInv.start hb) fun _ _ _ _ hu hs => hu.step hs

/-- **A finished round did what the script says**, in some order. -/
theorem round_log (hb : b.Collected S.config batch) {log : List (Event I P O F)}
    {b' : Batcher I P F} (h : Round S wk b log b') : log.Perm (script S wk b batch) := by
  have hlog := (RoundInv.reachable hb h.1).log
  have hdue : due S wk b' batch = [] := by
    have hin := h.2
    unfold Batcher.inRound at hin
    unfold due
    split at hin <;> simp_all
  rwa [hdue, List.append_nil] at hlog

/-- In a round there is always a next step. -/
lemma RoundInv.enabled {x : Batcher I P F × List (Event I P O F)} (hx : RoundInv S wk b batch x)
    (hin : x.1.inRound = true) : ∃ a y, (roundMachine S wk b).step x a = some y := by
  have hstep : ∀ (c : RoundAction) (l : BatcherAction I P F) z, c.label wk x.1 = some l →
      x.1.step S l = some z → ∃ a y, (roundMachine S wk b).step x a = some y := fun c l z hl hz =>
    ⟨c, (z.1, x.2 ++ z.2), by simp [roundMachine, hin, hl, hz]⟩
  by_cases hd : ∃ t rs, x.1.phase = .dispatching t rs
  · obtain ⟨t, rs, hp⟩ := hd
    exact hstep .dispatch _ _ (by simp only [RoundAction.label, hp])
      (Batcher.step_sent hp (wk t).isSome)
  by_cases hw : ∃ msg rs, x.1.phase = .awaiting msg rs
  · obtain ⟨msg, rs, hp⟩ := hw
    obtain ⟨r, hr⟩ := hx.sent msg rs hp
    exact hstep .reply _ _ (by simp only [RoundAction.label, hp, hr]; rfl) (Batcher.step_reply hp r)
  · push Not at hd hw
    obtain ⟨t, b', evs, hst⟩ := Batcher.exists_turn (S := S) hin hd hw
    exact hstep (.turn t) _ _ (by simp [RoundAction.label]) hst

/-- **A round can always be finished.** -/
theorem round_finishes (hb : b.Collected S.config batch)
    {x : Batcher I P F × List (Event I P O F)} (h : (roundMachine S wk b).Reachable x) :
    ∃ y, (roundMachine S wk b).Reaches x y ∧ y.1.inRound = false := by
  generalize hn : x.1.work S.config.roundSize = n
  induction n using Nat.strong_induction_on generalizing x with
  | _ n ih =>
    by_cases hin : x.1.inRound = true
    · have hx := RoundInv.reachable hb h
      obtain ⟨a, y, hst⟩ := hx.enabled hin
      obtain ⟨l, evs, hm, -, -, -⟩ := roundMachine_step hst
      have hlt := hm.work_lt hx.fits (hm.collected_eq hin)
      obtain ⟨z, hz, hfin⟩ := ih _ (by omega) (h.tail hst) rfl
      exact ⟨z, (Machine.Reaches.single hst).trans hz, hfin⟩
    · exact ⟨x, .refl _, by simpa using hin⟩

/-- Every collected batch has a finished round. -/
lemma exists_round (S : Setup I P O F) (wk : ArrayD F → Option (Reply F))
    (hb : b.Collected S.config batch) : ∃ log b', Round S wk b log b' := by
  have hstart : (roundMachine S wk b).Reachable (b, []) := Machine.Reachable.start
  obtain ⟨⟨b', log⟩, hreach, hfin⟩ := round_finishes hb hstart
  exact ⟨log, b', hreach, hfin⟩

end Rounds

end OrtSuperserve

import OrtSuperserve.Calls

/-!
# What a caller is answered, and how often

* `no_cross_talk`: a call that returns `Ok` has the postprocessed row of its own input, whoever shared
  the batch;
* `ledger`: the responders accepted are those used up, held by the batcher, or queued;
* `answered_exactly_once`: while the batcher does not unwind, each responder is in one place, and at
  the top of the loop every command received has been answered, unless its own postprocessing
  panicked.
-/

namespace OrtSuperserve

open Lib

variable {I P O F : Type} {S : Setup I P O F} {s s' : State I P O F} {a : Action I}

/-! ### Whose result it is -/

/-- A survivor of a collected batch is the preprocessed input of a call. -/
lemma Calls.survivor (h : Calls S s) (hst : Stream S s) {r c : ℕ} {batch : List (Command I P)} {p : P}
    (hb : (collected s.log)[r]? = some batch) (hp : (c, p) ∈ survivors S.user batch) :
    ∃ cmd call, cmd ∈ batch ∧ cmd.responder = c ∧ s.calls[c]? = some call ∧
      S.user.preprocess c call.input = .ok p := by
  obtain ⟨cmd, hcmd, rfl, hitem⟩ := mem_survivors.1 hp
  have hacc : cmd ∈ accepted s.log :=
    (collected_prefix_accepted hst).subset (List.mem_flatten.2 ⟨batch, List.mem_of_getElem? hb, hcmd⟩)
  obtain ⟨call, hc, -, hprep⟩ := h.sent cmd hacc
  exact ⟨cmd, call, hcmd, rfl, hc, (item_of_prepare hprep).1 hitem⟩

/-- The `Ok` a call returns was sent on its responder. -/
lemma Calls.answered_ok (h : Calls S s) {c : ℕ} {call : Call I P O} {o : O}
    (hc : s.calls[c]? = some call) (hr : call.state = .returned (.ok o)) :
    (c, .answered (.ok o)) ∈ fates s.log := by
  rcases (h.calls c call hc).returned _ hr with ⟨fate, hf, he⟩ | ⟨-, he⟩ | ⟨e, -, -, he⟩
  · cases fate with
    | answered response =>
      obtain rfl : .ok o = response := he
      exact hf
    | dropped => cases he
  · cases he
  · cases he

/-- **No cross-talk.**  If the call that submitted `x` returns `Ok(o)`, then `x` was in a batch whose
survivors went to `I::batch` in arrival order, with `preprocess(x)` at the position `k` of `x`, and `o`
is the postprocessed row `k` of the output tensor of that batch.  So with a batch function that stacks
and a model that acts row by row, `o` is `postprocess(f(preprocess(x)))`. -/
theorem no_cross_talk (hs : (server S).Reachable s) {c : ℕ} {call : Call I P O} {o : O}
    (hc : s.calls[c]? = some call) (hr : call.state = .returned (.ok o)) :
    (∃ (r : ℕ) (batch : List (Command I P)) (k : ℕ) (p : P) (t out row : ArrayD F),
      (collected s.log)[r]? = some batch ∧ (∃ cmd ∈ batch, cmd.responder = c) ∧
      (survivors S.user batch)[k]? = some (c, p) ∧ S.user.preprocess c call.input = .ok p ∧
      (r, (survivors S.user batch).map Prod.snd) ∈ batchCalls s.log ∧
      S.user.batch r ((survivors S.user batch).map Prod.snd) = .ok t ∧
      OutputTensor S.target S.session ⟨t, S.inputName, S.outputName, r⟩ out ∧
      out.rows.length = (survivors S.user batch).length ∧ out.rows[k]? = some row ∧
      S.user.postprocess c row = .ok o) ∧
    ∀ (row : P → ArrayD F) (f : ArrayD F → ArrayD F),
      (∀ r items t, S.user.batch r items = .ok t → t.rows = items.map row) →
      (∀ msg out, OutputTensor S.target S.session msg out →
        out.rows = msg.batchedTensor.rows.map f) →
      ∃ p, S.user.preprocess c call.input = .ok p ∧ S.user.postprocess c (f (row p)) = .ok o := by
  have hcalls := calls hs
  obtain ⟨r, batch, row, hcalled, ⟨t, outputs, k, p, hbatch, hfor, hlen, hk, hrow⟩, hpost⟩ :=
    (history hs).fate c _ (hcalls.answered_ok hc hr)
  obtain ⟨out, hout, rfl⟩ := processMessage_ok hfor
  obtain ⟨cmd, call', hcmd, hresp, hc', hpre⟩ :=
    hcalls.survivor (stream hs) hcalled.index (List.mem_of_getElem? hk)
  obtain rfl : call = call' := Option.some.inj (hc.symm.trans hc')
  refine ⟨⟨r, batch, k, p, t, out, row, hcalled.index, ⟨cmd, hcmd, hresp⟩, hk, hpre, hcalled.call,
    hbatch.batch, hout, hlen, hrow, hpost⟩, fun g f hg hf => ⟨p, hpre, ?_⟩⟩
  -- row `k` of the output is `f` of row `k` of the input, which is the `k`-th item
  have hitem : ((survivors S.user batch).map Prod.snd)[k]? = some p := by
    rw [List.getElem?_map, hk]
    rfl
  rw [hf _ _ hout, hg _ _ _ hbatch.batch, List.getElem?_map, List.getElem?_map, hitem] at hrow
  obtain rfl : f (g p) = row := Option.some.inj hrow
  exact hpost

/-- One worker is ready, two clients call `infer` with `7` and `0`, and a batch of both goes through
the server. -/
def sampleRun : List (Action ℕ) :=
  [.batcher (.turn .start), .worker 0 .init,
    .client (.infer 0 7), .client (.prepare 0), .client (.send 0),
    .client (.infer 0 0), .client (.prepare 1), .client (.send 1),
    .batcher .recv, .batcher .recv, .batcher (.turn .full), .batcher (.turn .check),
    .batcher (.turn (.preprocessed 1)), .batcher (.turn (.preprocessed 0)),
    .batcher (.turn (.filter [0])), .batcher (.turn .batch), .batcher .dispatch,
    .worker 0 .take, .worker 0 .process, .batcher .reply, .batcher (.turn (.postprocessed 0)),
    .batcher (.turn .finish), .client (.receive 0), .client (.receive 1)]

/-- In the sample, `7` shares its batch with `0`, whose preprocessing fails, and gets `7`. -/
theorem no_cross_talk_sample :
    ∃ s : State ℕ ℕ ℕ ℕ, (server sample).run (.start sample) sampleRun = some s ∧
      ∃ call : Call ℕ ℕ ℕ, s.calls[0]? = some call ∧ call.input = 7 ∧
      call.state = .returned (.ok 7) ∧
      ∃ p, sample.user.preprocess 0 call.input = .ok p ∧
        sample.user.postprocess 0 (id (single p)) = .ok 7 := by
  obtain ⟨s, hrun, call, hc, hin, hst⟩ : ∃ s : State ℕ ℕ ℕ ℕ,
      (server sample).run (.start sample) sampleRun = some s ∧ ∃ call : Call ℕ ℕ ℕ,
        s.calls[0]? = some call ∧ call.input = 7 ∧ call.state = .returned (.ok 7) :=
    ⟨_, rfl, _, rfl, rfl, rfl⟩
  refine ⟨s, hrun, call, hc, hin, hst, (no_cross_talk ⟨sampleRun, hrun⟩ hc hst).2 single id ?_ ?_⟩
  · exact fun r items t h => rows_sampleBatch h
  · intro msg out h
    rw [outputTensor_identity (by decide) h, List.map_id]

/-! ### Where a responder is -/

/-- A value, not a drop. -/
def Fate.isAnswer : Fate O → Bool
  | .answered _ => true
  | .dropped => false

/-- The responders of the batch being processed. -/
def Phase.batchResponders : Phase I P F → List ℕ
  | .preprocessing j => j.responders
  | .batching _ responders => responders
  | .dispatching _ responders => responders
  | .awaiting _ responders => responders
  | _ => []

/-- The responders of the running postprocessing tasks. -/
def Phase.taskResponders : Phase I P F → List ℕ
  | .postprocessing tasks => tasks.map Prod.snd
  | _ => []

namespace State

/-- How often the responder `c` is in the command queue. -/
def inQueue (s : State I P O F) (c : ℕ) : ℕ := (s.commandQueue.map Command.responder).count c

/-- How often it is in `batch_buffer`. -/
def inBuffer (s : State I P O F) (c : ℕ) : ℕ := (s.batcher.batchBuffer.map Command.responder).count c

/-- How often it is in the batch being processed. -/
def inBatch (s : State I P O F) (c : ℕ) : ℕ := s.batcher.phase.batchResponders.count c

/-- How often it is in a running postprocessing task. -/
def inTasks (s : State I P O F) (c : ℕ) : ℕ := s.batcher.phase.taskResponders.count c

/-- How many values were sent on it. -/
def answers (s : State I P O F) (c : ℕ) : ℕ := (fates s.log).countP fun x => x.1 == c && x.2.isAnswer

/-- How often it was dropped. -/
def drops (s : State I P O F) (c : ℕ) : ℕ := (fates s.log).countP fun x => x.1 == c && !x.2.isAnswer

end State

lemma count_responders (φ : Phase I P F) (c : ℕ) :
    φ.responders.count c = φ.batchResponders.count c + φ.taskResponders.count c := by
  cases φ <;> simp [Phase.responders, Phase.batchResponders, Phase.taskResponders]

lemma count_fates (s : State I P O F) (c : ℕ) :
    ((fates s.log).map Prod.fst).count c = s.answers c + s.drops c := by
  unfold State.answers State.drops
  induction fates s.log with
  | nil => rfl
  | cons x l ih =>
    obtain ⟨d, y⟩ := x
    simp only [List.map_cons, List.count_cons, List.countP_cons, ih]
    cases hd : d == c <;> cases y <;> simp [Fate.isAnswer] <;> omega

/-- The responder `c` was accepted as often as it was used up, is held by the batcher, or is queued. -/
def State.Balanced (c : ℕ) (s : State I P O F) : Prop :=
  s.responders.count c =
    ((fates s.log).map Prod.fst).count c + s.batcher.held.count c + s.inQueue c

lemma Step.balanced (h : Step S s a s') {c : ℕ} (hs : s.Balanced c) : s'.Balanced c := by
  unfold State.Balanced State.responders State.inQueue at hs ⊢
  cases h.effect with
  | batcher l evs move log queue =>
    have hperm := move.ledger.count_eq c
    rw [queue] at hs
    simp only [log, accepted_append, fates_append, move.accepted_eq, List.append_nil,
      List.map_append, List.count_append] at hperm hs ⊢
    omega
  | accepted cmd batcher alive log queue =>
    have hacc : accepted ([.accepted cmd] : List (Event I P O F)) = [cmd] := rfl
    have hfates : fates ([.accepted cmd] : List (Event I P O F)) = [] := rfl
    rw [log, queue, batcher, accepted_append, fates_append, hacc, hfates, List.append_nil,
      List.map_append, List.map_append, List.count_append, List.count_append]
    omega
  | dropped cmd batcher gone log queue =>
    have hacc : accepted ([.drop cmd.responder] : List (Event I P O F)) = [] := rfl
    have hfates : fates ([.drop cmd.responder] : List (Event I P O F)) =
      [(cmd.responder, .dropped)] := rfl
    rw [queue, List.map_cons, List.count_cons] at hs
    rw [log, batcher, accepted_append, fates_append, hacc, hfates, List.append_nil,
      List.map_append, List.count_append, List.map_singleton, List.count_singleton]
    simp only
    omega
  | quiet evs batcher quiet log queue =>
    rw [log, queue, batcher, accepted_append, fates_append, quiet.accepted_eq, quiet.fates_eq,
      List.append_nil, List.append_nil]
    exact hs

lemma balanced (hs : (server S).Reachable s) (c : ℕ) : s.Balanced c := by
  refine hs.invariant (P := State.Balanced c) ?_ fun _ _ _ _ hu hst => (server_step hst).balanced hu
  simp [server, State.start, State.Balanced, State.responders, State.inQueue, Batcher.held,
    Batcher.init, Phase.responders]

/-- **The ledger.**  The responders accepted are those used up, held by the batcher, or queued. -/
theorem ledger (hs : (server S).Reachable s) (c : ℕ) :
    s.responders.count c =
      s.inQueue c + s.inBuffer c + s.inBatch c + s.inTasks c + s.answers c + s.drops c := by
  have hbal : s.responders.count c = ((fates s.log).map Prod.fst).count c +
      s.batcher.held.count c + s.inQueue c := balanced hs c
  rw [hbal, count_fates, Batcher.held, List.count_append, count_responders]
  unfold State.inBuffer State.inBatch State.inTasks
  omega

/-- A responder is used up or held, and once. -/
lemma responders_nodup (hs : (server S).Reachable s) :
    ((fates s.log).map Prod.fst ++ s.batcher.held).Nodup := by
  rw [List.nodup_iff_count_le_one]
  intro c
  have hbal : s.responders.count c = ((fates s.log).map Prod.fst).count c +
      s.batcher.held.count c + s.inQueue c := balanced hs c
  have hone : s.responders.count c ≤ 1 := List.nodup_iff_count_le_one.1 (calls hs).nodup c
  rw [List.count_append]
  omega

lemma fates_nodup (hs : (server S).Reachable s) : ((fates s.log).map Prod.fst).Nodup :=
  (responders_nodup hs).of_append_left

lemma held_nodup (hs : (server S).Reachable s) : s.batcher.held.Nodup :=
  (responders_nodup hs).of_append_right

/-! ### Answered exactly once -/

/-- While the batcher does not unwind, a responder is dropped by its own postprocessing only. -/
lemma History.dropped (h : History S s) (hp : s.batcher.phase ≠ .panicked) {c : ℕ}
    (hc : (c, .dropped) ∈ fates s.log) :
    ∃ row, (c, row) ∈ postprocessCalls s.log ∧ S.user.postprocess c row = .panic :=
  (h.fate c _ hc).resolve_left hp

lemma mem_fates_of_drops {c : ℕ} (h : 0 < s.drops c) : (c, .dropped) ∈ fates s.log := by
  obtain ⟨⟨d, x⟩, hm, hx⟩ := List.countP_pos_iff.1 h
  rw [Bool.and_eq_true, beq_iff_eq] at hx
  obtain ⟨rfl, hx⟩ := hx
  cases x with
  | answered r => cases hx
  | dropped => exact hm

/-- The channel closes under a call whose responder was dropped, and no other. -/
lemma Calls.closed (h : Calls S s) (hh : History S s) {c : ℕ} {call : Call I P O}
    (hc : s.calls[c]? = some call) (hr : call.state = .returned (.error .responseChannelClosed)) :
    (c, .dropped) ∈ fates s.log := by
  rcases (h.calls c call hc).returned _ hr with ⟨fate, hf, he⟩ | ⟨-, he⟩ | ⟨e, -, -, he⟩
  · cases fate with
    | answered response =>
      obtain rfl : .error .responseChannelClosed = response := he
      exact absurd (hh.fate c _ hf) (by simp [Reason, Error.sentByBatcher])
    | dropped => exact hf
  · cases he
  · cases he

/-- A command received is not in the channel any more. -/
lemma inQueue_of_received (h : Calls S s) (hst : Stream S s) (hp : s.batcher.phase ≠ .panicked)
    {cmd : Command I P} (hm : cmd ∈ received s.log) : s.inQueue cmd.responder = 0 := by
  have hnd := h.nodup
  rw [State.responders, hst.accepted_eq hp, List.map_append, List.nodup_append'] at hnd
  exact List.count_eq_zero.2 fun hq => hnd.2.2 (List.mem_map_of_mem hm) hq

/-- **Every accepted request is answered exactly once.**  While the batcher does not unwind, the
responder of each command accepted is in exactly one place: the command queue, the buffer, the batch
in hand, a running postprocessing task, answered, or dropped, and then by its own postprocessing that
panicked.  At the top of the loop the buffer is empty, and each command received has had one value
sent on its responder unless its own postprocessing panicked; so that is the only reason for
"Response channel closed". -/
theorem answered_exactly_once (hs : (server S).Reachable s) (hp : s.batcher.phase ≠ .panicked) :
    (∀ cmd ∈ accepted s.log, s.inQueue cmd.responder + s.inBuffer cmd.responder +
      s.inBatch cmd.responder + s.inTasks cmd.responder + s.answers cmd.responder +
      s.drops cmd.responder = 1) ∧
    (∀ c, 0 < s.drops c →
      ∃ row, (c, row) ∈ postprocessCalls s.log ∧ S.user.postprocess c row = .panic) ∧
    (s.batcher.phase = .head → s.batcher.batchBuffer = [] ∧ ∀ cmd ∈ received s.log,
      s.answers cmd.responder = 1 ∨ s.answers cmd.responder = 0 ∧
        ∃ row, (cmd.responder, row) ∈ postprocessCalls s.log ∧
          S.user.postprocess cmd.responder row = .panic) ∧
    ∀ c call, s.calls[c]? = some call → call.state = .returned (.error .responseChannelClosed) →
      ∃ row, (c, row) ∈ postprocessCalls s.log ∧ S.user.postprocess c row = .panic := by
  have hcalls := calls hs
  have hhist := history hs
  have hst := stream hs
  have hplaces : ∀ cmd ∈ accepted s.log, s.inQueue cmd.responder + s.inBuffer cmd.responder +
      s.inBatch cmd.responder + s.inTasks cmd.responder + s.answers cmd.responder +
      s.drops cmd.responder = 1 := fun cmd hm => by
    rw [← ledger hs]
    exact List.count_eq_one_of_mem hcalls.nodup (List.mem_map_of_mem hm)
  refine ⟨hplaces, fun c hc => hhist.dropped hp (mem_fates_of_drops hc), ?_,
    fun c call hc hr => hhist.dropped hp (hcalls.closed hhist hc hr)⟩
  intro hhead
  have hbuf : s.batcher.batchBuffer = [] := by simpa only [Batcher.Fits, hhead] using hst.fits
  refine ⟨hbuf, ?_⟩
  intro cmd hm
  have hacc : cmd ∈ accepted s.log := by
    rw [hst.accepted_eq hp]
    exact List.mem_append_left _ hm
  have hone := hplaces cmd hacc
  rw [inQueue_of_received hcalls hst hp hm] at hone
  have hnone : s.inBuffer cmd.responder = 0 ∧ s.inBatch cmd.responder = 0 ∧
      s.inTasks cmd.responder = 0 := by
    simp [State.inBuffer, State.inBatch, State.inTasks, hbuf, hhead, Phase.batchResponders,
      Phase.taskResponders]
  obtain ⟨h₁, h₂, h₃⟩ := hnone
  rcases Nat.eq_zero_or_pos (s.drops cmd.responder) with hd | hd
  · exact .inl (by omega)
  · exact .inr ⟨by omega, hhist.dropped hp (mem_fates_of_drops hd)⟩

theorem answered_exactly_once_sample :
    ∃ s : State ℕ ℕ ℕ ℕ, (server sample).run (.start sample) sampleRun = some s ∧
      s.batcher.phase = .head ∧ (received s.log).length = 2 ∧
      (∀ cmd ∈ received s.log, s.answers cmd.responder = 1 ∨ s.answers cmd.responder = 0 ∧
        ∃ row, (cmd.responder, row) ∈ postprocessCalls s.log ∧
          sample.user.postprocess cmd.responder row = .panic) := by
  obtain ⟨s, hrun, hhead, hlen⟩ : ∃ s : State ℕ ℕ ℕ ℕ,
      (server sample).run (.start sample) sampleRun = some s ∧ s.batcher.phase = .head ∧
        (received s.log).length = 2 := ⟨_, rfl, rfl, rfl⟩
  have h := answered_exactly_once ⟨sampleRun, hrun⟩ (by rw [hhead]; simp)
  exact ⟨s, hrun, hhead, hlen, (h.2.2.1 hhead).2⟩

end OrtSuperserve

import OrtSuperserve.Batcher

/-!
# What a step of the batcher can do

`Move` lists the outcomes of `Batcher.step`, one constructor for each way through the code of a
phase, with the guard under which it is taken and the branch it is in.  Every fact about a step is
proved by cases on it.
-/

namespace OrtSuperserve

open Lib

variable {I P O F : Type}

namespace Batcher

/-- The error sent to every responder of the round when the reply `r` ends it. -/
def ReplyError (r : Reply F) (n : ℕ) (e : Error) : Prop :=
  match r with
  | .ok slicedOutputs => slicedOutputs.length ≠ n ∧ e = .outputCountMismatch
  | .err t => e = .inferenceFailed t
  | .closed => e = .workerChannelClosed

/-- The labels that end the collection loop. -/
def Leaves (S : Setup I P O F) (b : Batcher I P F) (a : BatcherAction I P F) : Prop :=
  match a with
  | .closed => b.batchBuffer.length < S.config.maxBatchSize
  | .turn .timeout => b.batchBuffer.length < S.config.maxBatchSize
  | .turn .full => S.config.maxBatchSize ≤ b.batchBuffer.length
  | _ => False

inductive Move (S : Setup I P O F) (b : Batcher I P F) :
    BatcherAction I P F → Batcher I P F → List (Event I P O F) → Prop where
  | overflow (hp : b.phase = .starting)
      (h : S.target.capacityOverflow S.target.commandSize S.config.maxBatchSize) :
      Move S b (.turn .start) { b with phase := .panicked } [.panic .batcher]
  | start (hp : b.phase = .starting)
      (h : ¬ S.target.capacityOverflow S.target.commandSize S.config.maxBatchSize) :
      Move S b (.turn .start) { b with phase := .head } []
  | first (cmd : Command I P) (hp : b.phase = .head) :
      Move S b (.recv cmd) { b with batchBuffer := b.batchBuffer ++ [cmd], phase := .collecting }
        [.received cmd]
  | stop (hp : b.phase = .head) : Move S b .closed { b with phase := .stopped } []
  | more (cmd : Command I P) (hp : b.phase = .collecting)
      (hlt : b.batchBuffer.length < S.config.maxBatchSize) :
      Move S b (.recv cmd) { b with batchBuffer := b.batchBuffer ++ [cmd] } [.received cmd]
  | leave (a : BatcherAction I P F) (hp : b.phase = .collecting) (ha : Leaves S b a) :
      Move S b a { b with phase := .collected } [.collected b.batchBuffer]
  | empty (hp : b.phase = .collected) (h : b.batchBuffer = []) :
      Move S b (.turn .check) b.nextRound []
  | short (hp : b.phase = .collected) (hne : b.batchBuffer ≠ [])
      (hlt : b.batchBuffer.length < S.config.minBatchSize) :
      Move S b (.turn .check) { b.nextRound with batchBuffer := [] }
        (sendErr .insufficientBatchSize (b.batchBuffer.map Command.responder))
  | spawn (hp : b.phase = .collected) (hne : b.batchBuffer ≠ [])
      (hle : S.config.minBatchSize ≤ b.batchBuffer.length) :
      Move S b (.turn .check) (b.spawnPreprocess (O := O)).1 b.spawnPreprocess.2
  | joinOk (j : Preprocessing I P) (k idx call : ℕ) (input : I) (item : P)
      (hp : b.phase = .preprocessing j) (hk : j.preprocessTasks[k]? = some (idx, call, input))
      (h : S.user.preprocess call input = .ok item) :
      Move S b (.turn (.preprocessed k))
        { b with phase := .preprocessing { j with
            preprocessTasks := j.preprocessTasks.eraseIdx k
            results := j.results.insert idx item } } []
  | joinErr (j : Preprocessing I P) (k idx call : ℕ) (input : I) (e : String)
      (hp : b.phase = .preprocessing j) (hk : j.preprocessTasks[k]? = some (idx, call, input))
      (h : S.user.preprocess call input = .err e) :
      Move S b (.turn (.preprocessed k))
        { b with phase := .preprocessing { j with
            preprocessTasks := j.preprocessTasks.eraseIdx k
            failedIndices := j.failedIndices ++ [idx] } } []
  | joinPanic (j : Preprocessing I P) (k idx call : ℕ) (input : I)
      (hp : b.phase = .preprocessing j) (hk : j.preprocessTasks[k]? = some (idx, call, input))
      (h : S.user.preprocess call input = .panic) :
      Move S b (.turn (.preprocessed k))
        { b with phase := .preprocessing { j with preprocessTasks := j.preprocessTasks.eraseIdx k } }
        [.panic (.preprocess call)]
  | filterNone (j : Preprocessing I P) (keys : List ℕ) (hp : b.phase = .preprocessing j)
      (ht : j.preprocessTasks = []) (hk : keys.Perm j.results.keys)
      (h : extractAll (List.range j.batchLen) j.results = []) :
      Move S b (.turn (.filter keys)) b.nextRound
        (sendErr .preprocessingFailed (keepResponders keys j.responders).2 ++
          dropAll (keepResponders keys j.responders).1)
  | filterSome (j : Preprocessing I P) (keys : List ℕ) (hp : b.phase = .preprocessing j)
      (ht : j.preprocessTasks = []) (hk : keys.Perm j.results.keys)
      (h : extractAll (List.range j.batchLen) j.results ≠ []) :
      Move S b (.turn (.filter keys))
        { b with
          phase := .batching (extractAll (List.range j.batchLen) j.results)
            (keepResponders keys j.responders).1 }
        (sendErr .preprocessingFailed (keepResponders keys j.responders).2)
  | batchOk (items : List P) (responders : List ℕ) (t : ArrayD F)
      (hp : b.phase = .batching items responders) (h : S.user.batch b.round items = .ok t) :
      Move S b (.turn .batch) { b with phase := .dispatching t responders } [.batch b.round items]
  | batchErr (items : List P) (responders : List ℕ) (e : String)
      (hp : b.phase = .batching items responders) (h : S.user.batch b.round items = .err e) :
      Move S b (.turn .batch) b.nextRound
        (.batch b.round items :: sendErr (.batchingFailed e) responders)
  | batchPanic (items : List P) (responders : List ℕ)
      (hp : b.phase = .batching items responders) (h : S.user.batch b.round items = .panic) :
      Move S b (.turn .batch) { b with phase := .panicked }
        (.batch b.round items :: .panic .batcher :: dropAll responders)
  | divZero (t : ArrayD F) (responders : List ℕ) (accepted : Bool)
      (hp : b.phase = .dispatching t responders) (h : S.config.numSessions = 0) :
      Move S b (.sent accepted) { b with phase := .panicked } (.panic .batcher :: dropAll responders)
  | sent (t : ArrayD F) (responders : List ℕ) (hp : b.phase = .dispatching t responders)
      (h : S.config.numSessions ≠ 0) :
      Move S b (.sent true)
        { b with
          dispatchIndex := (b.dispatchIndex + 1) % 2 ^ S.target.bits
          phase := .awaiting (b.workerMsg S t) responders }
        [.dispatch (b.dispatchIndex % S.config.numSessions) t]
  | refused (t : ArrayD F) (responders : List ℕ) (hp : b.phase = .dispatching t responders)
      (h : S.config.numSessions ≠ 0) :
      Move S b (.sent false)
        { b.nextRound with dispatchIndex := (b.dispatchIndex + 1) % 2 ^ S.target.bits }
        (.dispatch (b.dispatchIndex % S.config.numSessions) t :: sendErr .workerUnavailable responders)
  | replyOk (msg : WorkerMessage F) (responders : List ℕ) (outputs : List (ArrayD F))
      (hp : b.phase = .awaiting msg responders) (h : outputs.length = responders.length) :
      Move S b (.reply (.ok outputs)) { b with phase := .postprocessing (outputs.zip responders) } []
  | replyFailed (msg : WorkerMessage F) (responders : List ℕ) (r : Reply F) (e : Error)
      (hp : b.phase = .awaiting msg responders) (h : ReplyError r responders.length e) :
      Move S b (.reply r) b.nextRound (sendErr e responders)
  | post (tasks : List (ArrayD F × ℕ)) (k : ℕ) (rawOutput : ArrayD F) (responder : ℕ)
      (hp : b.phase = .postprocessing tasks) (hk : tasks[k]? = some (rawOutput, responder)) :
      Move S b (.turn (.postprocessed k)) { b with phase := .postprocessing (tasks.eraseIdx k) }
        (postprocessed S rawOutput responder)
  | finish (hp : b.phase = .postprocessing []) : Move S b (.turn .finish) b.nextRound []

variable {S : Setup I P O F} {b b' : Batcher I P F} {a : BatcherAction I P F}
  {evs : List (Event I P O F)}

/-! ### Each function of the loop body -/

lemma move_start (hp : b.phase = .starting) (h : b.start S = (b', evs)) :
    Move S b (.turn .start) b' evs := by
  unfold start unwind at h
  split at h <;> obtain ⟨rfl, rfl⟩ := Prod.mk.inj h
  · exact .overflow hp ‹_›
  · exact .start hp ‹_›

lemma move_check (hp : b.phase = .collected) (h : b.check S = (b', evs)) :
    Move S b (.turn .check) b' evs := by
  unfold check at h
  split at h
  · obtain ⟨rfl, rfl⟩ := Prod.mk.inj h
    exact .empty hp (List.isEmpty_iff.1 ‹_›)
  have hne : b.batchBuffer ≠ [] := fun hnil => ‹¬ _› (List.isEmpty_iff.2 hnil)
  split at h
  · obtain ⟨rfl, rfl⟩ := Prod.mk.inj h
    exact .short hp hne ‹_›
  · have := Move.spawn (S := S) hp hne (by omega)
    rwa [h] at this

lemma move_joined {j : Preprocessing I P} {k idx call : ℕ} {input : I}
    (hp : b.phase = .preprocessing j) (hk : j.preprocessTasks[k]? = some (idx, call, input))
    (h : b.joined S { j with preprocessTasks := j.preprocessTasks.eraseIdx k } idx call input =
      (b', evs)) : Move S b (.turn (.preprocessed k)) b' evs := by
  unfold joined at h
  split at h <;> obtain ⟨rfl, rfl⟩ := Prod.mk.inj h
  · exact .joinOk j k idx call input _ hp hk ‹_›
  · exact .joinErr j k idx call input _ hp hk ‹_›
  · exact .joinPanic j k idx call input hp hk ‹_›

lemma move_filter {j : Preprocessing I P} {keys : List ℕ} (hp : b.phase = .preprocessing j)
    (ht : j.preprocessTasks = []) (hk : keys.Perm j.results.keys)
    (h : b.filterItems j keys = (b', evs)) : Move S b (.turn (.filter keys)) b' evs := by
  simp only [filterItems] at h
  split at h <;> obtain ⟨rfl, rfl⟩ := Prod.mk.inj h
  · exact .filterNone j keys hp ht hk (List.isEmpty_iff.1 ‹_›)
  · exact .filterSome j keys hp ht hk fun hnil => ‹¬ _› (List.isEmpty_iff.2 hnil)

lemma move_batch {items : List P} {responders : List ℕ} (hp : b.phase = .batching items responders)
    (h : b.callBatch S items responders = (b', evs)) : Move S b (.turn .batch) b' evs := by
  unfold callBatch at h
  split at h <;> obtain ⟨rfl, rfl⟩ := Prod.mk.inj h
  · exact .batchOk items responders _ hp ‹_›
  · exact .batchErr items responders _ hp ‹_›
  · exact .batchPanic items responders hp ‹_›

lemma move_dispatch {t : ArrayD F} {responders : List ℕ} {accepted : Bool}
    (hp : b.phase = .dispatching t responders)
    (h : b.dispatch S t responders accepted = (b', evs)) : Move S b (.sent accepted) b' evs := by
  unfold dispatch at h
  split at h
  · obtain ⟨rfl, rfl⟩ := Prod.mk.inj h
    exact .divZero t responders accepted hp ‹_›
  · cases accepted <;> obtain ⟨rfl, rfl⟩ := Prod.mk.inj h
    · exact .refused t responders hp ‹_›
    · exact .sent t responders hp ‹_›

lemma move_receive {msg : WorkerMessage F} {responders : List ℕ} {r : Reply F}
    (hp : b.phase = .awaiting msg responders) (h : b.receive responders r = (b', evs)) :
    Move S b (.reply r) b' evs := by
  cases r with
  | ok outputs =>
    simp only [receive] at h
    split at h <;> obtain ⟨rfl, rfl⟩ := Prod.mk.inj h
    · exact .replyFailed msg responders _ _ hp ⟨‹_›, rfl⟩
    · exact .replyOk msg responders outputs hp (not_not.1 ‹_›)
  | err e =>
    obtain ⟨rfl, rfl⟩ := Prod.mk.inj h
    exact .replyFailed msg responders _ _ hp rfl
  | closed =>
    obtain ⟨rfl, rfl⟩ := Prod.mk.inj h
    exact .replyFailed msg responders _ _ hp rfl

/-- **Every step is a move.** -/
theorem step_move (h : b.step S a = some (b', evs)) : Move S b a b' evs := by
  unfold step at h
  split at h
  · exact move_start ‹_› (Option.some.inj h)
  · obtain ⟨rfl, rfl⟩ := Prod.mk.inj (Option.some.inj h)
    exact .first _ ‹_›
  · obtain ⟨rfl, rfl⟩ := Prod.mk.inj (Option.some.inj h)
    exact .stop ‹_›
  · split at h
    · obtain ⟨rfl, rfl⟩ := Prod.mk.inj (Option.some.inj h)
      exact .more _ ‹_› ‹_›
    · cases h
  · split at h
    · obtain ⟨rfl, rfl⟩ := Prod.mk.inj (Option.some.inj h)
      exact .leave .closed ‹_› ‹_›
    · cases h
  · split at h
    · obtain ⟨rfl, rfl⟩ := Prod.mk.inj (Option.some.inj h)
      exact .leave (.turn .timeout) ‹_› ‹_›
    · cases h
  · split at h
    · cases h
    · obtain ⟨rfl, rfl⟩ := Prod.mk.inj (Option.some.inj h)
      exact .leave (.turn .full) ‹_› (not_lt.1 ‹_›)
  · exact move_check ‹_› (Option.some.inj h)
  · split at h
    · cases h
    · exact move_joined ‹_› ‹_› (Option.some.inj h)
  · split at h
    · rename_i hg
      exact move_filter ‹_› (List.isEmpty_iff.1 hg.1) hg.2 (Option.some.inj h)
    · cases h
  · exact move_batch ‹_› (Option.some.inj h)
  · exact move_dispatch ‹_› (Option.some.inj h)
  · exact move_receive ‹_› (Option.some.inj h)
  · split at h
    · cases h
    · obtain ⟨rfl, rfl⟩ := Prod.mk.inj (Option.some.inj h)
      exact .post _ _ _ _ ‹_› ‹_›
  · rename_i tasks hp
    split at h
    · rename_i ht
      obtain ⟨rfl, rfl⟩ := Prod.mk.inj (Option.some.inj h)
      rw [List.isEmpty_iff.1 ht] at hp
      exact .finish hp
    · cases h
  · cases h

/-- And every move is a step. -/
theorem Move.step_eq (h : Move S b a b' evs) : b.step S a = some (b', evs) := by
  cases h with
  | overflow hp h => simp only [step, hp, Batcher.start, if_pos h]; rfl
  | start hp h => simp only [step, hp, Batcher.start, if_neg h]
  | first cmd hp => simp only [step, hp]
  | stop hp => simp only [step, hp]
  | more cmd hp hlt => simp only [step, hp, if_pos hlt]
  | leave _ hp hl =>
    cases a with
    | closed =>
      have hl : b.batchBuffer.length < S.config.maxBatchSize := hl
      simp only [step, hp, if_pos hl]; rfl
    | turn n =>
      cases n with
      | timeout =>
        have hl : b.batchBuffer.length < S.config.maxBatchSize := hl
        simp only [step, hp, if_pos hl]; rfl
      | full => simp only [step, hp, if_neg (not_lt.2 hl)]; rfl
      | _ => exact hl.elim
    | _ => exact hl.elim
  | empty hp h => simp only [step, hp, check, h, List.isEmpty_nil, if_true]
  | short hp hne hlt => simp [step, hp, check, hne, hlt, reject, nextRound]
  | spawn hp hne hle => simp [step, hp, check, hne, not_lt.2 hle]
  | joinOk j k idx call input item hp hk h => simp only [step, hp, hk, joined, h]
  | joinErr j k idx call input e hp hk h => simp only [step, hp, hk, joined, h]
  | joinPanic j k idx call input hp hk h => simp only [step, hp, hk, joined, h]
  | filterNone j keys hp ht hk h => simp [step, hp, ht, hk, filterItems, h]
  | filterSome j keys hp ht hk h => simp [step, hp, ht, hk, filterItems, h]
  | batchOk items responders t hp h => simp only [step, hp, callBatch, h]
  | batchErr items responders e hp h => simp only [step, hp, callBatch, h]; rfl
  | batchPanic items responders hp h => simp only [step, hp, callBatch, h]; rfl
  | divZero t responders accepted hp h => simp only [step, hp, dispatch, if_pos h]; rfl
  | sent t responders hp h => simp only [step, hp, dispatch, if_neg h]; rfl
  | refused t responders hp h => simp only [step, hp, dispatch, if_neg h]; rfl
  | replyOk msg responders outputs hp h => simp only [step, hp, receive, if_neg (not_not.2 h)]
  | replyFailed msg responders r e hp h =>
    cases r with
    | ok outputs =>
      obtain ⟨hne, rfl⟩ := h
      simp only [step, hp, receive, if_pos hne]; rfl
    | err t =>
      obtain rfl : e = _ := h
      simp only [step, hp, receive]; rfl
    | closed =>
      obtain rfl : e = _ := h
      simp only [step, hp, receive]; rfl
  | post tasks k rawOutput responder hp hk => simp only [step, hp, hk]
  | finish hp => simp only [step, hp]; rfl

end Batcher

end OrtSuperserve

import OrtSuperserve.Helpers
import OrtSuperserve.Worker

/-!
# `actor/batcher.rs`: the batcher task

The body of `BatcherTask::spawn` as a state machine.  A phase is a place where the task can be
suspended or calls user code; the code between two such places is one function here, under the
source's words, and `Batcher.step` says which of them runs.

* What the task takes from the others is in the label (`BatcherAction`): the command received, the
  closed command channel, whether the worker's channel took the message, the worker's reply.
* What the runtime decides is in the label too: whether the timer fires (`timeout`), which task a
  `JoinSet` yields (`preprocessed k`, `postprocessed k`), the order of `results.keys()` (`filter`).
* What the task does to the others is the list of events of the step: calls of user code, the
  dispatch, a value sent on a responder (`answer`) or a responder dropped unused (`drop`).

The round number, counted up on every way back to the top of the loop, is a ghost: it names the
calls of `I::batch` and the reply channel of a round.
-/

namespace OrtSuperserve

open Lib

/-- What a server is started with: the configuration, the target, the user's code, the ONNX session
and the tensor names.  `preprocessOnInfer` is the field of `Server` that a call of `infer` reads.
`start` gives it the configured value and `clone` copies it; with other values, raw and preprocessed
commands share their batches. -/
structure Setup (I P O F : Type) where
  config : ServerConfig
  target : Target
  user : UserCode I P O F
  session : Session F
  inputName : String
  outputName : String
  preprocessOnInfer : ℕ → Bool := fun _ => config.preprocessOnInfer

/-! ### A small instance -/

/-- An array of one number. -/
def single (x : ℕ) : ArrayD ℕ := ⟨[1], [x], rfl⟩

/-- Zero cannot be preprocessed, and everything else is left as it is. -/
def sampleUser : UserCode ℕ ℕ ℕ ℕ where
  preprocess _ x := if x = 0 then .err "zero" else .ok x
  batch _ items := batchArray 64 (items.map single)
  postprocess _ a := .ok (a.data.headD 0)

theorem rows_sampleBatch {r : ℕ} {items : List ℕ} {t : ArrayD ℕ}
    (h : sampleUser.batch r items = .ok t) : t.rows = items.map single := rows_batchArray h

/-- A server whose inputs and outputs are numbers: `batch_array` makes the batch, of items that are
arrays of one number, and the model is the identity. -/
def sample : Setup ℕ ℕ ℕ ℕ where
  config := { maxBatchSize := 2 }
  target := {}
  user := sampleUser
  session := identitySession
  inputName := "input"
  outputName := "output"

/-! ### What the tasks do to each other -/

/-- The tasks that can panic. -/
inductive Task where
  | batcher
  | worker (w : ℕ)
  | preprocess (call : ℕ)
  | postprocess (call : ℕ)
  | infer (call : ℕ)
  deriving DecidableEq

/-- What the tasks do to each other and to the user's code.  `accepted` is a command taken by the
command channel, `received` one the batcher takes out of it, `collected` a batch the collection loop
ends with. -/
inductive Event (I P O F : Type) where
  | accepted (cmd : Command I P)
  | received (cmd : Command I P)
  | collected (batch : List (Command I P))
  | preprocess (call : ℕ)
  | batch (round : ℕ) (items : List P)
  | dispatch (worker : ℕ) (tensor : ArrayD F)
  | postprocess (call : ℕ) (rawOutput : ArrayD F)
  | answer (call : ℕ) (response : Response O)
  | drop (call : ℕ)
  | panic (task : Task)

/-- What `result_rx` yields: the worker's reply, or `closed` if `result_tx` was dropped. -/
inductive Reply (F : Type) where
  | ok (slicedOutputs : List (ArrayD F))
  | err (e : String)
  | closed

variable {I P O F : Type}

/-! ### The state -/

/-- The variables of the round while `preprocess_tasks` run.  A running task is its index in the
batch with the input it preprocesses. -/
structure Preprocessing (I P : Type) where
  batchLen : ℕ
  responders : List ℕ
  rawInputsCount : ℕ
  preprocessedInputsCount : ℕ
  preprocessTasks : List (ℕ × ℕ × I)
  results : Store P
  failedIndices : List ℕ

/-- Where the task is: at its allocation, at the top of the loop, in the collection loop, behind it,
in the `join_next` loop over `preprocess_tasks`, before the call of `I::batch`, before the dispatch,
at `result_rx.await` (for the reply to the message `workerMsg`), in the loop over
`postprocess_tasks`, out of the loop, or unwound. -/
inductive Phase (I P F : Type) where
  | starting
  | head
  | collecting
  | collected
  | preprocessing (j : Preprocessing I P)
  | batching (preprocessedItems : List P) (responders : List ℕ)
  | dispatching (batchedTensor : ArrayD F) (responders : List ℕ)
  | awaiting (workerMsg : WorkerMessage F) (responders : List ℕ)
  | postprocessing (postprocessTasks : List (ArrayD F × ℕ))
  | stopped
  | panicked

structure Batcher (I P F : Type) where
  batchBuffer : List (Command I P)
  dispatchIndex : ℕ
  round : ℕ
  phase : Phase I P F

/-- The turns of the batcher that depend on no other task. -/
inductive Turn where
  | start
  | timeout
  | full
  | check
  | preprocessed (k : ℕ)
  | filter (successIndices : List ℕ)
  | batch
  | postprocessed (k : ℕ)
  | finish
  deriving DecidableEq

inductive BatcherAction (I P F : Type) where
  | recv (cmd : Command I P)
  | closed
  | sent (accepted : Bool)
  | reply (r : Reply F)
  | turn (t : Turn)

/-! ### The code between two suspensions -/

/-- `for responder in responders { responder.send(Err(e)) }`. -/
def sendErr (e : Error) (responders : List ℕ) : List (Event I P O F) :=
  responders.map fun c => .answer c (.error e)

/-- Responders that go out of scope unused. -/
def dropAll (responders : List ℕ) : List (Event I P O F) := responders.map .drop

/-- The three lists filled by the loop that drains the buffer. -/
structure Split (I P : Type) where
  responders : List ℕ := []
  rawInputs : List (ℕ × ℕ × I) := []
  preprocessedInputs : List (ℕ × P) := []

/-- One turn of `for (idx, cmd) in batch_buffer.drain(..).enumerate()`. -/
def Split.push (s : Split I P) (cmd : Command I P) (idx : ℕ) : Split I P :=
  match cmd.input with
  | .raw call input =>
    { s with
      responders := s.responders ++ [cmd.responder]
      rawInputs := s.rawInputs ++ [(idx, call, input)] }
  | .preprocessed preprocessed =>
    { s with
      responders := s.responders ++ [cmd.responder]
      preprocessedInputs := s.preprocessedInputs ++ [(idx, preprocessed)] }

def splitBatch (batch : List (Command I P)) : Split I P :=
  batch.zipIdx.foldl (fun s x => s.push x.1 x.2) {}

/-- `results` before the first task is joined: the inputs that came preprocessed. -/
def initialResults (preprocessedInputs : List (ℕ × P)) : Store P := insertAll preprocessedInputs ∅

/-- The responders kept for the successful indices, and those that get an error. -/
def keepResponders (successIndices responders : List ℕ) : List ℕ × List ℕ :=
  ((responders.zipIdx.filter fun x => successIndices.contains x.2).map Prod.fst,
    (responders.zipIdx.filter fun x => !successIndices.contains x.2).map Prod.fst)

/-- The number of preprocessing tasks that left no result. -/
def Preprocessing.panickedCount (j : Preprocessing I P) : ℕ :=
  j.rawInputsCount - (j.results.keys.length - j.preprocessedInputsCount) - j.failedIndices.length

namespace Batcher

def init : Batcher I P F := ⟨[], 0, 0, .starting⟩

variable (S : Setup I P O F) (b : Batcher I P F)

/-- Back to the top of the loop. -/
def nextRound : Batcher I P F := { b with round := b.round + 1, phase := .head }

/-- An error to every responder, and `continue`. -/
def reject (responders : List ℕ) (e : Error) : Batcher I P F × List (Event I P O F) :=
  (b.nextRound, sendErr e responders)

/-- The task unwinds, dropping the responders it holds. -/
def unwind (responders : List ℕ) : Batcher I P F × List (Event I P O F) :=
  ({ b with phase := .panicked }, .panic .batcher :: dropAll responders)

/-- `Vec::with_capacity(config.max_batch_size)`. -/
def start : Batcher I P F × List (Event I P O F) :=
  if S.target.capacityOverflow S.target.commandSize S.config.maxBatchSize then b.unwind []
  else ({ b with phase := .head }, [])

/-- The end of the collection loop. -/
def leave : Batcher I P F × List (Event I P O F) :=
  ({ b with phase := .collected }, [.collected b.batchBuffer])

/-- Drain the buffer and spawn the preprocessing of the raw inputs. -/
def spawnPreprocess : Batcher I P F × List (Event I P O F) :=
  let s := splitBatch b.batchBuffer
  ({ b with
      batchBuffer := []
      phase := .preprocessing
        { batchLen := b.batchBuffer.length
          responders := s.responders
          rawInputsCount := s.rawInputs.length
          preprocessedInputsCount := s.preprocessedInputs.length
          preprocessTasks := s.rawInputs
          results := initialResults s.preprocessedInputs
          failedIndices := [] } },
    s.rawInputs.map fun x => .preprocess x.2.1)

/-- The minimum check. -/
def check : Batcher I P F × List (Event I P O F) :=
  if b.batchBuffer.isEmpty then (b.nextRound, [])
  else if b.batchBuffer.length < S.config.minBatchSize then
    { b with batchBuffer := [] }.reject (b.batchBuffer.map Command.responder)
      .insufficientBatchSize
  else b.spawnPreprocess

/-- `preprocess_tasks.join_next()` yields the task with index `idx`, preprocessing `input`. -/
def joined (j : Preprocessing I P) (idx call : ℕ) (input : I) :
    Batcher I P F × List (Event I P O F) :=
  match S.user.preprocess call input with
  | .ok item => ({ b with phase := .preprocessing { j with results := j.results.insert idx item } }, [])
  | .err _ =>
    ({ b with phase := .preprocessing { j with failedIndices := j.failedIndices ++ [idx] } }, [])
  | .panic => ({ b with phase := .preprocessing j }, [.panic (.preprocess call)])

/-- From the end of the join loop to the call of `I::batch`.  If nothing is left, `continue` drops
whatever responders were kept. -/
def filterItems (j : Preprocessing I P) (successIndices : List ℕ) :
    Batcher I P F × List (Event I P O F) :=
  let preprocessedItems := extractAll (List.range j.batchLen) j.results
  let kept := (keepResponders successIndices j.responders).1
  let failed := (keepResponders successIndices j.responders).2
  let errors := sendErr .preprocessingFailed failed
  if preprocessedItems.isEmpty then (b.nextRound, errors ++ dropAll kept)
  else ({ b with phase := .batching preprocessedItems kept }, errors)

/-- The call of `I::batch`. -/
def callBatch (preprocessedItems : List P) (responders : List ℕ) :
    Batcher I P F × List (Event I P O F) :=
  match S.user.batch b.round preprocessedItems with
  | .ok batchedTensor =>
    ({ b with phase := .dispatching batchedTensor responders }, [.batch b.round preprocessedItems])
  | .err e =>
    let r := b.reject responders (.batchingFailed e)
    (r.1, .batch b.round preprocessedItems :: r.2)
  | .panic =>
    let r := b.unwind responders
    (r.1, .batch b.round preprocessedItems :: r.2)

/-- `worker_msg`. -/
def workerMsg (batchedTensor : ArrayD F) : WorkerMessage F :=
  ⟨batchedTensor, S.inputName, S.outputName, b.round⟩

/-- The round-robin dispatch: `dispatch_index % num_workers` panics without workers; `accepted` says
whether the channel of the chosen worker took the message. -/
def dispatch (batchedTensor : ArrayD F) (responders : List ℕ) (accepted : Bool) :
    Batcher I P F × List (Event I P O F) :=
  if S.config.numSessions = 0 then b.unwind responders
  else
    let workerIdx := b.dispatchIndex % S.config.numSessions
    let b' := { b with dispatchIndex := (b.dispatchIndex + 1) % 2 ^ S.target.bits }
    if accepted then
      ({ b' with phase := .awaiting (b.workerMsg S batchedTensor) responders },
        [.dispatch workerIdx batchedTensor])
    else
      let r := b'.reject responders .workerUnavailable
      (r.1, .dispatch workerIdx batchedTensor :: r.2)

/-- `result_rx.await` and the count check. -/
def receive (responders : List ℕ) (r : Reply F) : Batcher I P F × List (Event I P O F) :=
  match r with
  | .ok slicedOutputs =>
    if slicedOutputs.length ≠ responders.length then b.reject responders .outputCountMismatch
    else ({ b with phase := .postprocessing (slicedOutputs.zip responders) }, [])
  | .err e => b.reject responders (.inferenceFailed e)
  | .closed => b.reject responders .workerChannelClosed

/-- What a postprocessing task does with its responder. -/
def postprocessed (rawOutput : ArrayD F) (responder : ℕ) : List (Event I P O F) :=
  match S.user.postprocess responder rawOutput with
  | .ok o => [.postprocess responder rawOutput, .answer responder (.ok o)]
  | .err e => [.postprocess responder rawOutput, .answer responder (.error (.userError e))]
  | .panic =>
    [.postprocess responder rawOutput, .panic (.postprocess responder), .drop responder]

/-- **The batcher task.** -/
def step (b : Batcher I P F) (a : BatcherAction I P F) :
    Option (Batcher I P F × List (Event I P O F)) :=
  match b.phase, a with
  | .starting, .turn .start => some (b.start S)
  | .head, .recv cmd =>
    some ({ b with batchBuffer := b.batchBuffer ++ [cmd], phase := .collecting }, [.received cmd])
  | .head, .closed => some ({ b with phase := .stopped }, [])
  | .collecting, .recv cmd =>
    if b.batchBuffer.length < S.config.maxBatchSize then
      some ({ b with batchBuffer := b.batchBuffer ++ [cmd] }, [.received cmd])
    else none
  | .collecting, .closed =>
    if b.batchBuffer.length < S.config.maxBatchSize then some b.leave else none
  | .collecting, .turn .timeout =>
    if b.batchBuffer.length < S.config.maxBatchSize then some b.leave else none
  | .collecting, .turn .full =>
    if b.batchBuffer.length < S.config.maxBatchSize then none else some b.leave
  | .collected, .turn .check => some (b.check S)
  | .preprocessing j, .turn (.preprocessed k) =>
    match j.preprocessTasks[k]? with
    | none => none
    | some (idx, call, input) =>
      some (b.joined S { j with preprocessTasks := j.preprocessTasks.eraseIdx k } idx call input)
  | .preprocessing j, .turn (.filter successIndices) =>
    if j.preprocessTasks.isEmpty ∧ successIndices.Perm j.results.keys then
      some (b.filterItems j successIndices)
    else none
  | .batching preprocessedItems responders, .turn .batch =>
    some (b.callBatch S preprocessedItems responders)
  | .dispatching batchedTensor responders, .sent accepted =>
    some (b.dispatch S batchedTensor responders accepted)
  | .awaiting _ responders, .reply r => some (b.receive responders r)
  | .postprocessing tasks, .turn (.postprocessed k) =>
    match tasks[k]? with
    | none => none
    | some (rawOutput, responder) =>
      some ({ b with phase := .postprocessing (tasks.eraseIdx k) },
        postprocessed S rawOutput responder)
  | .postprocessing tasks, .turn .finish => if tasks.isEmpty then some (b.nextRound, []) else none
  | _, _ => none

end Batcher

end OrtSuperserve

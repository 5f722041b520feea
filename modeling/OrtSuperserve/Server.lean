import OrtSuperserve.Progress
import OrtSuperserve.Lib.Machine

/-!
# `server.rs`: the handles, the calls of `infer`, the batcher and the workers

The whole server as a machine.  Its state has the `Server` handles (alive or dropped), the calls of
`infer`, the command channel, the batcher task, the worker threads with their channels, the replies
underway on the oneshot channels of the rounds, and the log of events.

* A call of `infer` borrows its handle until its future is dropped, so a handle is shut down only when
  no call on it is running.  What is sent on a responder, or that it was dropped, is read off the log.
* `kanal` channels are queues; they refuse a message once the receiver is gone, and end once they are
  empty and the last sender is gone.  What is left in the channel of a task that is gone may be
  dropped (`discard`).  A `recv` future that `select!` drops has taken nothing out of its channel here;
  `lossyServer` is the server in which it may have.
* A worker thread opens its session when it tries to (`init`); the attempts that fail are steps of
  `deployment` only.  It ends when its channel does, and dies when it panics, in `process_message` or
  anywhere else (`die`).
-/

namespace OrtSuperserve

open Lib

variable {I P O F : Type}

/-! ### The state -/

/-- A call of `infer`: not polled yet, about to send its command, awaiting the response, or over: it
returned, its task unwound, or its future was dropped. -/
inductive CallState (I P O : Type) where
  | starting
  | sending (cmd : Command I P)
  | waiting
  | returned (response : Response O)
  | panicked
  | cancelled

/-- The future exists, and borrows the handle. -/
def CallState.running : CallState I P O → Bool
  | .starting | .sending _ | .waiting => true
  | .returned _ | .panicked | .cancelled => false

structure Call (I P O : Type) where
  handle : ℕ
  input : I
  state : CallState I P O

inductive WorkerState (F : Type) where
  | initializing
  | receiving
  | processing (msg : WorkerMessage F)
  | ended
  | dead

structure WorkerThread (F : Type) where
  queue : List (WorkerMessage F)
  state : WorkerState F

/-- The receiver of the thread's channel exists. -/
def WorkerThread.alive (t : WorkerThread F) : Bool :=
  match t.state with
  | .initializing | .receiving | .processing _ => true
  | .ended | .dead => false

structure State (I P O F : Type) where
  handles : List Bool
  calls : List (Call I P O)
  commandQueue : List (Command I P)
  batcher : Batcher I P F
  workers : List (WorkerThread F)
  replies : List (ℕ × Reply F)
  log : List (Event I P O F)

/-- The receiver of the command channel and the senders of the worker channels are dropped. -/
def Batcher.gone (b : Batcher I P F) : Bool :=
  match b.phase with
  | .stopped | .panicked => true
  | _ => false

/-! ### The actions -/

inductive ClientAction (I : Type) where
  | clone (h : ℕ)
  | infer (h : ℕ) (input : I)
  | prepare (c : ℕ)
  | send (c : ℕ)
  | receive (c : ℕ)
  | cancel (c : ℕ)
  | shutdown (h : ℕ)
  deriving DecidableEq

inductive BatcherTaskAction where
  | recv
  | closed
  | dispatch
  | reply
  | turn (t : Turn)
  deriving DecidableEq

inductive WorkerAction where
  | init
  | take
  | process
  | exit
  | die
  | discard
  deriving DecidableEq

inductive Action (I : Type) where
  | client (a : ClientAction I)
  | batcher (a : BatcherTaskAction)
  | worker (w : ℕ) (a : WorkerAction)
  | discard
  deriving DecidableEq

/-! ### The steps -/

variable (S : Setup I P O F)

/-- `infer` up to the command: `preprocess` runs here only with `preprocess_on_infer`. -/
def prepare (c : ℕ) (input : I) : CallState I P O × List (Event I P O F) :=
  if S.preprocessOnInfer c then
    match S.user.preprocess c input with
    | .ok preprocessed => (.sending (.newPreprocessed preprocessed c), [.preprocess c])
    | .err e => (.returned (.error (.userError e)), [.preprocess c])
    | .panic => (.panicked, [.preprocess c, .panic (.infer c)])
  else (.sending (.newRaw c input c), [])

/-- `response.await`, once the sender is used or dropped. -/
def Fate.response : Fate O → Response O
  | .answered response => response
  | .dropped => .error .responseChannelClosed

namespace State

variable (s : State I P O F)

/-- A call goes on. -/
def setCall (c : ℕ) (call : Call I P O) (st : CallState I P O) : State I P O F :=
  { s with calls := s.calls.set c { call with state := st } }

/-- No call borrows the handle. -/
def unused (h : ℕ) : Bool := s.calls.all fun call => !(call.handle == h && call.state.running)

def clientStep (a : ClientAction I) : Option (State I P O F) :=
  match a with
  | .clone h =>
    if s.handles[h]? = some true then some { s with handles := s.handles ++ [true] } else none
  | .infer h input =>
    if s.handles[h]? = some true then some { s with calls := s.calls ++ [⟨h, input, .starting⟩] }
    else none
  | .prepare c =>
    match s.calls[c]? with
    | some ⟨h, input, .starting⟩ =>
      let r := prepare S c input
      some { s.setCall c ⟨h, input, .starting⟩ r.1 with log := s.log ++ r.2 }
    | _ => none
  | .send c =>
    match s.calls[c]? with
    | some ⟨h, input, .sending cmd⟩ =>
      if s.batcher.gone then
        some (s.setCall c ⟨h, input, .sending cmd⟩ (.returned (.error .serverChannelClosed)))
      else
        some { s.setCall c ⟨h, input, .sending cmd⟩ .waiting with
          commandQueue := s.commandQueue ++ [cmd]
          log := s.log ++ [.accepted cmd] }
    | _ => none
  | .receive c =>
    match s.calls[c]?, (fates s.log).lookup c with
    | some ⟨h, input, .waiting⟩, some fate =>
      some (s.setCall c ⟨h, input, .waiting⟩ (.returned fate.response))
    | _, _ => none
  | .cancel c =>
    match s.calls[c]? with
    | some call => if call.state.running then some (s.setCall c call .cancelled) else none
    | none => none
  | .shutdown h =>
    if s.handles[h]? = some true ∧ s.unused h then some { s with handles := s.handles.set h false }
    else none

/-- What a step of the batcher leaves, with the message it sends, if it sends one, in the channel of
worker `w`. -/
def afterBatcher (w : ℕ) (r : Batcher I P F × List (Event I P O F)) : State I P O F :=
  { s with
    batcher := r.1
    workers := s.workers.modify w fun t => { t with queue := t.queue ++ r.1.outbox }
    log := s.log ++ r.2 }

/-- The worker a dispatch chooses. -/
def chosen : ℕ := s.batcher.dispatchIndex % S.config.numSessions

/-- The channel of the chosen worker takes messages. -/
def accepts : Bool := (s.workers[s.chosen S]?.map WorkerThread.alive).getD false

def batcherStep (a : BatcherTaskAction) : Option (State I P O F) :=
  match a with
  | .recv =>
    match s.commandQueue with
    | [] => none
    | cmd :: rest =>
      (s.batcher.step S (.recv cmd)).map fun r =>
        { s with batcher := r.1, commandQueue := rest, log := s.log ++ r.2 }
  | .closed =>
    if s.commandQueue.isEmpty ∧ s.handles.all (!·) then
      (s.batcher.step S .closed).map fun r => { s with batcher := r.1, log := s.log ++ r.2 }
    else none
  | .dispatch => (s.batcher.step S (.sent (s.accepts S))).map (s.afterBatcher (s.chosen S))
  | .reply =>
    match s.replies.lookup s.batcher.round with
    | none => none
    | some r =>
      (s.batcher.step S (.reply r)).map fun x =>
        { s with
          batcher := x.1
          replies := s.replies.eraseP fun y => y.1 == s.batcher.round
          log := s.log ++ x.2 }
  | .turn t =>
    (s.batcher.step S (.turn t)).map fun r => { s with batcher := r.1, log := s.log ++ r.2 }

end State

/-- What a step of a worker thread does: the thread afterwards, the replies sent or dropped, and the
events. -/
structure WorkerEffect (I P O F : Type) where
  thread : WorkerThread F
  replies : List (ℕ × Reply F) := []
  events : List (Event I P O F) := []

/-- The thread of worker `w`; `closed` says that the senders of its channel are gone. -/
def WorkerThread.step (t : WorkerThread F) (closed : Bool) (w : ℕ) (a : WorkerAction) :
    Option (WorkerEffect I P O F) :=
  match a, t.state with
  | .init, .initializing => some { thread := { t with state := .receiving } }
  | .take, .receiving =>
    match t.queue with
    | [] => none
    | msg :: rest => some { thread := ⟨rest, .processing msg⟩ }
  | .process, .processing msg =>
    match processMessage S.target S.session msg with
    | .ok slicedOutputs =>
      some { thread := { t with state := .receiving }, replies := [(msg.resultTx, .ok slicedOutputs)] }
    | .err e => some { thread := { t with state := .receiving }, replies := [(msg.resultTx, .err e)] }
    | .panic =>
      some
        { thread := { t with state := .dead }
          replies := [(msg.resultTx, .closed)]
          events := [.panic (.worker w)] }
  | .exit, .receiving =>
    if t.queue.isEmpty ∧ closed then some { thread := { t with state := .ended } } else none
  | .die, .initializing =>
    some { thread := { t with state := .dead }, events := [.panic (.worker w)] }
  | .die, .receiving =>
    some { thread := { t with state := .dead }, events := [.panic (.worker w)] }
  | .die, .processing msg =>
    some
      { thread := { t with state := .dead }
        replies := [(msg.resultTx, .closed)]
        events := [.panic (.worker w)] }
  | .discard, .dead =>
    match t.queue with
    | [] => none
    | msg :: rest => some { thread := { t with queue := rest }, replies := [(msg.resultTx, .closed)] }
  | _, _ => none

namespace State

variable (s : State I P O F)

def workerStep (w : ℕ) (a : WorkerAction) : Option (State I P O F) :=
  match s.workers[w]? with
  | none => none
  | some t =>
    (t.step S s.batcher.gone w a).map fun r =>
      { s with
        workers := s.workers.set w r.thread
        replies := r.replies ++ s.replies
        log := s.log ++ r.events }

/-- A command left in the channel of the batcher that is gone is dropped. -/
def discardStep : Option (State I P O F) :=
  match s.commandQueue with
  | [] => none
  | cmd :: rest =>
    if s.batcher.gone then
      some { s with commandQueue := rest, log := s.log ++ [.drop cmd.responder] }
    else none

def step (a : Action I) : Option (State I P O F) :=
  match a with
  | .client a => s.clientStep S a
  | .batcher a => s.batcherStep S a
  | .worker w a => s.workerStep S w a
  | .discard => s.discardStep

end State

/-- `Server::start`: one handle, `num_sessions` workers that build their session, and the batcher. -/
def State.start : State I P O F where
  handles := [true]
  calls := []
  commandQueue := []
  batcher := .init
  workers := List.replicate S.config.numSessions ⟨[], .initializing⟩
  replies := []
  log := []

/-- **The server.** -/
def server : Machine (State I P O F) (Action I) where
  start := .start S
  step s a := s.step S a

end OrtSuperserve

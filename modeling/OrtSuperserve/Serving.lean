import OrtSuperserve.Slicing
import OrtSuperserve.ServerMoves

/-!
# The receive loop of a worker

The worker thread on its own, with the messages still to come: each is taken and processed, and its
reply sent.  The thread goes on to the end of its messages, one reply for each, for just those messages
whose output tensor has a first axis, and not one longer than a vector of arrays can be
(`worker_serves_iff`).
-/

namespace OrtSuperserve

open Lib

variable {I P O F : Type}

/-! ### When a message is fatal -/

/-- `shape_usize[0]` panics, as there is no first axis, or `Vec::with_capacity(batch_size)` does. -/
def Unsliceable (target : Target) (shape : List ℤ) (data : List F) : Prop :=
  match shape.map (asUsize target.bits) with
  | [] => True
  | batchSize :: tail =>
    nonzeroSize (batchSize :: tail) ≤ isizeMax target.bits ∧
      (batchSize :: tail).prod ≤ data.length ∧
      target.capacityOverflow target.arraySize batchSize

/-- The session accepts the tensor of the message, and panics or returns an unsliceable output. -/
def Fatal (target : Target) (session : Session F) (msg : WorkerMessage F) : Prop :=
  session.fromArrayView msg.resultTx msg.batchedTensor = .ok () ∧
    (session.run msg.resultTx msg.inputName msg.batchedTensor = .panic ∨
      ∃ outputs shape data,
        session.run msg.resultTx msg.inputName msg.batchedTensor = .ok outputs ∧
        outputs.lookup msg.outputName = some (.tensor shape data) ∧ Unsliceable target shape data)

lemma fromShape_eq_ok {bits : ℕ} {shape : List ℕ} {data : List F} {a : ArrayD F}
    (h : fromShape bits shape data = .ok a) :
    nonzeroSize shape ≤ isizeMax bits ∧ shape.prod ≤ data.length := by
  unfold fromShape sizeOfShapeChecked at h
  by_cases hfit : nonzeroSize shape ≤ isizeMax bits
  · simp only [if_pos hfit] at h
    by_cases hlen : data.length < shape.prod
    · rw [dif_pos hlen] at h
      cases h
    · exact ⟨hfit, by omega⟩
  · simp only [if_neg hfit] at h
    cases h

lemma fromShape_of_le {bits : ℕ} {shape : List ℕ} {data : List F}
    (hfit : nonzeroSize shape ≤ isizeMax bits) (hlen : shape.prod ≤ data.length) :
    ∃ a, fromShape bits shape data = .ok a := by
  simp only [fromShape, sizeOfShapeChecked, if_pos hfit]
  rw [dif_neg (by omega)]
  exact ⟨_, rfl⟩

lemma fatal_of_panic {target : Target} {session : Session F} {msg : WorkerMessage F}
    (h : processMessage target session msg = .panic) : Fatal target session msg := by
  unfold processMessage at h
  split at h
  · cases h
  rename_i hview
  split at h
  · exact ⟨hview, .inl ‹_›⟩
  · cases h
  rename_i outputs hrun
  split at h
  · cases h
  · cases h
  rename_i shape data hlook
  refine ⟨hview, .inr ⟨outputs, shape, data, hrun, hlook, ?_⟩⟩
  split at h
  · rename_i hshape
    unfold Unsliceable
    rw [hshape]
    trivial
  rename_i batchSize tail hshape
  unfold Unsliceable
  rw [hshape]
  split at h
  · cases h
  rename_i batchView hview
  obtain ⟨hfit, hlen⟩ := fromShape_eq_ok hview
  by_cases hcap : target.capacityOverflow target.arraySize batchSize
  · exact ⟨hfit, hlen, hcap⟩
  · rw [if_neg hcap, sliceOutputs_rows (shape_fromShape hview) hfit] at h
    cases h

lemma panic_of_fatal {target : Target} {session : Session F} {msg : WorkerMessage F}
    (h : Fatal target session msg) : processMessage target session msg = .panic := by
  obtain ⟨hview, hpanic | ⟨outputs, shape, data, hrun, hlook, hu⟩⟩ := h
  · simp only [processMessage, hview, hpanic]
  · unfold Unsliceable at hu
    split at hu
    · rename_i hshape
      simp only [processMessage, hview, hrun, hlook, hshape]
    · rename_i batchSize tail hshape
      obtain ⟨hfit, hlen, hcap⟩ := hu
      obtain ⟨batchView, hbatchView⟩ := fromShape_of_le hfit hlen
      simp only [processMessage, hview, hrun, hlook, hshape, hbatchView, if_pos hcap]

/-! ### The loop -/

/-- The messages still to come, the thread, and the replies in the order they were sent. -/
structure Loop (F : Type) where
  incoming : List (WorkerMessage F)
  thread : WorkerThread F
  replies : List (ℕ × Reply F)

inductive LoopAction where
  | arrive
  | take
  | process
  deriving DecidableEq

section Machine

variable (S : Setup I P O F) (msgs : List (WorkerMessage F))

/-- What a step of the thread makes of the loop. -/
def Loop.after (l : Loop F) (r : WorkerEffect I P O F) : Loop F :=
  { l with thread := r.thread, replies := l.replies ++ r.replies }

def Loop.step (l : Loop F) (a : LoopAction) : Option (Loop F) :=
  match a with
  | .arrive =>
    match l.incoming with
    | [] => none
    | msg :: rest =>
      some { l with
        incoming := rest
        thread := { l.thread with queue := l.thread.queue ++ [msg] } }
  | .take => (l.thread.step S false 0 .take).map l.after
  | .process => (l.thread.step S false 0 .process).map l.after

/-- The loop of a worker whose session is built, from before its first message. -/
def workerLoop : Machine (Loop F) LoopAction where
  start := ⟨msgs, ⟨[], .receiving⟩, []⟩
  step l a := l.step S a

/-- The message in the hands of the thread. -/
def WorkerThread.inHand (t : WorkerThread F) : List (WorkerMessage F) :=
  match t.state with
  | .processing msg => [msg]
  | _ => []

/-- The messages that have not been processed. -/
def Loop.rest (l : Loop F) : List (WorkerMessage F) :=
  l.thread.inHand ++ l.thread.queue ++ l.incoming

/-- What becomes of the `result_tx` of a message. -/
def replyTo (msg : WorkerMessage F) : ℕ × Reply F :=
  (msg.resultTx,
    match processMessage S.target S.session msg with
    | .ok slicedOutputs => .ok slicedOutputs
    | .err e => .err e
    | .panic => .closed)

/-- One value is sent for the message: `Ok` with one slice for each index of the first axis of its
output tensor, in order, or `Err`. -/
def Answered (msg : WorkerMessage F) (r : ℕ × Reply F) : Prop :=
  r.1 = msg.resultTx ∧
    ((∃ e, r.2 = .err e) ∨
      ∃ out slices, OutputTensor S.target S.session msg out ∧ r.2 = .ok slices ∧
        slices.length = out.shape.headD 0 ∧ slices = out.rows)

/-- The worker is alive, has answered each message it has processed, in order, and can go on until all
are processed and it waits for the next. -/
structure Loop.Serves (l : Loop F) : Prop where
  alive : l.thread.state ≠ .dead
  answered : ∃ processed, msgs = processed ++ l.rest ∧
    List.Forall₂ (Answered S) processed l.replies
  goesOn : ∃ l', (workerLoop S msgs).Reaches l l' ∧ l'.rest = [] ∧ l'.thread.state = .receiving

end Machine

/-! ### What is processed -/

variable {S : Setup I P O F} {msgs : List (WorkerMessage F)} {l l' : Loop F} {a : LoopAction}

/-- The state of the thread tells whether one of the messages was fatal. -/
def Loop.Tells (S : Setup I P O F) (processed : List (WorkerMessage F)) (l : Loop F) : Prop :=
  match l.thread.state with
  | .receiving => ∀ msg ∈ processed, ¬ Fatal S.target S.session msg
  | .processing _ => ∀ msg ∈ processed, ¬ Fatal S.target S.session msg
  | .dead => ∃ msg ∈ processed, Fatal S.target S.session msg
  | .initializing => False
  | .ended => False

/-- The loop has processed `processed`. -/
structure Loop.Has (S : Setup I P O F) (msgs processed : List (WorkerMessage F)) (l : Loop F) :
    Prop where
  split : msgs = processed ++ l.rest
  replies : l.replies = processed.map (replyTo S)
  tells : l.Tells S processed

lemma Loop.Has.start (S : Setup I P O F) (msgs : List (WorkerMessage F)) :
    (workerLoop S msgs).start.Has S msgs [] := by
  refine ⟨rfl, rfl, ?_⟩
  intro msg hm
  cases hm

/-- **One step**: a message that arrives or is taken is still to be processed, and one that is processed
gets its reply. -/
theorem Loop.Has.step {processed : List (WorkerMessage F)} (h : l.Has S msgs processed)
    (hs : (workerLoop S msgs).step l a = some l') : ∃ processed', l'.Has S msgs processed' := by
  obtain ⟨incoming, ⟨queue, state⟩, replies⟩ := l
  obtain ⟨hsplit, hreplies, htells⟩ := h
  obtain rfl : replies = processed.map (replyTo S) := hreplies
  cases a with
  | arrive =>
    cases incoming with
    | nil => cases hs
    | cons msg rest =>
      obtain rfl := Option.some.inj hs
      refine ⟨processed, ?_, rfl, htells⟩
      rw [hsplit]
      simp [Loop.rest, WorkerThread.inHand]
  | take =>
    obtain ⟨r, hr, rfl⟩ := Option.map_eq_some_iff.1 hs
    cases WorkerThread.step_move hr with
    | take msg rest hstate hq =>
      obtain rfl : state = .receiving := hstate
      obtain rfl : queue = msg :: rest := hq
      refine ⟨processed, ?_, ?_, htells⟩
      · rw [hsplit]
        simp [Loop.rest, WorkerThread.inHand, Loop.after]
      · simp [Loop.after]
  | process =>
    obtain ⟨r, hr, rfl⟩ := Option.map_eq_some_iff.1 hs
    obtain ⟨msg, rfl⟩ : ∃ msg, state = .processing msg := by
      cases WorkerThread.step_move hr with
      | served msg outputs hstate => exact ⟨msg, hstate⟩
      | failed msg e hstate => exact ⟨msg, hstate⟩
      | panicked msg hstate => exact ⟨msg, hstate⟩
    have hnext : msgs = (processed ++ [msg]) ++ (queue ++ incoming) := by
      rw [hsplit]
      simp [Loop.rest, WorkerThread.inHand]
    have hsafe : processMessage S.target S.session msg ≠ .panic →
        ∀ m ∈ processed ++ [msg], ¬ Fatal S.target S.session m := by
      intro hmsg m hm
      rcases List.mem_append.1 hm with hm | hm
      · exact htells m hm
      · rw [List.mem_singleton.1 hm]
        exact fun hf => hmsg (panic_of_fatal hf)
    refine ⟨processed ++ [msg], ?_⟩
    cases WorkerThread.step_move hr with
    | served msg' outputs hstate hok =>
      obtain rfl := WorkerState.processing.inj hstate
      refine ⟨hnext, ?_, hsafe (by simp [hok])⟩
      simp [Loop.after, replyTo, hok]
    | failed msg' e hstate herr =>
      obtain rfl := WorkerState.processing.inj hstate
      refine ⟨hnext, ?_, hsafe (by simp [herr])⟩
      simp [Loop.after, replyTo, herr]
    | panicked msg' hstate hpanic =>
      obtain rfl := WorkerState.processing.inj hstate
      refine ⟨hnext, ?_, msg, by simp, fatal_of_panic hpanic⟩
      simp [Loop.after, replyTo, hpanic]

theorem Loop.has (h : (workerLoop S msgs).Reachable l) : ∃ processed, l.Has S msgs processed := by
  refine h.invariant (P := fun l => ∃ processed, l.Has S msgs processed) ⟨[], Loop.Has.start S msgs⟩ ?_
  rintro u a v - ⟨processed, hu⟩ hs
  exact hu.step hs

/-! ### Going on -/

/-- A bound on the steps to come. -/
def Loop.work (l : Loop F) : ℕ :=
  l.thread.inHand.length + 2 * l.thread.queue.length + 3 * l.incoming.length

/-- As long as no message is fatal, there is a next step or nothing left to do. -/
lemma Loop.Has.next {processed : List (WorkerMessage F)} (h : l.Has S msgs processed)
    (hmsgs : ∀ msg ∈ msgs, ¬ Fatal S.target S.session msg) :
    (l.rest = [] ∧ l.thread.state = .receiving) ∨
      ∃ a l', (workerLoop S msgs).step l a = some l' ∧ l'.work < l.work := by
  obtain ⟨incoming, ⟨queue, state⟩, replies⟩ := l
  obtain ⟨hsplit, -, htells⟩ := h
  cases state with
  | initializing => exact htells.elim
  | ended => exact htells.elim
  | dead =>
    obtain ⟨msg, hm, hf⟩ := htells
    refine absurd hf (hmsgs msg ?_)
    rw [hsplit]
    exact List.mem_append_left _ hm
  | processing msg =>
    have hmem : msg ∈ msgs := by
      rw [hsplit]
      simp [Loop.rest, WorkerThread.inHand]
    have hpanic : processMessage S.target S.session msg ≠ .panic := fun h =>
      hmsgs msg hmem (fatal_of_panic h)
    refine .inr ⟨.process, ?_⟩
    cases hmsg : processMessage S.target S.session msg with
    | panic => exact absurd hmsg hpanic
    | ok slicedOutputs =>
      refine ⟨⟨incoming, ⟨queue, .receiving⟩, replies ++ [(msg.resultTx, .ok slicedOutputs)]⟩, ?_, ?_⟩
      · simp [workerLoop, Loop.step, WorkerThread.step, hmsg, Loop.after]
      · simp [Loop.work, WorkerThread.inHand]
    | err e =>
      refine ⟨⟨incoming, ⟨queue, .receiving⟩, replies ++ [(msg.resultTx, .err e)]⟩, ?_, ?_⟩
      · simp [workerLoop, Loop.step, WorkerThread.step, hmsg, Loop.after]
      · simp [Loop.work, WorkerThread.inHand]
  | receiving =>
    cases queue with
    | cons msg rest =>
      refine .inr ⟨.take, ⟨incoming, ⟨rest, .processing msg⟩, replies ++ []⟩, rfl, ?_⟩
      simp only [Loop.work, WorkerThread.inHand, List.length_cons, List.length_nil]
      omega
    | nil =>
      cases incoming with
      | nil => exact .inl ⟨rfl, rfl⟩
      | cons msg rest =>
        refine .inr ⟨.arrive, ⟨rest, ⟨[msg], .receiving⟩, replies⟩, rfl, ?_⟩
        simp only [Loop.work, WorkerThread.inHand, List.length_cons, List.length_nil]
        omega

/-- So the loop can be run until nothing is left. -/
lemma Loop.goesOn (hl : (workerLoop S msgs).Reachable l)
    (hmsgs : ∀ msg ∈ msgs, ¬ Fatal S.target S.session msg) :
    ∃ l', (workerLoop S msgs).Reaches l l' ∧ l'.rest = [] ∧ l'.thread.state = .receiving := by
  generalize hn : l.work = n
  induction n using Nat.strong_induction_on generalizing l with
  | _ n ih =>
    obtain ⟨processed, h⟩ := Loop.has hl
    rcases h.next hmsgs with ⟨hrest, hstate⟩ | ⟨a, l', hs, hlt⟩
    · exact ⟨l, .refl l, hrest, hstate⟩
    · obtain ⟨v, hv, hrest, hstate⟩ := ih _ (by omega) (hl.tail hs) rfl
      exact ⟨v, (Machine.Reaches.single hs).trans hv, hrest, hstate⟩

lemma answered_replyTo {msg : WorkerMessage F} (h : ¬ Fatal S.target S.session msg) :
    Answered S msg (replyTo S msg) := by
  refine ⟨rfl, ?_⟩
  unfold replyTo
  cases hmsg : processMessage S.target S.session msg with
  | panic => exact absurd (fatal_of_panic hmsg) h
  | err e => exact .inl ⟨e, rfl⟩
  | ok slicedOutputs =>
    obtain ⟨out, hout, rfl⟩ := processMessage_ok hmsg
    exact .inr ⟨out, _, hout, rfl, ArrayD.length_rows out, rfl⟩

/-- **A worker serves all its messages just when none is fatal.**  For every session, list of messages
and order in which they arrive and are taken: in every state the thread is alive, has sent exactly one
value for each message it has processed, `Ok` with a slice for each index of the first axis or `Err`,
and can go on to receive the next message, if and only if for no message the session panics or returns
an output tensor that is unsliceable: without a first axis, or with one for whose slices no vector can
be allocated. -/
theorem worker_serves_iff (S : Setup I P O F) (msgs : List (WorkerMessage F)) :
    (∀ l, (workerLoop S msgs).Reachable l → l.Serves S msgs) ↔
      ∀ msg ∈ msgs, ¬ Fatal S.target S.session msg := by
  constructor
  · intro h
    obtain ⟨l, hl, hrest, hstate⟩ := (h _ .start).goesOn
    obtain ⟨processed, hhas⟩ := Loop.has hl
    have htells := hhas.tells
    simp only [Loop.Tells, hstate] at htells
    intro msg hm
    rw [hhas.split, hrest, List.append_nil] at hm
    exact htells msg hm
  · intro h l hl
    obtain ⟨processed, hhas⟩ := Loop.has hl
    have hmem : ∀ msg ∈ processed, msg ∈ msgs := by
      intro msg hm
      rw [hhas.split]
      exact List.mem_append_left _ hm
    refine ⟨?_, ⟨processed, hhas.split, ?_⟩, Loop.goesOn hl h⟩
    · intro hdead
      have htells := hhas.tells
      simp only [Loop.Tells, hdead] at htells
      obtain ⟨msg, hm, hf⟩ := htells
      exact h msg (hmem msg hm) hf
    · rw [hhas.replies, List.forall₂_map_right_iff, List.forall₂_same]
      intro msg hm
      exact answered_replyTo (h msg (hmem msg hm))

/-! ### A scalar output -/

/-- A model that returns one number, whatever its input. -/
def scalarSession : Session ℕ where
  fromArrayView _ _ := .ok ()
  run _ _ _ := .ok [("output", .tensor [] [0])]

/-- Its shape is empty, and the worker that reads the batch size off it dies. -/
theorem not_worker_serves : ¬ ∀ (S : Setup ℕ ℕ ℕ ℕ) (msgs : List (WorkerMessage ℕ)),
    (∀ msg ∈ msgs, S.session.run msg.resultTx msg.inputName msg.batchedTensor ≠ .panic) →
    ∀ l, (workerLoop S msgs).Reachable l → l.Serves S msgs := by
  intro h
  set S : Setup ℕ ℕ ℕ ℕ := { sample with session := scalarSession } with hS
  have hdead : (workerLoop S [⟨single 7, "input", "output", 0⟩]).run
      (workerLoop S [⟨single 7, "input", "output", 0⟩]).start [.arrive, .take, .process] =
      some ⟨[], ⟨[], .dead⟩, [(0, .closed)]⟩ := rfl
  refine (h S [⟨single 7, "input", "output", 0⟩] ?_ _ ⟨_, hdead⟩).alive rfl
  intro msg hm hpanic
  cases hpanic

end OrtSuperserve

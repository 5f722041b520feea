import OrtSuperserve.Server

/-!
# What a step of the server can do

`Step` lists the outcomes of `State.step`: the moves of the calls and handles, a move of the batcher
with what it takes from the channels, and a move of one worker (`WorkerThread.Move`).  The invariants
are proved by cases on it.
-/

namespace OrtSuperserve

open Lib

variable {I P O F : Type}

/-- What a worker thread can do: nothing to its messages, take one into its hands, or be rid of one,
which answers it. -/
inductive WorkerThread.Move (S : Setup I P O F) (t : WorkerThread F) (closed : Bool) (w : ℕ) :
    WorkerAction → WorkerEffect I P O F → Prop where
  | init (hs : t.state = .initializing) :
      Move S t closed w .init { thread := { t with state := .receiving } }
  | take (msg : WorkerMessage F) (rest : List (WorkerMessage F)) (hs : t.state = .receiving)
      (hq : t.queue = msg :: rest) :
      Move S t closed w .take { thread := ⟨rest, .processing msg⟩ }
  | served (msg : WorkerMessage F) (outputs : List (ArrayD F)) (hs : t.state = .processing msg)
      (h : processMessage S.target S.session msg = .ok outputs) :
      Move S t closed w .process
        { thread := { t with state := .receiving }, replies := [(msg.resultTx, .ok outputs)] }
  | failed (msg : WorkerMessage F) (e : String) (hs : t.state = .processing msg)
      (h : processMessage S.target S.session msg = .err e) :
      Move S t closed w .process
        { thread := { t with state := .receiving }, replies := [(msg.resultTx, .err e)] }
  | panicked (msg : WorkerMessage F) (hs : t.state = .processing msg)
      (h : processMessage S.target S.session msg = .panic) :
      Move S t closed w .process
        { thread := { t with state := .dead }
          replies := [(msg.resultTx, .closed)]
          events := [.panic (.worker w)] }
  | exit (hs : t.state = .receiving) (hq : t.queue = []) (hc : closed = true) :
      Move S t closed w .exit { thread := { t with state := .ended } }
  | dieIdle (hs : t.state = .initializing ∨ t.state = .receiving) :
      Move S t closed w .die
        { thread := { t with state := .dead }, events := [.panic (.worker w)] }
  | dieBusy (msg : WorkerMessage F) (hs : t.state = .processing msg) :
      Move S t closed w .die
        { thread := { t with state := .dead }
          replies := [(msg.resultTx, .closed)]
          events := [.panic (.worker w)] }
  | discard (msg : WorkerMessage F) (rest : List (WorkerMessage F)) (hs : t.state = .dead)
      (hq : t.queue = msg :: rest) :
      Move S t closed w .discard
        { thread := { t with queue := rest }, replies := [(msg.resultTx, .closed)] }

lemma WorkerThread.step_move {S : Setup I P O F} {t : WorkerThread F} {closed : Bool} {w : ℕ}
    {a : WorkerAction} {r : WorkerEffect I P O F} (h : t.step S closed w a = some r) :
    WorkerThread.Move S t closed w a r := by
  unfold WorkerThread.step at h
  split at h
  · obtain rfl := Option.some.inj h
    exact .init ‹_›
  · split at h
    · cases h
    · obtain rfl := Option.some.inj h
      exact .take _ _ ‹_› ‹_›
  · split at h <;> obtain rfl := Option.some.inj h
    · exact .served _ _ ‹_› ‹_›
    · exact .failed _ _ ‹_› ‹_›
    · exact .panicked _ ‹_› ‹_›
  · split at h
    · rename_i hg
      obtain rfl := Option.some.inj h
      exact .exit ‹_› (List.isEmpty_iff.1 hg.1) hg.2
    · cases h
  · obtain rfl := Option.some.inj h
    exact .dieIdle (.inl ‹_›)
  · obtain rfl := Option.some.inj h
    exact .dieIdle (.inr ‹_›)
  · obtain rfl := Option.some.inj h
    exact .dieBusy _ ‹_›
  · split at h
    · cases h
    · obtain rfl := Option.some.inj h
      exact .discard _ _ ‹_› ‹_›
  · cases h

/-- What the calls and handles can do. -/
inductive ClientMove (S : Setup I P O F) (s : State I P O F) :
    ClientAction I → State I P O F → Prop where
  | clone (h : ℕ) (hh : s.handles[h]? = some true) :
      ClientMove S s (.clone h) { s with handles := s.handles ++ [true] }
  | infer (h : ℕ) (input : I) (hh : s.handles[h]? = some true) :
      ClientMove S s (.infer h input) { s with calls := s.calls ++ [⟨h, input, .starting⟩] }
  | prepare (c : ℕ) (call : Call I P O) (hc : s.calls[c]? = some call) (hs : call.state = .starting) :
      ClientMove S s (.prepare c)
        { s.setCall c call (OrtSuperserve.prepare S c call.input).1 with
          log := s.log ++ (OrtSuperserve.prepare S c call.input).2 }
  | send (c : ℕ) (call : Call I P O) (cmd : Command I P) (hc : s.calls[c]? = some call)
      (hs : call.state = .sending cmd) (hg : s.batcher.gone = false) :
      ClientMove S s (.send c)
        { s.setCall c call .waiting with
          commandQueue := s.commandQueue ++ [cmd]
          log := s.log ++ [.accepted cmd] }
  | refused (c : ℕ) (call : Call I P O) (cmd : Command I P) (hc : s.calls[c]? = some call)
      (hs : call.state = .sending cmd) (hg : s.batcher.gone = true) :
      ClientMove S s (.send c) (s.setCall c call (.returned (.error .serverChannelClosed)))
  | receive (c : ℕ) (call : Call I P O) (fate : Fate O) (hc : s.calls[c]? = some call)
      (hs : call.state = .waiting) (hf : (fates s.log).lookup c = some fate) :
      ClientMove S s (.receive c) (s.setCall c call (.returned fate.response))
  | cancel (c : ℕ) (call : Call I P O) (hc : s.calls[c]? = some call)
      (hs : call.state.running = true) :
      ClientMove S s (.cancel c) (s.setCall c call .cancelled)
  | shutdown (h : ℕ) (hh : s.handles[h]? = some true)
      (hu : ∀ call ∈ s.calls, call.handle = h → call.state.running = false) :
      ClientMove S s (.shutdown h) { s with handles := s.handles.set h false }

lemma State.unused_iff {s : State I P O F} {h : ℕ} :
    s.unused h = true ↔ ∀ call ∈ s.calls, call.handle = h → call.state.running = false := by
  simp only [State.unused, List.all_eq_true, Bool.not_eq_true', Bool.and_eq_false_iff,
    beq_eq_false_iff_ne]
  refine forall₂_congr fun call _ => ?_
  tauto

lemma State.clientStep_move {S : Setup I P O F} {s s' : State I P O F} {a : ClientAction I}
    (h : s.clientStep S a = some s') : ClientMove S s a s' := by
  unfold State.clientStep at h
  split at h
  · split at h
    · obtain rfl := Option.some.inj h
      exact .clone _ ‹_›
    · cases h
  · split at h
    · obtain rfl := Option.some.inj h
      exact .infer _ _ ‹_›
    · cases h
  · split at h
    · obtain rfl := Option.some.inj h
      exact .prepare _ _ ‹_› rfl
    · cases h
  · split at h
    · split at h <;> obtain rfl := Option.some.inj h
      · exact .refused _ _ _ ‹_› rfl ‹_›
      · exact .send _ _ _ ‹_› rfl (Bool.eq_false_iff.2 ‹_›)
    · cases h
  · split at h
    · obtain rfl := Option.some.inj h
      exact .receive _ _ _ ‹_› rfl ‹_›
    · cases h
  · split at h
    · split at h
      · obtain rfl := Option.some.inj h
        exact .cancel _ _ ‹_› ‹_›
      · cases h
    · cases h
  · split at h
    · rename_i hg
      obtain rfl := Option.some.inj h
      exact .shutdown _ hg.1 (State.unused_iff.1 hg.2)
    · cases h

/-- **What a step of the server can do.** -/
inductive Step (S : Setup I P O F) (s : State I P O F) : Action I → State I P O F → Prop where
  | client (a : ClientAction I) (s' : State I P O F) (hm : ClientMove S s a s') :
      Step S s (.client a) s'
  | recv (cmd : Command I P) (rest : List (Command I P)) (b' : Batcher I P F)
      (evs : List (Event I P O F)) (hq : s.commandQueue = cmd :: rest)
      (hm : Batcher.Move S s.batcher (.recv cmd) b' evs) :
      Step S s (.batcher .recv)
        { s with batcher := b', commandQueue := rest, log := s.log ++ evs }
  | closed (b' : Batcher I P F) (evs : List (Event I P O F)) (hq : s.commandQueue = [])
      (hh : ∀ x ∈ s.handles, x = false) (hm : Batcher.Move S s.batcher .closed b' evs) :
      Step S s (.batcher .closed) { s with batcher := b', log := s.log ++ evs }
  | dispatch (b' : Batcher I P F) (evs : List (Event I P O F))
      (hm : Batcher.Move S s.batcher (.sent (s.accepts S)) b' evs) :
      Step S s (.batcher .dispatch) (s.afterBatcher (s.chosen S) (b', evs))
  | reply (r : Reply F) (b' : Batcher I P F) (evs : List (Event I P O F))
      (hr : s.replies.lookup s.batcher.round = some r)
      (hm : Batcher.Move S s.batcher (.reply r) b' evs) :
      Step S s (.batcher .reply)
        { s with
          batcher := b'
          replies := s.replies.eraseP fun y => y.1 == s.batcher.round
          log := s.log ++ evs }
  | turn (t : Turn) (b' : Batcher I P F) (evs : List (Event I P O F))
      (hm : Batcher.Move S s.batcher (.turn t) b' evs) :
      Step S s (.batcher (.turn t)) { s with batcher := b', log := s.log ++ evs }
  | worker (w : ℕ) (a : WorkerAction) (t : WorkerThread F) (r : WorkerEffect I P O F)
      (ht : s.workers[w]? = some t) (hm : t.Move S s.batcher.gone w a r) :
      Step S s (.worker w a)
        { s with
          workers := s.workers.set w r.thread
          replies := r.replies ++ s.replies
          log := s.log ++ r.events }
  | discard (cmd : Command I P) (rest : List (Command I P)) (hq : s.commandQueue = cmd :: rest)
      (hg : s.batcher.gone = true) :
      Step S s .discard { s with commandQueue := rest, log := s.log ++ [.drop cmd.responder] }

section

variable {S : Setup I P O F} {s s' : State I P O F}

lemma State.batcherStep_step {a : BatcherTaskAction} (h : s.batcherStep S a = some s') :
    Step S s (.batcher a) s' := by
  unfold State.batcherStep at h
  split at h
  · split at h
    · cases h
    · obtain ⟨⟨b', evs⟩, hst, rfl⟩ := Option.map_eq_some_iff.1 h
      exact .recv _ _ b' evs ‹_› (Batcher.step_move hst)
  · split at h
    · rename_i hg
      obtain ⟨⟨b', evs⟩, hst, rfl⟩ := Option.map_eq_some_iff.1 h
      exact .closed b' evs (List.isEmpty_iff.1 hg.1) (by simpa using hg.2) (Batcher.step_move hst)
    · cases h
  · obtain ⟨⟨b', evs⟩, hst, rfl⟩ := Option.map_eq_some_iff.1 h
    exact .dispatch b' evs (Batcher.step_move hst)
  · split at h
    · cases h
    · obtain ⟨⟨b', evs⟩, hst, rfl⟩ := Option.map_eq_some_iff.1 h
      exact .reply _ b' evs ‹_› (Batcher.step_move hst)
  · obtain ⟨⟨b', evs⟩, hst, rfl⟩ := Option.map_eq_some_iff.1 h
    exact .turn _ b' evs (Batcher.step_move hst)

/-- **Every step of the server is one of these.** -/
theorem server_step {a : Action I} (h : (server S).step s a = some s') : Step S s a s' := by
  have h : s.step S a = some s' := h
  unfold State.step at h
  split at h
  · exact .client _ _ (State.clientStep_move h)
  · exact State.batcherStep_step h
  · simp only [State.workerStep] at h
    split at h
    · cases h
    · obtain ⟨r, hst, rfl⟩ := Option.map_eq_some_iff.1 h
      exact .worker _ _ _ r ‹_› (WorkerThread.step_move hst)
  · simp only [State.discardStep] at h
    split at h
    · cases h
    · split at h
      · obtain rfl := Option.some.inj h
        exact .discard _ _ ‹_› ‹_›
      · cases h

/-! ### And these are its steps -/

lemma WorkerThread.Move.step_eq {t : WorkerThread F} {closed : Bool} {w : ℕ} {a : WorkerAction}
    {r : WorkerEffect I P O F} (h : t.Move S closed w a r) : t.step S closed w a = some r := by
  cases h with
  | init hs => simp only [WorkerThread.step, hs]
  | take msg rest hs hq => simp only [WorkerThread.step, hs, hq]
  | served msg outputs hs h => simp only [WorkerThread.step, hs, h]
  | failed msg e hs h => simp only [WorkerThread.step, hs, h]
  | panicked msg hs h => simp only [WorkerThread.step, hs, h]
  | exit hs hq hc => simp [WorkerThread.step, hs, hq, hc]
  | dieIdle hs => rcases hs with hs | hs <;> simp only [WorkerThread.step, hs]
  | dieBusy msg hs => simp only [WorkerThread.step, hs]
  | discard msg rest hs hq => simp only [WorkerThread.step, hs, hq]

lemma ClientMove.step_eq {a : ClientAction I} (h : ClientMove S s a s') :
    s.clientStep S a = some s' := by
  cases h with
  | clone h hh => simp only [State.clientStep, if_pos hh]
  | infer h input hh => simp only [State.clientStep, if_pos hh]
  | prepare c call hc hs =>
    obtain ⟨h, input, state⟩ := call
    obtain rfl : state = .starting := hs
    simp only [State.clientStep, hc]
  | send c call cmd hc hs hg =>
    obtain ⟨h, input, state⟩ := call
    obtain rfl : state = .sending cmd := hs
    simp [State.clientStep, hc, hg]
  | refused c call cmd hc hs hg =>
    obtain ⟨h, input, state⟩ := call
    obtain rfl : state = .sending cmd := hs
    simp only [State.clientStep, hc, if_pos hg]
  | receive c call fate hc hs hf =>
    obtain ⟨h, input, state⟩ := call
    obtain rfl : state = .waiting := hs
    simp only [State.clientStep, hc, hf]
  | cancel c call hc hs => simp only [State.clientStep, hc, if_pos hs]
  | shutdown h hh hu => simp only [State.clientStep, if_pos (And.intro hh (State.unused_iff.2 hu))]

/-- A dispatch leaves the threads in their states. -/
lemma exists_of_afterBatcher {w : ℕ} {r : Batcher I P F × List (Event I P O F)} {t : WorkerThread F}
    (ht : t ∈ (s.afterBatcher w r).workers) : ∃ t' ∈ s.workers, t'.state = t.state := by
  obtain ⟨i, hi⟩ := List.mem_iff_getElem?.1 ht
  simp only [State.afterBatcher, List.getElem?_modify] at hi
  obtain ⟨t', ht', rfl⟩ := Option.map_eq_some_iff.1 hi
  refine ⟨t', List.mem_of_getElem? ht', ?_⟩
  by_cases hw : w = i
  · rw [if_pos hw]
  · rw [if_neg hw]

/-! ### A step of the batcher is a step of the server -/

variable {b' : Batcher I P F} {evs : List (Event I P O F)}

lemma step_recv {cmd : Command I P} {rest : List (Command I P)} (hq : s.commandQueue = cmd :: rest)
    (h : s.batcher.step S (.recv cmd) = some (b', evs)) :
    (server S).step s (.batcher .recv) =
      some { s with batcher := b', commandQueue := rest, log := s.log ++ evs } := by
  simp only [server, State.step, State.batcherStep, hq, h, Option.map_some]

lemma step_dispatch (h : s.batcher.step S (.sent (s.accepts S)) = some (b', evs)) :
    (server S).step s (.batcher .dispatch) = some (s.afterBatcher (s.chosen S) (b', evs)) := by
  simp only [server, State.step, State.batcherStep, h, Option.map_some]

lemma step_turn {t : Turn} (h : s.batcher.step S (.turn t) = some (b', evs)) :
    (server S).step s (.batcher (.turn t)) =
      some { s with batcher := b', log := s.log ++ evs } := by
  simp only [server, State.step, State.batcherStep, h, Option.map_some]

/-- **`Step` is the step of the server.** -/
theorem Step.step_eq {a : Action I} (h : Step S s a s') : (server S).step s a = some s' := by
  cases h with
  | client a s' hm => exact hm.step_eq
  | recv cmd rest b' evs hq hm => exact step_recv hq hm.step_eq
  | closed b' evs hq hh hm =>
    have hall : s.commandQueue.isEmpty ∧ s.handles.all (!·) := by simpa [hq] using hh
    simp only [server, State.step, State.batcherStep, if_pos hall, hm.step_eq, Option.map_some]
  | dispatch b' evs hm => exact step_dispatch hm.step_eq
  | reply r b' evs hr hm =>
    simp only [server, State.step, State.batcherStep, hr, hm.step_eq, Option.map_some]
  | turn t b' evs hm => exact step_turn hm.step_eq
  | worker w a t r ht hm =>
    simp only [server, State.step, State.workerStep, ht, hm.step_eq, Option.map_some]
  | discard cmd rest hq hg =>
    simp only [server, State.step, State.discardStep, hq, if_pos hg]

end

end OrtSuperserve

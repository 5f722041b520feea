import OrtSuperserve.Liveness

/-!
# Shutting down

A call of `infer` borrows its handle, the batcher stops when the last handle is dropped and the channel
is empty, and the workers stop behind the batcher.  So, as long as no task panics, nothing is lost
(`shutdown_loses_nothing`): what a stopped server has accepted it has answered, no call meets a closed
channel, and dropping one handle is nothing to the calls on the others.
-/

namespace OrtSuperserve

open Lib

variable {I P O F : Type} {S : Setup I P O F} {s s' : State I P O F} {a : Action I}

/-- No task has panicked. -/
def State.Calm (s : State I P O F) : Prop := ∀ t, .panic t ∉ s.log

lemma Step.calm (h : Step S s a s') (hc : s'.Calm) : s.Calm := fun t ht =>
  hc t (h.log_grows.subset ht)

/-! ### The handles -/

/-- A call that runs borrows a handle that is alive. -/
def State.Borrowed (s : State I P O F) : Prop :=
  ∀ call ∈ s.calls, call.state.running = true → s.handles[call.handle]? = some true

lemma Step.borrowed (h : Step S s a s') (hs : s.Borrowed) : s'.Borrowed := by
  -- a call that goes on was running before
  have hset : ∀ {c : ℕ} {call : Call I P O} {st : CallState I P O}, s.calls[c]? = some call →
      (st.running = true → call.state.running = true) →
      ∀ x ∈ s.calls.set c { call with state := st }, x.state.running = true →
        s.handles[x.handle]? = some true := by
    intro c call st hc hrun x hx hr
    rcases List.mem_or_eq_of_mem_set hx with hx | rfl
    · exact hs x hx hr
    · exact hs call (List.mem_of_getElem? hc) (hrun hr)
  cases h with
  | client a _ hm =>
    cases hm with
    | clone h hh =>
      intro call hc hr
      have := hs call hc hr
      rw [List.getElem?_append_left (List.getElem?_eq_some_iff.1 this).1]
      exact this
    | infer h input hh =>
      intro call hc hr
      rcases List.mem_append.1 hc with hc | hc
      · exact hs call hc hr
      · rw [List.mem_singleton.1 hc]
        exact hh
    | shutdown h hh hu =>
      intro call hc hr
      have hne : h ≠ call.handle := by
        intro he
        rw [hu call hc he.symm] at hr
        cases hr
      rw [List.getElem?_set_ne hne]
      exact hs call hc hr
    | prepare c call hc hsc => exact hset hc fun _ => by rw [hsc]; rfl
    | send c call cmd hc hsc => exact hset hc fun _ => by rw [hsc]; rfl
    | refused c call cmd hc hsc => exact hset hc fun _ => by rw [hsc]; rfl
    | receive c call fate hc hsc => exact hset hc fun _ => by rw [hsc]; rfl
    | cancel c call hc hsc => exact hset hc fun _ => hsc
  | _ => exact hs

lemma handle_of_running (hs : (server S).Reachable s) : s.Borrowed := by
  refine hs.invariant (P := State.Borrowed) ?_ fun _ _ _ _ hu hst => (server_step hst).borrowed hu
  intro call hc
  cases hc

/-- When the channel is closed no call runs. -/
lemma not_running (hs : (server S).Reachable s) (hh : ∀ x ∈ s.handles, x = false) :
    ∀ call ∈ s.calls, call.state.running = false := by
  intro call hc
  by_contra hr
  have := handle_of_running hs call hc (by simpa using hr)
  exact absurd (hh true (List.mem_of_getElem? this)) (by simp)

/-- A batcher that has stopped has outlived the handles. -/
def State.Outlived (s : State I P O F) : Prop :=
  s.batcher.phase = .stopped → ∀ x ∈ s.handles, x = false

lemma Step.outlived (h : Step S s a s') (hs : s.Outlived) : s'.Outlived := by
  cases h with
  | client a _ hm =>
    cases hm with
    | clone h hh => exact fun hp => absurd (hs hp true (List.mem_of_getElem? hh)) (by simp)
    | shutdown h hh hu =>
      intro hp x hx
      rcases List.mem_or_eq_of_mem_set hx with hx | rfl
      · exact hs hp x hx
      · rfl
    | _ => exact hs
  | closed b' evs hq hh hm => exact fun _ => hh
  | recv cmd rest b' evs hq hm => exact fun hp => by cases hm.closed_of_stopped hp
  | dispatch b' evs hm => exact fun hp => by cases hm.closed_of_stopped hp
  | reply r b' evs hr hm => exact fun hp => by cases hm.closed_of_stopped hp
  | turn t b' evs hm => exact fun hp => by cases hm.closed_of_stopped hp
  | worker => exact hs
  | discard => exact hs

lemma handles_of_stopped (hs : (server S).Reachable s) : s.Outlived := by
  refine hs.invariant (P := State.Outlived) ?_ fun _ _ _ _ hu hst => (server_step hst).outlived hu
  intro hp
  cases hp

/-! ### Nothing goes wrong without a panic -/

namespace Batcher

variable {V : WorkerMessage F → Reply F → Prop} {batch : List (Command I P)} {b b' : Batcher I P F}
  {l : BatcherAction I P F} {evs : List (Event I P O F)}

/-- The batcher unwinds by a panic. -/
lemma Move.panicked (h : Move S b l b' evs) (hp : b'.phase = .panicked) : .panic .batcher ∈ evs := by
  cases h with
  | more cmd hp' => simp [hp'] at hp
  | spawn => simp [spawnPreprocess] at hp
  | _ => simp_all [nextRound]

/-- A postprocessing that panics leaves its trace. -/
lemma Move.postprocess_panic (h : Move S b l b' evs) {c : ℕ} {row : ArrayD F}
    (hm : (c, row) ∈ postprocessCalls evs) (hp : S.user.postprocess c row = .panic) :
    .panic (.postprocess c) ∈ evs := by
  cases h with
  | post tasks k rawOutput d =>
    unfold postprocessed at hm ⊢
    split at hm <;> simp at hm <;> obtain ⟨rfl, rfl⟩ := hm <;> simp_all
  | spawn => simp [spawnPreprocess] at hm
  | _ => simp [sendErr, dropAll] at hm

/-- A responder is dropped by a panic. -/
lemma Move.dropped (h : Move S b l b' evs) (hf : b.Fits S V batch) {c : ℕ}
    (hm : (c, .dropped) ∈ fates evs) : ∃ t, .panic t ∈ evs := by
  cases h.fated hf hm with
  | unwound hp => exact ⟨_, h.panicked hp⟩
  | panic row hcall hp => exact ⟨_, h.postprocess_panic hcall hp⟩

end Batcher

/-- A worker dies of a panic. -/
def State.DeadByPanic (s : State I P O F) : Prop :=
  ∀ t ∈ s.workers, t.state = .dead → ∃ w, .panic (.worker w) ∈ s.log

lemma Step.deadByPanic (h : Step S s a s') (hs : s.DeadByPanic) : s'.DeadByPanic := by
  have hold : ∀ t ∈ s.workers, t.state = .dead → ∃ w, .panic (.worker w) ∈ s'.log := by
    intro t ht hd
    obtain ⟨w, hw⟩ := hs t ht hd
    exact ⟨w, h.log_grows.subset hw⟩
  cases h with
  | client a _ hm => cases hm <;> exact hold
  | dispatch b' evs hm =>
    intro t ht hd
    obtain ⟨t', ht', hstate⟩ := exists_of_afterBatcher ht
    exact hold t' ht' (hstate.trans hd)
  | worker w b t r ht hm =>
    intro t' ht' hd
    rcases List.mem_or_eq_of_mem_set ht' with ht' | rfl
    · exact hold t' ht' hd
    · cases hm with
      | panicked => exact ⟨w, by simp⟩
      | dieIdle => exact ⟨w, by simp⟩
      | dieBusy => exact ⟨w, by simp⟩
      | discard msg rest hdead => exact hold t (List.mem_of_getElem? ht) hdead
      | _ => simp_all
  | _ => exact hold

lemma panic_of_dead (hs : (server S).Reachable s) : s.DeadByPanic := by
  refine hs.invariant (P := State.DeadByPanic) ?_ fun _ _ _ _ hu hst => (server_step hst).deadByPanic hu
  intro t ht hd
  rw [(List.mem_replicate.1 ht).2] at hd
  cases hd

/-- What holds while no task has panicked. -/
structure Peaceful (s : State I P O F) : Prop where
  batcher : s.batcher.phase ≠ .panicked
  workers : ∀ t ∈ s.workers, t.state ≠ .dead
  fates : ∀ c, (c, .dropped) ∉ fates s.log
  calls : ∀ call ∈ s.calls, call.state ≠ .returned (.error .serverChannelClosed)

/-- A batcher that is gone without a panic has stopped. -/
lemma Peaceful.stopped (h : Peaceful s) (hg : s.batcher.gone = true) : s.batcher.phase = .stopped := by
  unfold Batcher.gone at hg
  split at hg
  · assumption
  · exact absurd ‹_› h.batcher
  · cases hg

lemma Step.batcher_calm (h : Step S s a s') (hp : s.batcher.phase ≠ .panicked) (hc : s'.Calm) :
    s'.batcher.phase ≠ .panicked := by
  cases h.effect with
  | batcher l evs move log =>
    intro hp'
    refine hc .batcher ?_
    rw [log]
    exact List.mem_append_right _ (move.panicked hp')
  | accepted cmd batcher => rwa [batcher]
  | dropped cmd batcher => rwa [batcher]
  | quiet evs batcher => rwa [batcher]

lemma Step.fates_calm (h : Step S s a s') (hst : Stream S s) (hp : Peaceful s) (hc : s'.Calm) (c : ℕ) :
    (c, .dropped) ∉ fates s'.log := by
  intro hm
  cases h.effect with
  | batcher l evs move log =>
    rw [log, fates_append, List.mem_append] at hm
    obtain ⟨t, ht⟩ := move.dropped hst.fits (hm.resolve_left (hp.fates c))
    exact hc t (by rw [log]; exact List.mem_append_right _ ht)
  | accepted cmd _ _ log =>
    rw [log, fates_append, List.mem_append] at hm
    exact hp.fates c (hm.resolve_right (by simp))
  | dropped cmd batcher gone log queue =>
    rw [hst.stopped (hp.stopped gone)] at queue
    cases queue
  | quiet evs _ quiet log =>
    have hnil : fates evs = [] := quiet.fates_eq
    rw [log, fates_append, hnil, List.append_nil] at hm
    exact hp.fates c hm

/-- A command that is sent is not refused: its call keeps a handle alive. -/
lemma Peaceful.not_refused (hp : Peaceful s) (hs : (server S).Reachable s) {c : ℕ} {call : Call I P O}
    (hc : s.calls[c]? = some call) (hr : call.state.running = true) : s.batcher.gone = false := by
  by_contra hg
  have hh := handles_of_stopped hs (hp.stopped (by simpa using hg))
  have hn := not_running hs hh call (List.mem_of_getElem? hc)
  rw [hr] at hn
  cases hn

lemma Step.calls_calm (h : Step S s a s') (hs : (server S).Reachable s) (hp : Peaceful s) :
    ∀ call ∈ s'.calls, call.state ≠ .returned (.error .serverChannelClosed) := by
  have hset : ∀ {c : ℕ} {call : Call I P O} {st : CallState I P O},
      st ≠ .returned (.error .serverChannelClosed) →
      ∀ x ∈ s.calls.set c { call with state := st },
        x.state ≠ .returned (.error .serverChannelClosed) := fun hst x hx => by
    rcases List.mem_or_eq_of_mem_set hx with hx | rfl
    · exact hp.calls x hx
    · exact hst
  cases h with
  | client a _ hm =>
    cases hm with
    | clone h hh => exact hp.calls
    | shutdown h hh hu => exact hp.calls
    | infer h input hh =>
      intro call hc
      rcases List.mem_append.1 hc with hc | hc
      · exact hp.calls call hc
      · rw [List.mem_singleton.1 hc]
        simp
    | prepare c call hc hsc =>
      refine hset ?_
      rcases prepare_cases S c call.input with ⟨cmd, he⟩ | ⟨e, -, -, he⟩ | he <;> simp [he]
    | send c call cmd hc hsc => exact hset (by simp)
    | refused c call cmd hc hsc hg =>
      rw [hp.not_refused hs hc (by rw [hsc]; rfl)] at hg
      cases hg
    | receive c call fate hc hsc hf =>
      apply hset
      intro he
      obtain ⟨l₁, l₂, hl, -⟩ := List.lookup_eq_some_iff.1 hf
      have hreason := (history hs).fate c fate (by rw [hl]; simp)
      cases fate with
      | answered r =>
        obtain rfl : r = .error .serverChannelClosed := CallState.returned.inj he
        simp [Reason, Error.sentByBatcher] at hreason
      | dropped => simp [Fate.response] at he
    | cancel c call hc hsc => exact hset (by simp)
  | _ => exact hp.calls

/-- **Without a panic nothing goes wrong.** -/
theorem peaceful (hs : (server S).Reachable s) : s.Calm → Peaceful s := by
  refine hs.invariant (P := fun s => s.Calm → Peaceful s) ?_ ?_
  · intro _
    refine ⟨?_, ?_, ?_, ?_⟩
    · simp [server, State.start, Batcher.init]
    · intro t ht
      rw [(List.mem_replicate.1 ht).2]
      simp
    · simp [server, State.start]
    · simp [server, State.start]
  · intro u a v hu ih hst hc
    have hstep := server_step hst
    have hp := ih (hstep.calm hc)
    refine ⟨hstep.batcher_calm hp.batcher hc, ?_, hstep.fates_calm (stream hu) hp hc,
      hstep.calls_calm hu hp⟩
    intro t ht hd
    obtain ⟨w, hw⟩ := panic_of_dead (hu.tail hst) t ht hd
    exact hc _ hw

/-! ### Shutdown -/

/-- Shutdown in a state of the server. -/
structure Orderly (S : Setup I P O F) (s : State I P O F) : Prop where
  /-- The batcher leaves its loop behind the last handle, with nothing left to do. -/
  batcher : s.batcher.gone = true → (∀ x ∈ s.handles, x = false) ∧ s.commandQueue = [] ∧
    s.batcher.batchBuffer = [] ∧ s.inFlight = 0 ∧ s.replies = [] ∧
    ∀ cmd ∈ accepted s.log, ∃ response, (cmd.responder, .answered response) ∈ fates s.log
  /-- A worker leaves its loop behind the batcher, holding no message. -/
  workers : ∀ t ∈ s.workers, t.state = .ended → s.batcher.gone = true ∧ t.messages = 0
  /-- No call meets the closed channel. -/
  calls : ∀ call ∈ s.calls, call.state ≠ .returned (.error .serverChannelClosed)
  /-- No call runs when the channel is closed. -/
  closed : (∀ x ∈ s.handles, x = false) → ∀ call ∈ s.calls, call.state.running = false
  /-- So none waits when the batcher, collecting or not, finds it closed. -/
  closing : ∀ v, (server S).step s (.batcher .closed) = some v →
    ∀ call ∈ s.calls, call.state.running = false
  /-- Dropping a handle touches nothing else. -/
  shutdown : ∀ h v, (server S).step s (.client (.shutdown h)) = some v →
    v = { s with handles := s.handles.set h false }
  /-- A call, on whatever handle, can send its command. -/
  sending : ∀ c call cmd, s.calls[c]? = some call → call.state = .sending cmd →
    ∃ v, (server S).step s (.client (.send c)) = some v ∧
      accepted v.log = accepted s.log ++ [cmd]

/-- A batcher that is gone has answered everything. -/
lemma answered_of_gone (hp : Peaceful s) (hs : (server S).Reachable s) (hg : s.batcher.gone = true)
    {cmd : Command I P} (hm : cmd ∈ accepted s.log) :
    ∃ response, (cmd.responder, .answered response) ∈ fates s.log := by
  have hstop := hp.stopped hg
  have hst := stream hs
  have hbuf : s.batcher.batchBuffer = [] := by simpa only [Batcher.Fits, hstop] using hst.fits
  obtain ⟨x, hx⟩ := used_of_held hs (by simp [Batcher.held, hstop, hbuf, Phase.responders]) hm
    (by simp [State.inQueue, hst.stopped hstop])
  cases x with
  | answered response => exact ⟨response, hx⟩
  | dropped => exact absurd hx (hp.fates _)

lemma Peaceful.orderly (hp : Peaceful s) (hs : (server S).Reachable s) : Orderly S s := by
  refine ⟨?_, ?_, hp.calls, not_running hs, ?_, ?_, ?_⟩
  · intro hg
    have hstop := hp.stopped hg
    have hst := stream hs
    have hbal := (inFlight hs).balance
    have hout : s.batcher.outbox = [] := by simp only [Batcher.outbox, hstop]
    rw [hout, List.length_nil, Nat.add_eq_zero_iff, Multiset.card_eq_zero] at hbal
    exact ⟨handles_of_stopped hs hstop, hst.stopped hstop,
      by simpa only [Batcher.Fits, hstop] using hst.fits, hbal.1, List.length_eq_zero_iff.1 hbal.2,
      fun cmd hm => answered_of_gone hp hs hg hm⟩
  · intro t ht he
    obtain ⟨hg, hq⟩ := worker_ended hs t ht he
    exact ⟨hg, by simp [WorkerThread.messages, he, hq]⟩
  · intro v hv
    cases server_step hv with
    | closed b' evs hq hh hm => exact not_running hs hh
  · intro h v hv
    cases server_step hv with
    | client a _ hm =>
      cases hm
      rfl
  · intro c call cmd hc hsc
    have hg := hp.not_refused hs hc (by rw [hsc]; rfl)
    obtain ⟨h, input, st⟩ := call
    obtain rfl : st = .sending cmd := hsc
    refine ⟨_, by simp only [server, State.step, State.clientStep, hc, hg]; rfl, ?_⟩
    simp

/-- **Shutdown loses nothing.**  Along every run in which no task panics shutdown is orderly, and if
the run is fair to the server's own steps every command accepted is answered, whichever handles are
dropped. -/
theorem shutdown_loses_nothing (S : Setup I P O F) :
    (∀ s, (server S).Reachable s → s.Calm → Orderly S s) ∧
    ∀ ρ : (server S).FairRun Action.internal, (∀ k, (ρ.state k).Calm) →
      ∀ k, ∀ cmd ∈ accepted (ρ.state k).log,
        ∃ j, k ≤ j ∧ ∃ response, (cmd.responder, .answered response) ∈ fates (ρ.state j).log := by
  refine ⟨fun s hs hc => (peaceful hs hc).orderly hs, ?_⟩
  intro ρ hc k cmd hm
  have hp := fun j => peaceful (ρ.reachable j) (hc j)
  obtain ⟨j, hj, x, hx⟩ := eventually_used ρ (fun j => (hp j).batcher) (fun j => (hp j).workers) hm
  cases x with
  | answered response => exact ⟨j, hj, response, hx⟩
  | dropped => exact absurd hx ((hp j).fates _)

/-- A handle is cloned and shut down, and a call goes through the clone. -/
def clonedRun : List (Action ℕ) :=
  [.batcher (.turn .start), .worker 0 .init, .client (.clone 0), .client (.shutdown 0),
    .client (.infer 1 7), .client (.prepare 0), .client (.send 0), .batcher .recv,
    .batcher (.turn .timeout), .batcher (.turn .check), .batcher (.turn (.preprocessed 0)),
    .batcher (.turn (.filter [0])), .batcher (.turn .batch), .batcher .dispatch, .worker 0 .take,
    .worker 0 .process, .batcher .reply, .batcher (.turn (.postprocessed 0)),
    .batcher (.turn .finish)]

/-- When the call has sent its command the handle it was cloned from is gone, and it is answered. -/
theorem shutdown_loses_nothing_sample : ∃ ρ : (server sample).FairRun Action.internal,
    (ρ.state 7).handles = [false, true] ∧ Orderly sample (ρ.state 7) ∧
    ∃ cmd : Command ℕ ℕ, accepted (ρ.state 7).log = [cmd] ∧
      ∃ j, 7 ≤ j ∧ ∃ response, (cmd.responder, .answered response) ∈ fates (ρ.state j).log := by
  obtain ⟨s, u, cmd, hrun, hu, hhu, hacc, hp, hq, hh, hw, hpanics⟩ : ∃ s u : State ℕ ℕ ℕ ℕ,
      ∃ cmd : Command ℕ ℕ, (server sample).run (.start sample) clonedRun = some s ∧
        (server sample).run (.start sample) (clonedRun.take 7) = some u ∧
        u.handles = [false, true] ∧ accepted u.log = [cmd] ∧ s.batcher.phase = .head ∧
        s.commandQueue = [] ∧ s.handles = [false, true] ∧ s.workers = [⟨[], .receiving⟩] ∧
        (s.log.all fun e => match e with | .panic _ => false | _ => true) = true :=
    ⟨_, _, _, rfl, rfl, rfl, rfl, rfl, rfl, rfl, rfl, rfl⟩
  let ρ := Machine.FairRun.ofRun clonedRun hrun
    (idle_quiet (S := sample) hp hq (by simp [hh]) (by simp [hw]))
  have hstate : ρ.state 7 = u := by
    show ((server sample).run (.start sample) (clonedRun.take 7)).getD s = u
    rw [hu, Option.getD_some]
  have hlast : ∀ k, 19 ≤ k → ρ.state k = s := by
    intro k hk
    show ((server sample).run (.start sample) (clonedRun.take k)).getD s = s
    rw [List.take_of_length_le hk, hrun, Option.getD_some]
  have hcalm : ∀ k, (ρ.state k).Calm := by
    intro k t ht
    have hmem := (log_grows (ρ.reaches (le_max_left k 19))).subset ht
    rw [hlast _ (le_max_right _ _)] at hmem
    exact absurd (List.all_eq_true.1 hpanics _ hmem) (by simp)
  obtain ⟨horderly, hanswered⟩ := shutdown_loses_nothing sample
  have hacc' : accepted (ρ.state 7).log = [cmd] := by rw [hstate]; exact hacc
  refine ⟨ρ, by rw [hstate]; exact hhu, horderly _ (ρ.reachable 7) (hcalm 7), cmd, hacc', ?_⟩
  exact hanswered ρ hcalm 7 cmd (by rw [hacc']; exact List.mem_singleton_self cmd)

end OrtSuperserve

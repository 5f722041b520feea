import OrtSuperserve.Deployment

/-!
# Launches that serve nobody

`from_file` checks that a session can be opened, and nothing else.  A name in the configuration that
the model does not have is accepted, and then no call is ever answered with an output (`misnamed`).
And a worker that cannot open its own session goes on trying: while none has succeeded the server takes
commands all the same, nobody gets an output, and the first message dispatched holds up everything
behind it (`outage`).
-/

namespace OrtSuperserve

open Lib

variable {H L C M I P O F : Type}

/-! ### No message is answered -/

/-- No message of the server comes to a successful reply. -/
def Mute (S : Setup I P O F) : Prop :=
  ∀ r t outputs, processMessage S.target S.session (S.message r t) ≠ .ok outputs

/-- No output has come out of the server, and no postprocessing was begun. -/
structure Unserved (s : State I P O F) : Prop where
  calls : ∀ call ∈ s.calls, ∀ o, call.state ≠ .returned (.ok o)
  postprocess : postprocessCalls s.log = []

section Mute

variable {S : Setup I P O F} {s s' : State I P O F} {a : Action I}

/-- A call of `postprocess` is that of a task of the phase. -/
lemma Batcher.Move.postprocessing {b b' : Batcher I P F} {l : BatcherAction I P F}
    {evs : List (Event I P O F)} (h : Batcher.Move S b l b' evs) {c : ℕ} {row : ArrayD F}
    (hm : (c, row) ∈ postprocessCalls evs) :
    ∃ tasks, b.phase = .postprocessing tasks ∧ (row, c) ∈ tasks := by
  cases h with
  | post tasks k rawOutput responder hp hk =>
    have he : (c, row) = (responder, rawOutput) := by
      unfold Batcher.postprocessed at hm
      split at hm <;> simpa using hm
    obtain ⟨rfl, rfl⟩ := Prod.mk.inj he
    exact ⟨tasks, hp, List.mem_of_getElem? hk⟩
  | spawn => simp [Batcher.spawnPreprocess] at hm
  | _ => simp [sendErr, dropAll] at hm

lemma Mute.no_row (hm : Mute S) {r c : ℕ} {batch : List (Command I P)} {row : ArrayD F} :
    ¬ RowOf S (Reply.For S) r batch c row := by
  rintro ⟨t, outputs, k, p, -, hfor, -⟩
  exact hm r t outputs hfor

lemma Mute.postprocessCalls_eq (hm : Mute S) (hs : (server S).Reachable s) :
    postprocessCalls s.log = [] := by
  refine hs.invariant (P := fun s => postprocessCalls s.log = []) rfl ?_
  intro u a v hu hnil hst
  have hquiet : ∀ {evs : List (Event I P O F)}, v.log = u.log ++ evs → postprocessCalls evs = [] →
      postprocessCalls v.log = [] := by
    intro evs hlog hevs
    rw [hlog, postprocessCalls_append, hnil, hevs]
    rfl
  cases (server_step hst).effect with
  | batcher l evs move log =>
    apply hquiet log
    apply List.eq_nil_iff_forall_not_mem.2
    rintro ⟨c, row⟩ hx
    obtain ⟨tasks, hp, htask⟩ := move.postprocessing hx
    exact hm.no_row ((stream hu).fits.rowOf hp htask)
  | accepted cmd _ _ log => exact hquiet log rfl
  | dropped cmd _ _ log => exact hquiet log rfl
  | quiet evs _ quiet log => exact hquiet log quiet.postprocessCalls_eq

/-- **A mute server serves nobody.** -/
theorem Mute.unserved (hm : Mute S) (hs : (server S).Reachable s) : Unserved s := by
  refine ⟨?_, hm.postprocessCalls_eq hs⟩
  intro call hc o ho
  obtain ⟨c, hc⟩ := List.mem_iff_getElem?.1 hc
  rcases ((calls hs).calls c call hc).returned _ ho with ⟨fate, hf, he⟩ | ⟨-, he⟩ | ⟨e, -, -, he⟩
  · cases fate with
    | answered r =>
      obtain rfl : .ok o = r := he
      obtain ⟨r, batch, row, -, hr, -⟩ := (history hs).fate c _ hf
      exact hm.no_row hr
    | dropped => cases he
  · cases he
  · cases he

end Mute

/-! ### Names the model does not have -/

/-- What `ort` documents about the names of a session: a run gives outputs of the model, and takes no
input but those of the model. -/
structure Environment.Named (E : Environment H L C M I P O F) (p : OpenSession L C M) : Prop where
  outputs : ∀ r name t outputs, (E.session p).run r name t = .ok outputs →
    ∀ x ∈ outputs, x.1 ∈ E.outputs p
  inputs : ∀ r name t outputs, (E.session p).run r name t = .ok outputs → name ∈ E.inputs p

variable {E : Environment H L C M I P O F} {l : Launch L C} {d d' : Deployment L C M I P O F}
  {p : OpenSession L C M} {h₀ : H}

lemma mute_of_misnamed (hn : E.Named p)
    (hbad : l.inputName ∉ E.inputs p ∨ l.outputName ∉ E.outputs p) :
    Mute (l.setup E (E.session p)) := by
  intro r t outputs hok
  obtain ⟨out, ⟨found, shape, data, hrun, hlook, -⟩, -⟩ := processMessage_ok hok
  rcases hbad with hbad | hbad
  · exact hbad (hn.inputs r _ t found hrun)
  · obtain ⟨l₁, l₂, rfl, -⟩ := List.lookup_eq_some_iff.1 hlook
    exact hbad (hn.outputs r _ t _ hrun (l.outputName, .tensor shape data)
      (List.mem_append_right _ List.mem_cons_self))

/-- **A wrong name is found out by nobody but the callers.**  When a session opens, `from_file` accepts
the configuration just if each name is configured or there is a tensor to take it from, whether the
model has the names configured or not; and when it does not have one of them, no call of any run returns
an output. -/
theorem misnamed {path : String} {config : StartConfig L C} (hE : E.Steady path)
    (hp : E.openSession (E.host h₀) path config = .ok p) (hn : E.Named p) :
    ((∃ l, E.fromFile (E.host h₀) path config = .ok l) ↔
      (config.inputName ≠ none ∨ E.inputs p ≠ []) ∧ (config.outputName ≠ none ∨ E.outputs p ≠ [])) ∧
    ((∃ name ∉ E.inputs p, config.inputName = some name) ∨
        (∃ name ∉ E.outputs p, config.outputName = some name) →
      ∀ l, E.fromFile (E.host h₀) path config = .ok l →
        ∀ d, (deployment E l).Reachable d → Unserved d.server) := by
  refine ⟨exists_fromFile hp, ?_⟩
  intro hbad l h d hd
  obtain ⟨p', hp', hpath, hconfig, hin, hout⟩ := fromFile_ok h
  obtain rfl : p = p' := Except.ok.inj (hp.symm.trans hp')
  have hnames : l.inputName ∉ E.inputs p ∨ l.outputName ∉ E.outputs p := by
    rcases hbad with ⟨name, hname, hc⟩ | ⟨name, hname, hc⟩
    · rw [hc] at hin
      obtain rfl : name = l.inputName := by simpa using hin
      exact .inl hname
    · rw [hc] at hout
      obtain rfl : name = l.outputName := by simpa using hout
      exact .inr hname
  subst hpath hconfig
  exact (mute_of_misnamed hn hnames).unserved (deployment_serves (hE.keeps h₀) hp hd).1

/-- The identity, under the names `input` and `output` only. -/
def strictSession : Session ℕ where
  fromArrayView := identitySession.fromArrayView
  run r name t := if name = "input" then identitySession.run r name t else .err "Invalid input name"

lemma run_strictSession {r : ℕ} {name : String} {t : ArrayD ℕ}
    {outputs : List (String × OrtValue ℕ)} (h : strictSession.run r name t = .ok outputs) :
    name = "input" ∧ ∀ x ∈ outputs, x.1 = "output" := by
  simp only [strictSession, identitySession] at h
  split at h
  · split at h
    · obtain rfl := Outcome.ok.inj h
      exact ⟨‹_›, by simp⟩
    · cases h
  · cases h

def strictEnvironment : Environment Bool Unit Unit String ℕ ℕ ℕ ℕ :=
  { sampleEnvironment with session := fun _ => strictSession }

/-- The sample, with an output that the model does not have. -/
def misnamedLaunch : Launch Unit Unit :=
  ⟨"model.onnx", sampleConfig.withOutputName "logits", "input", "logits"⟩

/-- One call goes through the server. -/
def misnamedRun : List (DeploymentAction Bool ℕ) :=
  [.server (.batcher (.turn .start)), .attempt 0 true, .server (.client (.infer 0 7)),
    .server (.client (.prepare 0)), .server (.client (.send 0)), .server (.batcher .recv),
    .server (.batcher (.turn .timeout)), .server (.batcher (.turn .check)),
    .server (.batcher (.turn (.preprocessed 0))), .server (.batcher (.turn (.filter [0]))),
    .server (.batcher (.turn .batch)), .server (.batcher .dispatch), .server (.worker 0 .take),
    .server (.worker 0 .process), .server (.batcher .reply), .server (.client (.receive 0))]

theorem misnamed_sample :
    strictEnvironment.fromFile (strictEnvironment.host true) "model.onnx"
      (sampleConfig.withOutputName "logits") = .ok misnamedLaunch ∧
    ∃ d : Deployment Unit Unit String ℕ ℕ ℕ ℕ,
      (deployment strictEnvironment misnamedLaunch).run (.start strictEnvironment misnamedLaunch)
        misnamedRun = some d ∧
      (d.server.calls.map Call.state) =
        [.returned (.error (.inferenceFailed "Output tensor 'logits' not found"))] ∧
      Unserved d.server := by
  obtain ⟨d, hrun, hcalls⟩ : ∃ d : Deployment Unit Unit String ℕ ℕ ℕ ℕ,
      (deployment strictEnvironment misnamedLaunch).run (.start strictEnvironment misnamedLaunch)
        misnamedRun = some d ∧ (d.server.calls.map Call.state) =
          [.returned (.error (.inferenceFailed "Output tensor 'logits' not found"))] := ⟨_, rfl, rfl⟩
  obtain ⟨p, hopen⟩ : ∃ p, strictEnvironment.openSession (strictEnvironment.host true) "model.onnx"
      (sampleConfig.withOutputName "logits") = .ok p := ⟨_, rfl⟩
  have hnamed : strictEnvironment.Named p := by
    refine ⟨?_, ?_⟩
    · intro r name t outputs hrun x hx
      rw [(run_strictSession hrun).2 x hx]
      exact List.mem_singleton_self _
    · intro r name t outputs hrun
      rw [(run_strictSession hrun).1]
      exact List.mem_singleton_self _
  have hbad : "logits" ∉ strictEnvironment.outputs p := by
    show "logits" ∉ ["output"]
    decide
  have hprobe : strictEnvironment.fromFile (strictEnvironment.host true) "model.onnx"
      (sampleConfig.withOutputName "logits") = .ok misnamedLaunch := rfl
  refine ⟨hprobe, d, hrun, hcalls, ?_⟩
  exact (misnamed (fun _ _ => ⟨rfl, rfl, rfl⟩) hopen hnamed).2 (.inr ⟨"logits", hbad, rfl⟩) _ hprobe d
    ⟨misnamedRun, hrun⟩

/-! ### While no session is open -/

/-- Every attempt so far has failed. -/
def Deployment.Failing (d : Deployment L C M I P O F) : Prop := ∀ x ∈ d.attempts, ∃ e, x.2 = .error e

/-- No thread has a session. -/
def State.Unopened (s : State I P O F) : Prop := ∀ t ∈ s.workers, t.opened = false

lemma mute_noSession (E : Environment H L C M I P O F) (l : Launch L C) :
    Mute (l.setup E noSession) := by
  intro r t outputs h
  cases h

lemma Step.unopened {S : Setup I P O F} {s s' : State I P O F} {a : Action I} (h : Step S s a s')
    (ha : ∀ w, a ≠ .worker w .init) (hs : s.Unopened) : s'.Unopened := by
  intro t' ht'
  obtain ⟨w, hw⟩ := List.mem_iff_getElem?.1 ht'
  by_contra ho
  obtain ⟨t, ht, hto⟩ := h.opened ha hw (by simpa using ho)
  rw [hs t (List.mem_of_getElem? ht)] at hto
  cases hto

/-- A thread without a session processes nothing. -/
lemma Step.not_process {S : Setup I P O F} {s s' : State I P O F} {w : ℕ}
    (h : Step S s (.worker w .process) s') (hs : s.Unopened) : False := by
  cases h with
  | worker _ _ t r ht hm =>
    have ho := hs t (List.mem_of_getElem? ht)
    cases hm with
    | served msg outputs hst => simp [WorkerThread.opened, hst] at ho
    | failed msg e hst => simp [WorkerThread.opened, hst] at ho
    | panicked msg hst => simp [WorkerThread.opened, hst] at ho

/-- While every attempt fails, the run is one of a server without sessions. -/
lemma reachable_of_failing (hd : (deployment E l).Reachable d) :
    d.Failing → (server (l.setup E noSession)).Reachable d.server ∧ d.server.Unopened := by
  refine hd.invariant (P := fun d => d.Failing → (server (l.setup E noSession)).Reachable d.server ∧
    d.server.Unopened) ?_ ?_
  · intro _
    refine ⟨.start, ?_⟩
    intro t ht
    obtain rfl := List.eq_of_mem_replicate ht
    rfl
  · intro u a v _ ih hst hv
    cases deployment_step hst with
    | opened w h queue session ht ho =>
      obtain ⟨e, he⟩ := hv (w, .ok session) (by simp)
      cases he
    | failed w h queue e ht ho => exact ih fun x hx => hv x (List.mem_append_left _ hx)
    | server a s' ha hs =>
      obtain ⟨hr, hu⟩ := ih hv
      refine ⟨?_, (server_step hs).unopened ha hu⟩
      by_cases hproc : ∀ w, a ≠ .worker w .process
      · rw [step_session hproc _ noSession] at hs
        exact hr.tail hs
      · push Not at hproc
        obtain ⟨w, rfl⟩ := hproc
        exact ((server_step hs).not_process hu).elim

/-! ### The first message waits -/

/-- All threads are in the loop that opens their session. -/
def State.Asleep (s : State I P O F) : Prop := ∀ t ∈ s.workers, t.state = .initializing

/-- Nothing was dispatched, or one message, and the batcher waits for the reply to it. -/
structure Stalled (s : State I P O F) : Prop where
  replies : s.replies = []
  dispatch : dispatches s.log = [] ∨
    (dispatches s.log).length = 1 ∧ ∃ msg cs, s.batcher.phase = .awaiting msg cs

section Stalled

variable {S : Setup I P O F} {s s' : State I P O F} {a : Action I}

/-- Every thread is in the same state behind a dispatch. -/
lemma exists_afterBatcher {w : ℕ} {r : Batcher I P F × List (Event I P O F)} {t : WorkerThread F}
    (ht : t ∈ s.workers) : ∃ t' ∈ (s.afterBatcher w r).workers, t'.state = t.state := by
  obtain ⟨i, hi⟩ := List.mem_iff_getElem?.1 ht
  refine ⟨if w = i then { t with queue := t.queue ++ r.1.outbox } else t, ?_, ?_⟩
  · apply List.mem_of_getElem? (i := i)
    simp only [State.afterBatcher, List.getElem?_modify, hi, Option.map_eq_map,
      Option.map_some]
  · by_cases hw : w = i
    · rw [if_pos hw]
    · rw [if_neg hw]

/-- No step of a thread ends in that loop. -/
lemma WorkerThread.Move.not_initializing {t : WorkerThread F} {closed : Bool} {w : ℕ}
    {b : WorkerAction} {r : WorkerEffect I P O F} (h : t.Move S closed w b r) :
    r.thread.state ≠ .initializing := by
  cases h with
  | discard msg rest hs => simp [hs]
  | _ => simp

lemma Step.not_worker (h : Step S s a s') (hs' : s'.Asleep) (w : ℕ) (b : WorkerAction) :
    a ≠ .worker w b := by
  rintro rfl
  cases h with
  | worker _ _ t r ht hm =>
    have hlt := (List.getElem?_eq_some_iff.1 ht).1
    exact hm.not_initializing (hs' r.thread (List.mem_of_getElem? (List.getElem?_set_self hlt)))

/-- A server whose threads are asleep has slept all along. -/
lemma Step.asleep (h : Step S s a s') (hs' : s'.Asleep) : s.Asleep := by
  have hw := h.not_worker hs'
  cases h with
  | client _ _ hm => cases hm <;> exact hs'
  | dispatch b' evs hm =>
    intro t ht
    obtain ⟨t', ht', hst⟩ := exists_afterBatcher (w := s.chosen S) (r := (b', evs)) ht
    rw [← hst]
    exact hs' t' ht'
  | worker w b => exact absurd rfl (hw w b)
  | _ => exact hs'

lemma Batcher.Move.of_awaiting {b b' : Batcher I P F} {l : BatcherAction I P F}
    {evs : List (Event I P O F)} {msg : WorkerMessage F} {cs : List ℕ} (h : Batcher.Move S b l b' evs)
    (hp : b.phase = .awaiting msg cs) : ∃ r, l = .reply r := by
  cases h with
  | replyOk => exact ⟨_, rfl⟩
  | replyFailed => exact ⟨_, rfl⟩
  | _ => simp_all

lemma Batcher.Move.dispatches_eq {b b' : Batcher I P F} {l : BatcherAction I P F}
    {evs : List (Event I P O F)} (h : Batcher.Move S b l b' evs) (hl : ∀ x, l ≠ .sent x) :
    dispatches evs = [] := by
  cases h with
  | divZero _ _ x => exact absurd rfl (hl x)
  | sent => exact absurd rfl (hl true)
  | refused => exact absurd rfl (hl false)
  | spawn => simp [Batcher.spawnPreprocess]
  | _ => simp

/-- What a dispatch leaves. -/
lemma Batcher.Move.of_sent {b b' : Batcher I P F} {x : Bool} {evs : List (Event I P O F)}
    (h : Batcher.Move S b (.sent x) b' evs) :
    (S.config.numSessions = 0 ∧ dispatches evs = []) ∨
      (S.config.numSessions ≠ 0 ∧ (dispatches evs).length = 1 ∧
        (x = true → ∃ msg cs, b'.phase = .awaiting msg cs)) := by
  cases h with
  | divZero t cs _ hp hn => exact .inl ⟨hn, by simp⟩
  | sent t cs hp hn => exact .inr ⟨hn, by simp, fun _ => ⟨_, cs, rfl⟩⟩
  | refused t cs hp hn => exact .inr ⟨hn, by simp, fun hx => by cases hx⟩
  | leave _ _ ha => cases ha

/-- Steps of the batcher that neither send nor receive a message. -/
lemma Stalled.move (h : Stalled s) {l : BatcherAction I P F} {evs : List (Event I P O F)}
    (hm : Batcher.Move S s.batcher l s'.batcher evs) (hl : ∀ x, l ≠ .sent x)
    (hr : ∀ r, l ≠ .reply r) (hreplies : s'.replies = s.replies) (hlog : s'.log = s.log ++ evs) :
    Stalled s' := by
  refine ⟨hreplies.trans h.replies, ?_⟩
  have hd : dispatches s'.log = dispatches s.log := by
    rw [hlog, dispatches_append, hm.dispatches_eq hl, List.append_nil]
  rcases h.dispatch with hnil | ⟨-, msg, cs, hp⟩
  · exact .inl (hd.trans hnil)
  · obtain ⟨r, rfl⟩ := hm.of_awaiting hp
    exact absurd rfl (hr r)

/-- Steps that leave the batcher alone. -/
lemma Stalled.keep (h : Stalled s) (hb : s'.batcher = s.batcher) (hreplies : s'.replies = s.replies)
    (hd : dispatches s'.log = dispatches s.log) : Stalled s' := by
  refine ⟨hreplies.trans h.replies, ?_⟩
  rw [hb, hd]
  exact h.dispatch

/-- A thread that is asleep takes the message. -/
lemma accepts_of_asleep (hs : (server S).Reachable s) (h : s.Asleep) (hn : S.config.numSessions ≠ 0) :
    s.accepts S = true := by
  have hlt : s.turn S < s.workers.length := by
    rw [(rota hs).workers]
    exact Nat.mod_lt _ (Nat.pos_of_ne_zero hn)
  apply (accepts_iff (rota hs)).2
  refine ⟨s.workers[s.turn S], List.getElem?_eq_getElem hlt, ?_⟩
  simp [WorkerThread.alive, h _ (List.getElem_mem hlt)]

lemma Stalled.step (h : Stalled s) (hs : (server S).Reachable s) (hst : Step S s a s')
    (hs' : s'.Asleep) : Stalled s' := by
  have hw := hst.not_worker hs'
  have hasleep := hst.asleep hs'
  cases hst with
  | client _ _ hm =>
    cases hm with
    | prepare c call =>
      have hq : dispatches (prepare S c call.input).2 = [] :=
        (quiet_prepare S c call.input).dispatches_eq
      refine h.keep rfl rfl ?_
      show dispatches (s.log ++ (prepare S c call.input).2) = dispatches s.log
      rw [dispatches_append, hq, List.append_nil]
    | send c call cmd => exact h.keep rfl rfl (by simp)
    | _ => exact h.keep rfl rfl rfl
  | recv cmd rest b' evs hq hm => exact h.move hm (by simp) (by simp) rfl rfl
  | closed b' evs hq hh hm => exact h.move hm (by simp) (by simp) rfl rfl
  | turn n b' evs hm => exact h.move hm (by simp) (by simp) rfl rfl
  | dispatch b' evs hm =>
    -- the message goes into the channel of a thread that is asleep, and is the first one
    refine ⟨h.replies, ?_⟩
    have hnil : dispatches s.log = [] := by
      rcases h.dispatch with hnil | ⟨-, msg, cs, hp⟩
      · exact hnil
      · obtain ⟨r, hr⟩ := hm.of_awaiting hp
        cases hr
    simp only [State.afterBatcher]
    rw [dispatches_append, hnil]
    rcases hm.of_sent with ⟨-, hd⟩ | ⟨hn, hd, hp⟩
    · exact .inl (by rw [hd]; rfl)
    · exact .inr ⟨by simpa using hd, hp (accepts_of_asleep hs hasleep hn)⟩
  | reply r b' evs hr hm =>
    rw [h.replies] at hr
    cases hr
  | worker w b => exact absurd rfl (hw w b)
  | discard cmd rest => exact h.keep rfl rfl (by simp)

/-- **While all threads are asleep one message at most is dispatched, and the batcher waits for the
reply to it.** -/
theorem stalled (hs : (server S).Reachable s) : s.Asleep → Stalled s := by
  refine hs.invariant (P := fun s => s.Asleep → Stalled s) ?_ ?_
  · intro _
    exact ⟨rfl, .inl rfl⟩
  · intro u a v hu ih hst hv
    have hstep := server_step hst
    exact (ih (hstep.asleep hv)).step hu hstep hv

end Stalled

/-- **An outage.**  However the files and `ort` change: while every attempt to open a session has
failed, no call has returned an output; and while no thread has died either, one message at most was
dispatched, and the batcher waits for the reply to it. -/
theorem outage (hd : (deployment E l).Reachable d) (hf : d.Failing) :
    Unserved d.server ∧
      ((∀ t ∈ d.server.workers, t.state ≠ .dead) → Stalled d.server) := by
  obtain ⟨hs, hu⟩ := reachable_of_failing hd hf
  refine ⟨(mute_noSession E l).unserved hs, ?_⟩
  intro hdead
  apply stalled hs
  intro t ht
  have ho := hu t ht
  have hnd := hdead t ht
  cases hst : t.state with
  | initializing => rfl
  | dead => exact absurd hst hnd
  | _ => simp [WorkerThread.opened, hst] at ho

/-- The worker fails, and the batch of the first call is in its channel. -/
def outageRun : List (DeploymentAction Bool ℕ) :=
  [.server (.batcher (.turn .start)), .attempt 0 false, .server (.client (.infer 0 7)),
    .server (.client (.prepare 0)), .server (.client (.send 0)), .server (.batcher .recv),
    .server (.batcher (.turn .timeout)), .server (.batcher (.turn .check)),
    .server (.batcher (.turn (.preprocessed 0))), .server (.batcher (.turn (.filter [0]))),
    .server (.batcher (.turn .batch)), .server (.batcher .dispatch), .attempt 0 false]

theorem outage_sample : ∃ d : Deployment Unit Unit String ℕ ℕ ℕ ℕ,
    (deployment sampleEnvironment sampleLaunch).run (.start sampleEnvironment sampleLaunch)
      outageRun = some d ∧ d.attempts = [(0, .error "busy"), (0, .error "busy")] ∧
    (dispatches d.server.log).length = 1 ∧ Unserved d.server ∧ Stalled d.server := by
  obtain ⟨d, hrun, hatt, hdisp, msg, hw⟩ : ∃ d : Deployment Unit Unit String ℕ ℕ ℕ ℕ,
      (deployment sampleEnvironment sampleLaunch).run (.start sampleEnvironment sampleLaunch)
        outageRun = some d ∧ d.attempts = [(0, .error "busy"), (0, .error "busy")] ∧
      (dispatches d.server.log).length = 1 ∧ ∃ msg, d.server.workers = [⟨[msg], .initializing⟩] :=
    ⟨_, rfl, rfl, rfl, _, rfl⟩
  have hfailing : d.Failing := by
    intro x hx
    rw [hatt] at hx
    exact ⟨"busy", by simp_all⟩
  obtain ⟨hunserved, hstalled⟩ := outage ⟨outageRun, hrun⟩ hfailing
  exact ⟨d, hrun, hatt, hdisp, hunserved, hstalled (by simp [hw])⟩

end OrtSuperserve

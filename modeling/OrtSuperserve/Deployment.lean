import OrtSuperserve.Startup
import OrtSuperserve.Transparency
import OrtSuperserve.Lib.Simulation

/-!
# The server as it is started

The machine `deployment` is the server together with what its workers do before they serve: each thread
tries to open its own session, from the model file and the configuration of the launch, on whatever
host it meets, and tries again after every failure; then it serves with the session it has opened.

While the file at the path of the model and the constants of `ort` stay as they are, all these sessions
are the one `from_file` has opened before (`openSession_eq`), so the deployment refines the server in
which that session is given (`deployment_refines`), and what holds of every run of that server holds
here.
-/

namespace OrtSuperserve

open Lib

variable {H L C M I P O F : Type}

/-! ### The machine -/

/-- The server, the session of each worker thread, and the attempts to open one so far. -/
structure Deployment (L C M I P O F : Type) where
  server : State I P O F
  sessions : List (Option (OpenSession L C M))
  attempts : List (ℕ × Except String (OpenSession L C M))

inductive DeploymentAction (H I : Type) where
  | attempt (w : ℕ) (h : H)
  | server (a : Action I)

/-- In the place of a session that is not open. -/
def noSession : Session F := ⟨fun _ _ => .error "", fun _ _ _ => .panic⟩

section Machine

variable (E : Environment H L C M I P O F) (l : Launch L C)

namespace Deployment

variable (d : Deployment L C M I P O F)

/-- The session a step runs, which is that of the worker it is a step of. -/
def running : Action I → Session F
  | .worker w _ =>
    match d.sessions[w]? with
    | some (some session) => E.session session
    | _ => noSession
  | _ => noSession

def start : Deployment L C M I P O F where
  server := .start (l.setup E noSession)
  sessions := List.replicate l.config.numSessions none
  attempts := []

/-- One turn of the loop that opens the session: on an error the thread sleeps, and stays in the
loop. -/
def attemptStep (w : ℕ) (host : Host L C M) : Option (Deployment L C M I P O F) :=
  match d.server.workers[w]? with
  | some ⟨_, .initializing⟩ =>
    match E.openSession host l.modelPath l.config with
    | .ok session =>
      (d.server.workerStep (l.setup E noSession) w .init).map fun s =>
        ⟨s, d.sessions.set w (some session), d.attempts ++ [(w, .ok session)]⟩
    | .error e => some { d with attempts := d.attempts ++ [(w, .error e)] }
  | _ => none

def step : DeploymentAction H I → Option (Deployment L C M I P O F)
  | .attempt w h => d.attemptStep E l w (E.host h)
  | .server (.worker _ .init) => none
  | .server a => (d.server.step (l.setup E (d.running E a)) a).map fun s => { d with server := s }

end Deployment

/-- **The deployment of a launch.** -/
def deployment : Machine (Deployment L C M I P O F) (DeploymentAction H I) where
  start := .start E l
  step d a := d.step E l a

end Machine

/-! ### Its steps -/

variable {E : Environment H L C M I P O F} {l : Launch L C} {d d' : Deployment L C M I P O F}

/-- What a step of the deployment can do. -/
inductive Deployment.Move (E : Environment H L C M I P O F) (l : Launch L C)
    (d : Deployment L C M I P O F) :
    DeploymentAction H I → Deployment L C M I P O F → Prop where
  | opened (w : ℕ) (h : H) (queue : List (WorkerMessage F)) (session : OpenSession L C M)
      (ht : d.server.workers[w]? = some ⟨queue, .initializing⟩)
      (ho : E.openSession (E.host h) l.modelPath l.config = .ok session) :
      Move E l d (.attempt w h)
        ⟨{ d.server with workers := d.server.workers.set w ⟨queue, .receiving⟩ },
          d.sessions.set w (some session), d.attempts ++ [(w, .ok session)]⟩
  | failed (w : ℕ) (h : H) (queue : List (WorkerMessage F)) (e : String)
      (ht : d.server.workers[w]? = some ⟨queue, .initializing⟩)
      (ho : E.openSession (E.host h) l.modelPath l.config = .error e) :
      Move E l d (.attempt w h) { d with attempts := d.attempts ++ [(w, .error e)] }
  | server (a : Action I) (s' : State I P O F) (ha : ∀ w, a ≠ .worker w .init)
      (hs : (OrtSuperserve.server (l.setup E (d.running E a))).step d.server a = some s') :
      Move E l d (.server a) { d with server := s' }

/-- A thread that gets ready, in the step of the server. -/
lemma step_init {S : Setup I P O F} {s : State I P O F} {w : ℕ} {queue : List (WorkerMessage F)}
    (ht : s.workers[w]? = some ⟨queue, .initializing⟩) :
    (server S).step s (.worker w .init) =
      some { s with workers := s.workers.set w ⟨queue, .receiving⟩ } := by
  simp [server, State.step, State.workerStep, ht, WorkerThread.step]

lemma deployment_step {a : DeploymentAction H I} (h : (deployment E l).step d a = some d') :
    d.Move E l a d' := by
  have h : d.step E l a = some d' := h
  cases a with
  | attempt w host =>
    simp only [Deployment.step, Deployment.attemptStep] at h
    split at h
    · rename_i queue ht
      split at h
      · rename_i session ho
        have hw := step_init (S := l.setup E noSession) ht
        simp only [server, State.step] at hw
        rw [hw] at h
        cases h
        exact .opened w host queue session ht ho
      · cases h
        exact .failed w host queue _ ht ‹_›
    · cases h
  | server a =>
    have key : (∀ w, a ≠ .worker w .init) →
        (d.server.step (l.setup E (d.running E a)) a).map (fun s => { d with server := s }) =
          some d' → d.Move E l (.server a) d' := by
      intro ha h
      obtain ⟨s', hs, rfl⟩ := Option.map_eq_some_iff.1 h
      exact .server a s' ha hs
    cases a with
    | worker w b =>
      cases b with
      | init => cases h
      | _ => exact key (by simp) h
    | _ => exact key (by simp) h

lemma step_attempt {w : ℕ} {h : H} {queue : List (WorkerMessage F)} {session : OpenSession L C M}
    (ht : d.server.workers[w]? = some ⟨queue, .initializing⟩)
    (ho : E.openSession (E.host h) l.modelPath l.config = .ok session) :
    ∃ d', (deployment E l).step d (.attempt w h) = some d' := by
  have hw := step_init (S := l.setup E noSession) ht
  simp only [server, State.step] at hw
  simp [deployment, Deployment.step, Deployment.attemptStep, ht, ho, hw]

lemma step_server {a : Action I} (ha : ∀ w, a ≠ .worker w .init) {s' : State I P O F}
    (hs : (server (l.setup E (d.running E a))).step d.server a = some s') :
    (deployment E l).step d (.server a) = some { d with server := s' } := by
  have hs : d.server.step (l.setup E (d.running E a)) a = some s' := hs
  cases a with
  | worker w b =>
    cases b with
    | init => exact absurd rfl (ha w)
    | _ => simp [deployment, Deployment.step, hs]
  | _ => simp [deployment, Deployment.step, hs]

/-! ### The session of a step -/

/-- Only `process_message` runs a session. -/
lemma step_session {s : State I P O F} {a : Action I} (ha : ∀ w, a ≠ .worker w .process)
    (x y : Session F) : (server (l.setup E x)).step s a = (server (l.setup E y)).step s a := by
  cases a with
  | worker w b =>
    simp only [server, State.step, State.workerStep]
    cases s.workers[w]? with
    | none => rfl
    | some t =>
      obtain ⟨queue, state⟩ := t
      cases b with
      | process => exact absurd rfl (ha w)
      | _ => cases state <;> rfl
  | _ => rfl

/-- The thread has a session. -/
def WorkerThread.opened (t : WorkerThread F) : Bool :=
  match t.state with
  | .receiving | .processing _ | .ended => true
  | .initializing | .dead => false

lemma WorkerThread.Move.opened {S : Setup I P O F} {t : WorkerThread F} {closed : Bool} {w : ℕ}
    {b : WorkerAction} {r : WorkerEffect I P O F} (h : t.Move S closed w b r) (hb : b ≠ .init)
    (hr : r.thread.opened = true) : t.opened = true := by
  cases h with
  | init => exact absurd rfl hb
  | discard msg rest hs => simp [WorkerThread.opened, hs] at hr
  | take msg rest hs => simp [WorkerThread.opened, hs]
  | served msg outputs hs => simp [WorkerThread.opened, hs]
  | failed msg e hs => simp [WorkerThread.opened, hs]
  | exit hs => simp [WorkerThread.opened, hs]
  | _ => simp [WorkerThread.opened] at hr

/-- Without an `init`, a thread that has a session had one before. -/
lemma Step.opened {S : Setup I P O F} {s s' : State I P O F} {a : Action I} (h : Step S s a s')
    (ha : ∀ w, a ≠ .worker w .init) {w : ℕ} {t' : WorkerThread F} (ht' : s'.workers[w]? = some t')
    (ho : t'.opened = true) : ∃ t, s.workers[w]? = some t ∧ t.opened = true := by
  cases h with
  | client _ _ hm => cases hm <;> exact ⟨t', ht', ho⟩
  | dispatch b' evs hm =>
    simp only [State.afterBatcher, List.getElem?_modify] at ht'
    obtain ⟨t, ht, rfl⟩ := Option.map_eq_some_iff.1 ht'
    refine ⟨t, ht, ?_⟩
    by_cases hw : s.chosen S = w
    · rw [if_pos hw] at ho
      exact ho
    · rw [if_neg hw] at ho
      exact ho
  | worker v b t r ht hm =>
    have hb : b ≠ .init := by
      rintro rfl
      exact ha v rfl
    by_cases hv : v = w
    · subst hv
      have hlt := (List.getElem?_eq_some_iff.1 ht).1
      have ht' : (s.workers.set v r.thread)[v]? = some t' := ht'
      rw [List.getElem?_set_self hlt] at ht'
      obtain rfl := Option.some.inj ht'
      exact ⟨t, ht, hm.opened hb ho⟩
    · have ht' : (s.workers.set v r.thread)[w]? = some t' := ht'
      rw [List.getElem?_set_ne hv] at ht'
      exact ⟨t', ht', ho⟩
  | _ => exact ⟨t', ht', ho⟩

/-! ### One session for all -/

/-- The file at the path and the constants of `ort` are on every host as they are on this one. -/
def Environment.Keeps (E : Environment H L C M I P O F) (path : String) (host : Host L C M) : Prop :=
  ∀ h, (E.host h).file path = host.file path ∧
    (E.host h).ort.cudaDefault = host.ort.cudaDefault ∧
    (E.host h).ort.tensorRTDefault = host.ort.tensorRTDefault

/-- The file at the path stays as it is, and so do the constants of `ort`. -/
def Environment.Steady (E : Environment H L C M I P O F) (path : String) : Prop :=
  ∀ h h', (E.host h).file path = (E.host h').file path ∧
    (E.host h).ort.cudaDefault = (E.host h').ort.cudaDefault ∧
    (E.host h).ort.tensorRTDefault = (E.host h').ort.tensorRTDefault

lemma Environment.Steady.keeps {path : String} (hE : E.Steady path) (h₀ : H) :
    E.Keeps path (E.host h₀) := fun h => hE h h₀

/-- **Every attempt that succeeds opens the same session.** -/
theorem openSession_eq {path : String} {config : StartConfig L C} {host : Host L C M}
    (hE : E.Keeps path host) {h : H} {x y : OpenSession L C M}
    (hx : E.openSession (E.host h) path config = .ok x)
    (hy : E.openSession host path config = .ok y) : x = y := by
  obtain ⟨hfile, hcuda, htensor⟩ := hE h
  obtain ⟨hbx, hmx⟩ := openSession_ok hx
  obtain ⟨hby, hmy⟩ := openSession_ok hy
  have hstep : ∀ k : ProviderKind C, k.step (E.host h).ort = k.step host.ort := by
    intro k
    cases k <;> simp [ProviderKind.step, hcuda, htensor]
  have hbuilt : x.built = y.built := by
    rw [(build_ok hbx).2, (build_ok hby).2]
    simp only [List.map_congr_left fun k _ => hstep k]
  cases x
  cases y
  simp_all

/-- The workers that serve have a session, which is `p`. -/
structure Uniform (p : OpenSession L C M) (d : Deployment L C M I P O F) : Prop where
  length : d.sessions.length = d.server.workers.length
  only : ∀ q, some q ∈ d.sessions → q = p
  session : ∀ (w : ℕ) (t : WorkerThread F), d.server.workers[w]? = some t → t.opened = true →
    d.sessions[w]? = some (some p)

variable {p : OpenSession L C M}

lemma uniform_start : Uniform p (Deployment.start E l) := by
  refine ⟨?_, ?_, ?_⟩
  · simp [Deployment.start, State.start, Launch.setup]
  · intro q hq
    cases List.eq_of_mem_replicate hq
  · intro w t ht ho
    have hmem := List.mem_of_getElem? ht
    obtain rfl := List.eq_of_mem_replicate hmem
    cases ho

lemma Deployment.Move.uniform {a : DeploymentAction H I} {host : Host L C M}
    (hE : E.Keeps l.modelPath host) (hp : E.openSession host l.modelPath l.config = .ok p)
    (h : d.Move E l a d') (hd : Uniform p d) : Uniform p d' := by
  cases h with
  | opened w h queue session ht ho =>
    obtain rfl := openSession_eq hE ho hp
    refine ⟨by simp [hd.length], ?_, ?_⟩
    · intro q hq
      rcases List.mem_or_eq_of_mem_set hq with hq | hq
      · exact hd.only q hq
      · exact Option.some.inj hq
    intro v t hv hopen
    by_cases hw : w = v
    · subst hw
      apply List.getElem?_set_self
      rw [hd.length]
      exact (List.getElem?_eq_some_iff.1 ht).1
    · have hv : (d.server.workers.set w ⟨queue, .receiving⟩)[v]? = some t := hv
      rw [List.getElem?_set_ne hw] at hv
      exact (List.getElem?_set_ne hw).trans (hd.session v t hv hopen)
  | failed => exact ⟨hd.length, hd.only, hd.session⟩
  | server a s' ha hs =>
    have hst := server_step hs
    refine ⟨hd.length.trans hst.length_workers.symm, hd.only, ?_⟩
    intro w t' ht' ho
    obtain ⟨t, ht, hto⟩ := hst.opened ha ht' ho
    exact hd.session w t ht hto

/-- A step of the server that the deployment takes is one with the session `p`. -/
lemma Uniform.step_eq (hd : Uniform p d) {a : Action I} {s' : State I P O F} {x y : Session F}
    (hx : x = d.running E a ∨ x = E.session p) (hy : y = d.running E a ∨ y = E.session p)
    (hs : (server (l.setup E x)).step d.server a = some s') :
    (server (l.setup E y)).step d.server a = some s' := by
  by_cases ha : ∀ w, a ≠ .worker w .process
  · rw [step_session ha y x]
    exact hs
  · push Not at ha
    obtain ⟨w, rfl⟩ := ha
    have hrun : d.running E (.worker w .process) = E.session p := by
      cases server_step hs with
      | worker _ _ t r ht hm =>
        have ho : t.opened = true := by
          cases hm with
          | served msg outputs hst => simp [WorkerThread.opened, hst]
          | failed msg e hst => simp [WorkerThread.opened, hst]
          | panicked msg hst => simp [WorkerThread.opened, hst]
        simp [Deployment.running, hd.session w t ht ho]
    rw [hrun, or_self] at hx hy
    rw [hx] at hs
    rw [hy]
    exact hs

section Refinement

variable {h₀ : H} {host : Host L C M}

lemma uniform (hE : E.Keeps l.modelPath host)
    (hp : E.openSession host l.modelPath l.config = .ok p) (hd : (deployment E l).Reachable d) :
    Uniform p d :=
  hd.invariant (P := Uniform p) uniform_start
    fun _ _ _ _ hu hst => (deployment_step hst).uniform hE hp hu

/-- **The deployment refines the server with the session given.** -/
theorem deployment_refines (hE : E.Keeps l.modelPath host)
    (hp : E.openSession host l.modelPath l.config = .ok p) :
    Machine.Simulation (deployment E l) (server (l.setup E (E.session p)))
      fun d s => s = d.server := by
  apply Machine.Simulation.of_map (f := Deployment.server) rfl
  intro d a d' hd hst
  have hu := uniform hE hp hd
  cases deployment_step hst with
  | opened w h queue session ht ho => exact .single (step_init ht)
  | failed => exact .refl _
  | server a s' ha hs => exact .single (hu.step_eq (.inl rfl) (.inr rfl) hs)

/-- A deployment whose session could be opened once. -/
lemma deployment_serves (hE : E.Keeps l.modelPath host)
    (hp : E.openSession host l.modelPath l.config = .ok p) (hd : (deployment E l).Reachable d) :
    (server (l.setup E (E.session p))).Reachable d.server ∧
      (∀ (w : ℕ) (t : WorkerThread F), d.server.workers[w]? = some t → t.opened = true →
        d.sessions[w]? = some (some p)) ∧
      ∀ q, some q ∈ d.sessions → q = p := by
  have hu := uniform hE hp hd
  obtain ⟨s, hs, rfl⟩ := (deployment_refines hE hp).reachable hd
  exact ⟨hs, hu.session, hu.only⟩

/-- **What `from_file` starts.**  While the file stays as it is, every run of the deployment is one of
the server with the session that `from_file` has opened before, every worker that serves has opened
that session, and no worker has another. -/
theorem from_file_serves {path : String} {config : StartConfig L C} (hE : E.Steady path)
    (h : E.fromFile (E.host h₀) path config = .ok l) :
    ∃ p, E.openSession (E.host h₀) path config = .ok p ∧ ∀ d, (deployment E l).Reachable d →
      (server (l.setup E (E.session p))).Reachable d.server ∧
      (∀ (w : ℕ) (t : WorkerThread F), d.server.workers[w]? = some t → t.opened = true →
        d.sessions[w]? = some (some p)) ∧
      ∀ q, some q ∈ d.sessions → q = p := by
  obtain ⟨p, hp, hpath, hconfig, -, -⟩ := fromFile_ok h
  subst hpath hconfig
  exact ⟨p, hp, fun d hd => deployment_serves (hE.keeps h₀) hp hd⟩

/-- **What `from_url` starts.**  It has downloaded a model and written it to the path of the launch, on
whatever host; and while that file stays as it was written, and the constants of `ort` as they were
then, every worker serves the model downloaded. -/
theorem from_url_serves {net : Network M} {uuid url : String} {config : StartConfig L C}
    (h : E.fromUrl net uuid host url config = .ok l) :
    ∃ response bytes, net.get url = .ok response ∧ response.isSuccess = true ∧
      response.bytes = .ok bytes ∧ net.write l.modelPath bytes = .ok () ∧
      ∃ p : OpenSession L C M, p.model = bytes ∧
        E.openSession (host.store l.modelPath bytes) l.modelPath config = .ok p ∧
        (E.Keeps l.modelPath (host.store l.modelPath bytes) →
          ∀ d, (deployment E l).Reachable d →
            (server (l.setup E (E.session p))).Reachable d.server ∧
            (∀ (w : ℕ) (t : WorkerThread F), d.server.workers[w]? = some t → t.opened = true →
              d.sessions[w]? = some (some p)) ∧
            ∀ q, some q ∈ d.sessions → q = p) := by
  obtain ⟨response, bytes, hget, hsuccess, hbytes, hwrite, hprobe⟩ := fromUrl_ok h
  obtain ⟨p, hp, -, hconfig, -, -⟩ := fromFile_ok hprobe
  subst hconfig
  have hmodel : p.model = bytes := by
    rw [(openSession_ok hp).2, Host.file_store]
  exact ⟨response, bytes, hget, hsuccess, hbytes, hwrite, p, hmodel, hp,
    fun hE d hd => deployment_serves hE hp hd⟩

/-! ### Fair runs -/

/-- Steps of the server, with the attempts that succeed. -/
def DeploymentAction.fairly (E : Environment H L C M I P O F) (l : Launch L C)
    (fair : Action I → Prop) : DeploymentAction H I → Prop
  | .attempt _ h => ∃ session, E.openSession (E.host h) l.modelPath l.config = .ok session
  | .server a => fair a

/-- The server's own steps, with the attempts that succeed. -/
def DeploymentAction.internal (E : Environment H L C M I P O F) (l : Launch L C) :
    DeploymentAction H I → Prop := DeploymentAction.fairly E l Action.internal

/-- The step of the server that a step of the deployment is. -/
def DeploymentAction.toServer (E : Environment H L C M I P O F) (l : Launch L C) :
    DeploymentAction H I → Option (Action I)
  | .attempt w h =>
    match E.openSession (E.host h) l.modelPath l.config with
    | .ok _ => some (.worker w .init)
    | .error _ => none
  | .server a => some a

/-- A step of the deployment is a step of the server that is given the session, or a failed attempt. -/
lemma Deployment.Move.toServer {a : DeploymentAction H I} (h : d.Move E l a d') (hd : Uniform p d) :
    (a.toServer E l = none ∧ d'.server = d.server) ∨ ∃ b, a.toServer E l = some b ∧
      (OrtSuperserve.server (l.setup E (E.session p))).step d.server b = some d'.server := by
  cases h with
  | opened w h queue session ht ho =>
    exact .inr ⟨.worker w .init, by simp [DeploymentAction.toServer, ho], step_init ht⟩
  | failed w h queue e ht ho => exact .inl ⟨by simp [DeploymentAction.toServer, ho], rfl⟩
  | server a s' ha hs => exact .inr ⟨a, rfl, hd.step_eq (.inl rfl) (.inr rfl) hs⟩

/-- A deployment of an idle server whose workers wait for messages has no step of its own to take. -/
lemma deployment_quiet (hp : d.server.batcher.phase = .head) (hq : d.server.commandQueue = [])
    (hh : true ∈ d.server.handles) (hw : ∀ t ∈ d.server.workers, t = ⟨[], .receiving⟩)
    (a : DeploymentAction H I) (d' : Deployment L C M I P O F) (ha : a.internal E l) :
    (deployment E l).step d a ≠ some d' := by
  intro hst
  cases deployment_step hst with
  | opened w h queue session ht => cases hw _ (List.mem_of_getElem? ht)
  | failed w h queue e ht => cases hw _ (List.mem_of_getElem? ht)
  | server a s' _ hs => exact idle_quiet hp hq hh hw a s' ha hs

/-- **A fair run of the deployment is a fair run of the server**: as the session could be opened once,
a worker that tries for ever has a host to succeed on. -/
theorem deployment_fair {fair : Action I → Prop} (hinit : ∀ w, fair (.worker w .init))
    (hE : E.Steady l.modelPath) (hp : E.openSession (E.host h₀) l.modelPath l.config = .ok p)
    (ρ : (deployment E l).FairRun (DeploymentAction.fairly E l fair)) :
    ∃ ρ' : (server (l.setup E (E.session p))).FairRun fair,
      (∀ k, ρ'.state k = (ρ.state k).server) ∧
        ∀ k, ρ'.label k = (ρ.label k).bind (DeploymentAction.toServer E l) := by
  apply Machine.FairRun.exists_map Deployment.server (DeploymentAction.toServer E l) rfl ρ
  · intro k a _ hst
    exact (deployment_step hst).toServer (uniform (hE.keeps h₀) hp (ρ.reachable k))
  · intro k a _ ha
    cases a with
    | attempt w h =>
      obtain ⟨session, ho⟩ := ha
      exact ⟨.worker w .init, by simp [DeploymentAction.toServer, ho], hinit w⟩
    | server a => exact ⟨a, rfl, ha⟩
  · intro d b t hd hb hst
    have hu := uniform (hE.keeps h₀) hp hd
    by_cases hi : ∀ w, b ≠ .worker w .init
    · exact ⟨.server b, _, hb, step_server hi (hu.step_eq (.inr rfl) (.inl rfl) hst)⟩
    · push Not at hi
      obtain ⟨w, rfl⟩ := hi
      cases server_step hst with
      | worker _ _ th r hth hm =>
        cases hm with
        | init hs =>
          obtain ⟨queue, state⟩ := th
          obtain rfl : state = .initializing := hs
          obtain ⟨d', hd'⟩ := step_attempt hth hp
          exact ⟨.attempt w h₀, d', ⟨p, hp⟩, hd'⟩

/-- **What `from_file` starts serves.**  In a fair run of the deployment in which neither the batcher
nor a worker panics, when the session that `from_file` has opened acts row by row and the minimum
batch size is one, every command accepted comes to the direct response. -/
theorem deployed_directly {path : String} {config : StartConfig L C} (hE : E.Steady path)
    (h : E.fromFile (E.host h₀) path config = .ok l)
    (hp : E.openSession (E.host h₀) path config = .ok p) {row : P → ArrayD F}
    {f : ArrayD F → ArrayD F} (hrow : RowWise (l.setup E (E.session p)) row f)
    (hmin : config.minBatchSize ≤ 1) (ρ : (deployment E l).FairRun (DeploymentAction.internal E l))
    (hintact : ∀ j, Intact (ρ.state j).server) {k : ℕ} {cmd : Command I P}
    (hm : cmd ∈ accepted (ρ.state k).server.log) :
    ∃ j, k ≤ j ∧ ∃ call fate, (ρ.state j).server.calls[cmd.responder]? = some call ∧
      (fates (ρ.state j).server.log).lookup cmd.responder = some fate ∧
      fate.response = direct (l.setup E (E.session p)) row f cmd.responder call.input := by
  obtain ⟨-, -, hpath, hconfig, -, -⟩ := fromFile_ok h
  subst hpath hconfig
  obtain ⟨ρ', hρ, -⟩ := deployment_fair (fun _ => trivial) hE hp ρ
  have hintact' : ∀ j, Intact (ρ'.state j) := by
    intro j
    rw [hρ]
    exact hintact j
  rw [← hρ] at hm
  obtain ⟨j, hj, hu⟩ := eventually_used_of_intact ρ' hintact' hm
  have hres := direct_of_used (ρ'.reachable j) (hintact' j) hrow hmin hu
  rw [hρ] at hres
  exact ⟨j, hj, hres⟩

end Refinement

/-! ### A launch of the sample -/

/-- Two moments of a host: a commit fails at one, and goes well at the other. -/
def sampleHost (ready : Bool) : Host Unit Unit String where
  ort := { acceptingOrt with commitFromFile := fun _ _ => if ready then .ok () else .error "busy" }
  file _ := "identity"

def sampleEnvironment : Environment Bool Unit Unit String ℕ ℕ ℕ ℕ where
  features := allFeatures
  host := sampleHost
  inputs _ := ["input"]
  outputs _ := ["output"]
  session _ := identitySession
  target := {}
  user := sampleUser

def sampleConfig : StartConfig Unit Unit := { optimizationLevel := (), maxBatchSize := 2 }

def sampleLaunch : Launch Unit Unit := ⟨"model.onnx", sampleConfig, "input", "output"⟩

/-- The worker fails once, opens its session, and the run of the sample follows. -/
def deploymentRun : List (DeploymentAction Bool ℕ) :=
  [.server (.batcher (.turn .start)), .attempt 0 false, .attempt 0 true] ++
    (sampleRun.drop 2).map .server

lemma steady_sample : sampleEnvironment.Steady "model.onnx" := fun _ _ => ⟨rfl, rfl, rfl⟩

lemma fromFile_sample : sampleEnvironment.fromFile (sampleEnvironment.host true) "model.onnx"
    sampleConfig = .ok sampleLaunch := rfl

theorem from_file_serves_sample :
    ∃ d : Deployment Unit Unit String ℕ ℕ ℕ ℕ,
      (deployment sampleEnvironment sampleLaunch).run
        (.start sampleEnvironment sampleLaunch) deploymentRun = some d ∧
      (d.attempts.map fun x => x.2.toBool) = [false, true] ∧
      ∃ p, (server (sampleLaunch.setup sampleEnvironment (sampleEnvironment.session p))).Reachable
          d.server ∧ d.sessions = [some p] := by
  obtain ⟨d, q, hrun, hatt, hses⟩ : ∃ d : Deployment Unit Unit String ℕ ℕ ℕ ℕ, ∃ q,
      (deployment sampleEnvironment sampleLaunch).run
        (.start sampleEnvironment sampleLaunch) deploymentRun = some d ∧
      (d.attempts.map fun x => x.2.toBool) = [false, true] ∧ d.sessions = [some q] :=
    ⟨_, _, rfl, rfl, rfl⟩
  obtain ⟨p, -, hp⟩ := from_file_serves steady_sample fromFile_sample
  obtain ⟨hreach, -, honly⟩ := hp d ⟨deploymentRun, hrun⟩
  obtain rfl := honly q (by rw [hses]; simp)
  exact ⟨d, hrun, hatt, q, hreach, hses⟩

/-- A network with one model on it. -/
def sampleNetwork : Network String where
  tempFile name := "/tmp/" ++ name
  get url :=
    if url = "models/identity.onnx" then .ok ⟨200, "200 OK", .ok "identity"⟩
    else .ok ⟨404, "404 Not Found", .ok ""⟩
  write _ _ := .ok ()

/-- A host that has other things at every path. -/
def bareHost : Host Unit Unit String := { sampleHost true with file := fun _ => "no model" }

theorem from_url_serves_sample :
    sampleEnvironment.fromUrl sampleNetwork "0" bareHost "models/none.onnx" sampleConfig =
      .error "Failed to download model: HTTP 404 Not Found" ∧
    ∃ l : Launch Unit Unit, sampleEnvironment.fromUrl sampleNetwork "0" bareHost
        "models/identity.onnx" sampleConfig = .ok l ∧
      l.modelPath = "/tmp/ort-superserve-model-0.onnx" ∧
      bareHost.file l.modelPath ≠ "identity" ∧
      ∃ p : OpenSession Unit Unit String, p.model = "identity" ∧
        ∀ d, (deployment sampleEnvironment l).Reachable d → ∀ q, some q ∈ d.sessions → q = p := by
  refine ⟨rfl, ⟨"/tmp/ort-superserve-model-0.onnx", sampleConfig, "input", "output"⟩, rfl, rfl,
    by decide, ?_⟩
  have hurl : sampleEnvironment.fromUrl sampleNetwork "0" bareHost "models/identity.onnx"
      sampleConfig = .ok ⟨"/tmp/ort-superserve-model-0.onnx", sampleConfig, "input", "output"⟩ := rfl
  have hget : sampleNetwork.get "models/identity.onnx" = .ok ⟨200, "200 OK", .ok "identity"⟩ := rfl
  obtain ⟨response, bytes, hget', -, hbytes, -, p, hmodel, -, hserves⟩ := from_url_serves hurl
  obtain rfl := Except.ok.inj (hget.symm.trans hget')
  obtain rfl : "identity" = bytes := Except.ok.inj hbytes
  -- the workers find what was written
  have hkeeps : sampleEnvironment.Keeps "/tmp/ort-superserve-model-0.onnx"
      (bareHost.store "/tmp/ort-superserve-model-0.onnx" "identity") :=
    fun _ => ⟨(Host.file_store _ _ _).symm, rfl, rfl⟩
  exact ⟨p, hmodel, fun d hd => (hserves hkeeps d hd).2.2⟩

theorem deployed_directly_sample :
    ∃ ρ : (deployment sampleEnvironment sampleLaunch).FairRun
        (DeploymentAction.internal sampleEnvironment sampleLaunch),
      ∃ cmd cmd' : Command ℕ ℕ, accepted (ρ.state 25).server.log = [cmd, cmd'] ∧
      ∀ x ∈ [cmd, cmd'], ∃ j, 25 ≤ j ∧ ∃ call fate,
        (ρ.state j).server.calls[x.responder]? = some call ∧
        (fates (ρ.state j).server.log).lookup x.responder = some fate ∧
        fate.response = direct sample single id x.responder call.input := by
  obtain ⟨d, hrun, hp, hq, hh, hw, hlog, cmd, cmd', hacc⟩ :
      ∃ d : Deployment Unit Unit String ℕ ℕ ℕ ℕ,
        (deployment sampleEnvironment sampleLaunch).run
          (.start sampleEnvironment sampleLaunch) deploymentRun = some d ∧
        d.server.batcher.phase = .head ∧ d.server.commandQueue = [] ∧ d.server.handles = [true] ∧
        d.server.workers = [⟨[], .receiving⟩] ∧ d.server.log.any Event.workerPanic = false ∧
        ∃ cmd cmd' : Command ℕ ℕ, accepted d.server.log = [cmd, cmd'] :=
    ⟨_, rfl, rfl, rfl, rfl, rfl, rfl, _, _, rfl⟩
  obtain ⟨ρ, hlast, -⟩ := Machine.exists_fairRun deploymentRun hrun
    (deployment_quiet hp hq (by simp [hh]) (by simp [hw]))
  have hlast : ∀ k, 25 ≤ k → ρ.state k = d := hlast
  obtain ⟨p, hopen⟩ : ∃ p, sampleEnvironment.openSession (sampleEnvironment.host true)
      sampleLaunch.modelPath sampleLaunch.config = .ok p := ⟨_, rfl⟩
  have hintact : ∀ j, Intact (ρ.state j).server := by
    intro j
    obtain ⟨t, ht, rfl⟩ := (deployment_refines (l := sampleLaunch) (steady_sample.keeps true)
      hopen).reaches (ρ.reachable j) rfl (ρ.reaches (le_max_left j 25))
    apply Intact.of_reaches ht
    rw [hlast _ (le_max_right _ _)]
    exact ⟨by rw [hp]; simp, hlog⟩
  have hacc' : accepted (ρ.state 25).server.log = [cmd, cmd'] := by rw [hlast 25 le_rfl]; exact hacc
  refine ⟨ρ, cmd, cmd', hacc', ?_⟩
  intro x hx
  exact deployed_directly steady_sample fromFile_sample hopen rowWise_sample (by decide) ρ hintact
    (by rw [hacc']; exact hx)

end OrtSuperserve

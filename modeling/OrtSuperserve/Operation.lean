import OrtSuperserve.Deployment
import OrtSuperserve.Termination

/-!
# A launch in operation

What a server does in every fair run, the deployment of a launch does as well, its workers trying to
open their sessions for as long as it takes: every command accepted is dealt with (`crashes_tolerated`),
and after a bounded number of steps (`bounded_wait`), and when every handle is dropped all that was
spawned ends (`shutdown_terminates`).

Attempts that fail are no steps of the server.  They cost no command its turn, and a run is fair only if
a worker that tries for ever succeeds.
-/

namespace OrtSuperserve

open Lib

variable {H L C M I P O F : Type} {E : Environment H L C M I P O F} {l : Launch L C}
  {d d' : Deployment L C M I P O F} {p : OpenSession L C M} {host : Host L C M}

/-! ### Runs of the deployment -/

/-- The server's own steps of a run; attempts that fail are not counted. -/
def ownSteps (E : Environment H L C M I P O F) (l : Launch L C) (as : List (DeploymentAction H I)) :
    ℕ :=
  (as.filterMap (DeploymentAction.toServer E l)).countP fun a => decide a.internal

/-- The server's own steps, the ones in which a worker leaves its loop, and the attempts that
succeed. -/
def DeploymentAction.closing (E : Environment H L C M I P O F) (l : Launch L C) :
    DeploymentAction H I → Prop := DeploymentAction.fairly E l Action.closing

/-- A run of the deployment, less the attempts that fail, is a run of the server. -/
lemma deployment_run (hE : E.Keeps l.modelPath host)
    (hp : E.openSession host l.modelPath l.config = .ok p) {as : List (DeploymentAction H I)}
    (hd : (deployment E l).Reachable d) (h : (deployment E l).run d as = some d') :
    (server (l.setup E (E.session p))).run d.server
      (as.filterMap (DeploymentAction.toServer E l)) = some d'.server := by
  refine Machine.run_filterMap (P := (deployment E l).Reachable) ?_ ?_ hd h
  · exact fun _ _ _ hu hst => hu.tail hst
  · exact fun _ _ _ hu hst => (deployment_step hst).toServer (uniform hE hp hu)

/-- An attempt is no death. -/
lemma eq_of_toServer {a : DeploymentAction H I} {w : ℕ}
    (h : a.toServer E l = some (.worker w .die)) : a = .server (.worker w .die) := by
  cases a with
  | attempt v host =>
    simp only [DeploymentAction.toServer] at h
    split at h <;> cases h
  | server b =>
    obtain rfl : b = .worker w .die := Option.some.inj h
    rfl

lemma not_die_bind {x : Option (DeploymentAction H I)}
    (hdie : ∀ w, x ≠ some (.server (.worker w .die))) (w : ℕ) :
    x.bind (DeploymentAction.toServer E l) ≠ some (.worker w .die) := by
  intro h
  obtain ⟨a, ha, hs⟩ := Option.bind_eq_some_iff.1 h
  rw [eq_of_toServer hs] at ha
  exact hdie w ha

lemma not_die_filterMap {as : List (DeploymentAction H I)}
    (hdie : ∀ w, .server (.worker w .die) ∉ as) (w : ℕ) :
    .worker w .die ∉ as.filterMap (DeploymentAction.toServer E l) := by
  intro hm
  obtain ⟨a, ha, hs⟩ := List.mem_filterMap.1 hm
  rw [eq_of_toServer hs] at ha
  exact hdie w ha

/-- A deployment of a server that has no step to take, with no session left to open, has none either. -/
lemma deployment_stuck {fair : Action I → Prop} (hE : E.Keeps l.modelPath host)
    (hp : E.openSession host l.modelPath l.config = .ok p) (hd : (deployment E l).Reachable d)
    (hopen : ∀ t ∈ d.server.workers, t.state ≠ .initializing)
    (hstuck : ∀ a t, fair a → (server (l.setup E (E.session p))).step d.server a ≠ some t)
    (a : DeploymentAction H I) (d' : Deployment L C M I P O F) (ha : a.fairly E l fair) :
    (deployment E l).step d a ≠ some d' := by
  intro hst
  cases deployment_step hst with
  | opened w h queue session ht => exact hopen _ (List.mem_of_getElem? ht) rfl
  | failed w h queue e ht => exact hopen _ (List.mem_of_getElem? ht) rfl
  | server a s' _ hs => exact hstuck a s' ha ((uniform hE hp hd).step_eq (.inl rfl) (.inr rfl) hs)

/-- A server at rest whose threads are over has no step to take, not even one out of a loop. -/
lemma over_stuck {S : Setup I P O F} {s : State I P O F} (hs : (server S).Reachable s)
    (hb : s.batcher.phase = .head ∧ s.commandQueue = [] ∧ true ∈ s.handles ∨ s.batcher.gone = true)
    (hw : ∀ t ∈ s.workers, t = ⟨[], .ended⟩ ∨ t = ⟨[], .dead⟩) (a : Action I) (u : State I P O F)
    (ha : a.closing) : (server S).step s a ≠ some u := by
  rcases ha with ha | ⟨w, rfl⟩
  · have hrest : Quiescent s := by
      refine ⟨hb, ?_⟩
      intro t ht
      rcases hw t ht with rfl | rfl
      · exact .inr (.inl rfl)
      · exact .inr (.inr rfl)
    have hdead : s.DeadEmpty := by
      intro t ht _
      rcases hw t ht with rfl | rfl <;> rfl
    exact (quiescent_iff hs hdead).2 hrest a u ha
  · intro hst
    cases server_step hst with
    | worker _ _ t r ht hm =>
      cases hm with
      | exit hrec => rcases hw t (List.mem_of_getElem? ht) with rfl | rfl <;> cases hrec

/-! ### What it brings about -/

section Started

variable {path : String} {config : StartConfig L C} {h₀ : H}

/-- **Crashes are tolerated.**  In every fair run of what `from_file` has started, while the file and
the constants of `ort` stay as they are, the batcher does not unwind and threads die in
`process_message` only, the responder of each command accepted is used. -/
theorem crashes_tolerated (hE : E.Steady path) (h : E.fromFile (E.host h₀) path config = .ok l)
    (ρ : (deployment E l).FairRun (DeploymentAction.internal E l))
    (hdie : ∀ j w, ρ.label j ≠ some (.server (.worker w .die)))
    (hb : ∀ j, (ρ.state j).server.batcher.phase ≠ .panicked) {k : ℕ} {cmd : Command I P}
    (hm : cmd ∈ accepted (ρ.state k).server.log) : ∃ j, k ≤ j ∧ Used cmd (ρ.state j).server := by
  obtain ⟨p, hp, hpath, hconfig, -, -⟩ := fromFile_ok h
  subst hpath hconfig
  obtain ⟨ρ', hstate, hlabel⟩ := deployment_fair (fun _ => trivial) hE hp ρ
  simp only [← hstate] at hb hm ⊢
  refine used_in_fair ρ' ?_ hb hm
  intro j
  rw [hlabel]
  exact not_die_bind (hdie j)

/-- **The wait is bounded.**  In a run of what `from_file` has started, while the file and the constants
of `ort` stay as they are and threads die in `process_message` only: from any state on, whatever the
clients do and however the steps are interleaved, once the server has taken more steps of its own than
the rounds ahead of a command can cost, the command is dealt with, unless the batcher has unwound. -/
theorem bounded_wait (hE : E.Steady path) (h : E.fromFile (E.host h₀) path config = .ok l)
    {before as : List (DeploymentAction H I)}
    (hd : (deployment E l).run (.start E l) before = some d)
    (hrun : (deployment E l).run d as = some d')
    (hdie : ∀ w, .server (.worker w .die) ∉ before ++ as) {i : ℕ} {cmd : Command I P}
    (hi : (accepted d.server.log)[i]? = some cmd) (hb : d'.server.batcher.phase ≠ .panicked)
    (hlong : (d.server.ahead i + 1) * roundCost config.roundSize + config.numSessions + 2 <
      ownSteps E l as) : Used cmd d'.server := by
  obtain ⟨p, hp, hpath, hconfig, -, -⟩ := fromFile_ok h
  subst hpath hconfig
  have hE := hE.keeps h₀
  have hreach : (deployment E l).Reachable d := ⟨before, hd⟩
  have hbefore := deployment_run hE hp .start hd
  have hdead := deadEmpty_run .start (deadEmpty_start _) hbefore
    (not_die_filterMap fun w hw => hdie w (List.mem_append_left _ hw))
  exact used_in_long ⟨_, hbefore⟩ hdead hi (deployment_run hE hp hreach hrun)
    (not_die_filterMap fun w hw => hdie w (List.mem_append_right _ hw)) hb hlong

/-- **Shutdown terminates.**  In a run of what `from_file` has started that is fair to the server's own
steps, to the attempts that succeed and to the workers that leave their loop, while the file and the
constants of `ort` stay as they are and threads die in `process_message` only: once every handle is
dropped, or the batcher has unwound, the batcher is gone and no worker thread runs from some moment
on. -/
theorem shutdown_terminates (hE : E.Steady path) (h : E.fromFile (E.host h₀) path config = .ok l)
    (ρ : (deployment E l).FairRun (DeploymentAction.closing E l))
    (hdie : ∀ j w, ρ.label j ≠ some (.server (.worker w .die))) {k : ℕ}
    (hclosed : (ρ.state k).server.Closed) :
    ∃ j, k ≤ j ∧ ∀ i, j ≤ i → Terminated (ρ.state i).server := by
  obtain ⟨p, hp, hpath, hconfig, -, -⟩ := fromFile_ok h
  subst hpath hconfig
  obtain ⟨ρ', hstate, hlabel⟩ := deployment_fair (fun _ => .inl trivial) hE hp ρ
  simp only [← hstate] at hclosed ⊢
  refine terminates_in_fair ρ' ?_ hclosed
  intro j
  rw [hlabel]
  exact not_die_bind (hdie j)

end Started

/-! ### Launches of the sample -/

/-- The sample, with a session that panics. -/
def fragileEnvironment : Environment Bool Unit Unit String ℕ ℕ ℕ ℕ :=
  { sampleEnvironment with session := fun _ => fragile.session }

/-- The worker fails once, opens its session, and panics over the first batch. -/
def fragileDeploymentRun : List (DeploymentAction Bool ℕ) :=
  [.server (.batcher (.turn .start)), .attempt 0 false, .attempt 0 true] ++
    (fragileRun.drop 2).map .server

/-- Both callers of the worker that panics hear of it. -/
theorem crashes_tolerated_sample : ∃ ρ : (deployment fragileEnvironment sampleLaunch).FairRun
    (DeploymentAction.internal fragileEnvironment sampleLaunch),
    (accepted (ρ.state 26).server.log).length = 2 ∧
      ∀ cmd ∈ accepted (ρ.state 26).server.log, ∃ j, 26 ≤ j ∧ Used cmd (ρ.state j).server := by
  obtain ⟨d, hrun, hp, hq, hh, hw, hacc⟩ : ∃ d : Deployment Unit Unit String ℕ ℕ ℕ ℕ,
      (deployment fragileEnvironment sampleLaunch).run
        (.start fragileEnvironment sampleLaunch) fragileDeploymentRun = some d ∧
      d.server.batcher.phase = .head ∧ d.server.commandQueue = [] ∧ d.server.handles = [true] ∧
      d.server.workers = [⟨[], .dead⟩] ∧ (accepted d.server.log).length = 2 :=
    ⟨_, rfl, rfl, rfl, rfl, rfl, rfl⟩
  have hdie : ∀ w, DeploymentAction.server (.worker w .die) ∉ fragileDeploymentRun := by
    simp [fragileDeploymentRun, fragileRun]
  have hsteady : fragileEnvironment.Steady "model.onnx" := fun _ _ => ⟨rfl, rfl, rfl⟩
  have hfile : fragileEnvironment.fromFile (fragileEnvironment.host true) "model.onnx" sampleConfig =
      .ok sampleLaunch := rfl
  obtain ⟨p, hopen⟩ : ∃ p, fragileEnvironment.openSession (fragileEnvironment.host true)
      sampleLaunch.modelPath sampleLaunch.config = .ok p := ⟨_, rfl⟩
  have hserver := (deployment_serves (l := sampleLaunch) (hsteady.keeps true) hopen ⟨_, hrun⟩).1
  obtain ⟨ρ, hlast, hlabels, -⟩ := Machine.exists_fairRun fragileDeploymentRun hrun
    (deployment_stuck (hsteady.keeps true) hopen ⟨_, hrun⟩ (by simp [hw]) fun a t ha =>
      over_stuck hserver (.inl ⟨hp, hq, by simp [hh]⟩) (by simp [hw]) a t (.inl ha))
  have hlast : ∀ k, 26 ≤ k → ρ.state k = d := hlast
  have hb : ∀ j, (ρ.state j).server.batcher.phase ≠ .panicked := by
    intro j hpj
    obtain ⟨t, ht, rfl⟩ := (deployment_refines (l := sampleLaunch) (hsteady.keeps true)
      hopen).reaches (ρ.reachable j) rfl (ρ.reaches (le_max_left j 26))
    have := panicked_of_reaches hpj ht
    rw [hlast _ (le_max_right _ _), hp] at this
    cases this
  refine ⟨ρ, by rw [hlast 26 le_rfl]; exact hacc, ?_⟩
  intro cmd hm
  exact crashes_tolerated hsteady hfile ρ (fun j w hl => hdie w (hlabels j _ hl)) hb hm

/-- One call to a batch. -/
def soloConfig : StartConfig Unit Unit := { sampleConfig with maxBatchSize := 1 }

def soloLaunch : Launch Unit Unit := ⟨"model.onnx", soloConfig, "input", "output"⟩

/-- A call is received, while the worker has no session, -/
def soloStart : List (DeploymentAction Bool ℕ) :=
  [.server (.batcher (.turn .start)), .server (.client (.infer 0 7)), .server (.client (.prepare 0)),
    .server (.client (.send 0)), .server (.batcher .recv), .attempt 0 false]

/-- and 19 steps of the server's own later it is answered, and another one underway. -/
def soloRest : List (DeploymentAction Bool ℕ) :=
  [.attempt 0 false, .attempt 0 true] ++
    ([.batcher (.turn .full), .batcher (.turn .check), .batcher (.turn (.preprocessed 0)),
      .batcher (.turn (.filter [0])), .batcher (.turn .batch), .batcher .dispatch, .worker 0 .take,
      .worker 0 .process, .batcher .reply, .batcher (.turn (.postprocessed 0)),
      .batcher (.turn .finish), .client (.infer 0 8), .client (.prepare 1), .client (.send 1),
      .batcher .recv, .batcher (.turn .full), .batcher (.turn .check),
      .batcher (.turn (.preprocessed 0)), .batcher (.turn (.filter [0])), .batcher (.turn .batch),
      .batcher .dispatch] : List (Action ℕ)).map .server

theorem bounded_wait_sample : ∃ d d' : Deployment Unit Unit String ℕ ℕ ℕ ℕ, ∃ cmd : Command ℕ ℕ,
    (deployment sampleEnvironment soloLaunch).run (.start sampleEnvironment soloLaunch) soloStart =
      some d ∧ accepted d.server.log = [cmd] ∧ fates d.server.log = [] ∧
    (deployment sampleEnvironment soloLaunch).run d soloRest = some d' ∧ Used cmd d'.server := by
  obtain ⟨d, d', cmd, hd, hacc, hrec, hfates, hrun, hp⟩ :
      ∃ d d' : Deployment Unit Unit String ℕ ℕ ℕ ℕ, ∃ cmd : Command ℕ ℕ,
      (deployment sampleEnvironment soloLaunch).run (.start sampleEnvironment soloLaunch) soloStart =
        some d ∧ accepted d.server.log = [cmd] ∧ (received d.server.log).length = 1 ∧
      fates d.server.log = [] ∧
      (deployment sampleEnvironment soloLaunch).run d soloRest = some d' ∧
      d'.server.batcher.gone = false := ⟨_, _, _, rfl, rfl, rfl, rfl, rfl, rfl⟩
  have hfile : sampleEnvironment.fromFile (sampleEnvironment.host true) "model.onnx" soloConfig =
      .ok soloLaunch := rfl
  have hdie : ∀ w, DeploymentAction.server (.worker w .die) ∉ soloStart ++ soloRest := by
    simp [soloStart, soloRest]
  have hlong : (d.server.ahead 0 + 1) * roundCost soloConfig.roundSize + soloConfig.numSessions + 2 <
      ownSteps sampleEnvironment soloLaunch soloRest := by
    rw [State.ahead, hrec]
    decide
  exact ⟨d, d', cmd, hd, hacc, hfates, hrun, bounded_wait steady_sample hfile hd hrun hdie
    (by rw [hacc]; rfl) (Batcher.ne_panicked hp) hlong⟩

/-- The sample, after which the handle is dropped, and the batcher and the worker leave their loops. -/
def closedRun : List (DeploymentAction Bool ℕ) :=
  deploymentRun ++
    ([.client (.shutdown 0), .batcher .closed, .worker 0 .exit] : List (Action ℕ)).map .server

theorem shutdown_terminates_sample : ∃ ρ : (deployment sampleEnvironment sampleLaunch).FairRun
    (DeploymentAction.closing sampleEnvironment sampleLaunch),
    (ρ.state 26).server.handles = [false] ∧
      ∃ j, 26 ≤ j ∧ ∀ i, j ≤ i → Terminated (ρ.state i).server := by
  obtain ⟨d, u, hrun, hu, hhandles, hp, hw⟩ : ∃ d u : Deployment Unit Unit String ℕ ℕ ℕ ℕ,
      (deployment sampleEnvironment sampleLaunch).run
        (.start sampleEnvironment sampleLaunch) closedRun = some d ∧
      (deployment sampleEnvironment sampleLaunch).run
        (.start sampleEnvironment sampleLaunch) (closedRun.take 26) = some u ∧
      u.server.handles = [false] ∧ d.server.batcher.gone = true ∧
      d.server.workers = [⟨[], .ended⟩] := ⟨_, _, rfl, rfl, rfl, rfl, rfl⟩
  obtain ⟨p, hopen⟩ : ∃ p, sampleEnvironment.openSession (sampleEnvironment.host true)
      sampleLaunch.modelPath sampleLaunch.config = .ok p := ⟨_, rfl⟩
  have hserver := (deployment_serves (l := sampleLaunch) (steady_sample.keeps true) hopen
    ⟨_, hrun⟩).1
  obtain ⟨ρ, -, hlabels, hstate⟩ := Machine.exists_fairRun closedRun hrun
    (deployment_stuck (steady_sample.keeps true) hopen ⟨_, hrun⟩ (by simp [hw])
      (over_stuck hserver (.inr hp) (by simp [hw])))
  have hdie : ∀ j w, ρ.label j ≠ some (.server (.worker w .die)) := by
    intro j w hl
    have hm := hlabels j _ hl
    simp [closedRun, deploymentRun, sampleRun] at hm
  have hclosed : (ρ.state 26).server.handles = [false] := by
    rw [hstate 26 u hu]
    exact hhandles
  refine ⟨ρ, hclosed, shutdown_terminates steady_sample fromFile_sample ρ hdie (.inl ?_)⟩
  intro x hx
  rw [hclosed, List.mem_singleton] at hx
  exact hx

end OrtSuperserve

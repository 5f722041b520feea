import OrtSuperserve.History

/-!
# Who gets the next batch

The batcher goes round the workers by a counter, whatever has become of them.  So the batch of the
`k`-th dispatch goes to worker `k % 2 ^ bits % num_sessions`, and while some worker serves, the batches
of a run are all handed over, and nobody is told "Worker unavailable", just when the worker whose turn
it is was alive at every dispatch (`dispatch_available_iff`).
-/

namespace OrtSuperserve

open Lib

variable {I P O F : Type} {S : Setup I P O F} {s s' : State I P O F} {a : Action I}

/-! ### The rota -/

/-- The worker whose turn it is, by the number of dispatches so far. -/
def State.turn (S : Setup I P O F) (s : State I P O F) : ℕ :=
  (dispatches s.log).length % 2 ^ S.target.bits % S.config.numSessions

structure Rota (S : Setup I P O F) (s : State I P O F) : Prop where
  index : s.batcher.dispatchIndex = (dispatches s.log).length % 2 ^ S.target.bits
  workers : s.workers.length = S.config.numSessions

lemma Rota.start (S : Setup I P O F) : Rota S (State.start S) := by
  refine ⟨?_, ?_⟩ <;> simp [State.start, Batcher.init]

lemma Step.length_workers (h : Step S s a s') : s'.workers.length = s.workers.length := by
  cases h with
  | client a _ hm => cases hm <;> rfl
  | dispatch => exact List.length_modify _ _ _
  | worker => exact List.length_set
  | _ => rfl

lemma Rota.step (h : Rota S s) (hs : Step S s a s') : Rota S s' := by
  refine ⟨?_, hs.length_workers.trans h.workers⟩
  cases hs.effect with
  | batcher l evs move log =>
    have hlt : s.batcher.dispatchIndex < 2 ^ S.target.bits := by
      rw [h.index]
      exact Nat.mod_lt _ (Nat.two_pow_pos _)
    rw [(move.dispatchIndex_eq hlt).1, log, dispatches_append, List.length_append, h.index,
      Nat.mod_add_mod]
  | accepted cmd batcher _ log => simpa [batcher, log] using h.index
  | dropped cmd batcher _ log => simpa [batcher, log] using h.index
  | quiet evs batcher quiet log =>
    have hd : dispatches evs = [] := quiet.dispatches_eq
    rw [batcher, log, dispatches_append, hd, List.append_nil]
    exact h.index

/-- **The dispatch index is the number of dispatches**, as far as a `usize` counts. -/
theorem rota (hs : (server S).Reachable s) : Rota S s :=
  hs.invariant (Rota.start S) fun _ _ _ _ hu hstep => hu.step (server_step hstep)

lemma Rota.chosen_eq (h : Rota S s) : s.chosen S = s.turn S := by
  rw [State.chosen, h.index, State.turn]

/-! ### Available workers -/

/-- The thread runs its receive loop. -/
def WorkerThread.serving (t : WorkerThread F) : Bool :=
  match t.state with
  | .receiving | .processing _ => true
  | .initializing | .ended | .dead => false

/-- Some worker runs its receive loop. -/
def State.Serving (s : State I P O F) : Prop := ∃ t ∈ s.workers, t.serving = true

/-- The worker whose turn it is has not ended or died. -/
def State.InTurn (S : Setup I P O F) (s : State I P O F) : Prop :=
  ∃ t, s.workers[s.turn S]? = some t ∧ t.alive = true

/-- The message of the batch goes into the channel of a worker that is alive. -/
def HandedOver (s s' : State I P O F) : Prop :=
  ∃ (w : ℕ) (t : WorkerThread F) (msg : WorkerMessage F), s.workers[w]? = some t ∧
    t.alive = true ∧ s'.batcher.outbox = [msg] ∧
    s'.workers[w]? = some { t with queue := t.queue ++ [msg] }

/-- What the step from `s` to `s'` answers is not "Worker unavailable". -/
def NoneUnavailable (s s' : State I P O F) : Prop :=
  ∃ evs, s'.log = s.log ++ evs ∧ ∀ c, (c, .answered (.error .workerUnavailable)) ∉ fates evs

/-- A step that finds a worker for its batch. -/
def FindsWorker (s : State I P O F) (a : Action I) (s' : State I P O F) : Prop :=
  (a = .batcher .dispatch → HandedOver s s') ∧ NoneUnavailable s s'

lemma accepts_iff (h : Rota S s) : s.accepts S = true ↔ s.InTurn S := by
  unfold State.accepts State.InTurn
  rw [h.chosen_eq]
  cases s.workers[s.turn S]? <;> simp

/-- Only a refused dispatch is answered "Worker unavailable". -/
lemma Batcher.Move.unavailable {b b' : Batcher I P F} {l : BatcherAction I P F}
    {evs : List (Event I P O F)} (h : Batcher.Move S b l b' evs) {c : ℕ}
    (hc : (c, .answered (.error .workerUnavailable)) ∈ fates evs) : l = .sent false := by
  cases h.sends hc with
  | refused => rfl
  | reply r n _ he =>
    cases r with
    | ok outputs => cases he.2
    | err t => cases he
    | closed => cases he

/-- A step other than a refused dispatch answers no "Worker unavailable". -/
lemma Step.noneUnavailable (h : Step S s a s')
    (ha : a = .batcher .dispatch → s.accepts S = true) : NoneUnavailable s s' := by
  have hbatcher : ∀ {b' : Batcher I P F} {l : BatcherAction I P F} {evs : List (Event I P O F)},
      Batcher.Move S s.batcher l b' evs → l ≠ .sent false → s'.log = s.log ++ evs →
      NoneUnavailable s s' := fun hm hl hlog => ⟨_, hlog, fun c hc => hl (hm.unavailable hc)⟩
  have hquiet : ∀ {evs : List (Event I P O F)}, Quiet evs → s'.log = s.log ++ evs →
      NoneUnavailable s s' := fun {evs} hq hlog => by
    have hnil : fates evs = [] := hq.fates_eq
    exact ⟨evs, hlog, fun c hc => by rw [hnil] at hc; cases hc⟩
  cases h with
  | client a _ hm =>
    cases hm with
    | prepare c call => exact hquiet (quiet_prepare S c call.input) rfl
    | send c call cmd => exact ⟨[.accepted cmd], rfl, by simp⟩
    | _ => exact hquiet Quiet.nil (List.append_nil _).symm
  | recv cmd rest b' evs hq hm => exact hbatcher hm (by simp) rfl
  | closed b' evs hq hh hm => exact hbatcher hm (by simp) rfl
  | dispatch b' evs hm => exact hbatcher hm (by rw [ha rfl]; simp) rfl
  | reply r b' evs hr hm => exact hbatcher hm (by simp) rfl
  | turn t b' evs hm => exact hbatcher hm (by simp) rfl
  | worker w a t r ht hm => exact hquiet hm.quiet rfl
  | discard cmd rest hq hg => exact ⟨[.drop cmd.responder], rfl, by simp⟩

/-- A dispatch is handed over if the chosen channel takes the message, and only then. -/
lemma Step.handedOver_iff (h : Step S s (.batcher .dispatch) s') (hr : Rota S s) (hs : s.Serving) :
    HandedOver s s' ↔ s.accepts S = true := by
  cases h with
  | dispatch b' evs hm =>
    constructor
    · rintro ⟨w, t, msg, -, -, hout, -⟩
      by_contra hacc
      have hnil : b'.outbox = [] := hm.outbox_of_ne_sent (by simpa using hacc)
      rw [show b'.outbox = [msg] from hout] at hnil
      cases hnil
    · intro hacc
      rw [hacc] at hm
      obtain ⟨t, ht, halive⟩ := (accepts_iff hr).1 hacc
      rw [← hr.chosen_eq] at ht
      cases hm with
      | divZero tensor rs _ hp hn =>
        obtain ⟨t, hm, -⟩ := hs
        have := List.length_pos_of_mem hm
        have := hr.workers
        omega
      | sent tensor rs hp hn =>
        refine ⟨s.chosen S, t, _, ht, halive, rfl, ?_⟩
        rw [State.afterBatcher, List.getElem?_modify_eq, ht]
        rfl
      | leave _ hp hl => exact hl.elim

/-- **Batches go to an available worker just when the one whose turn it is is available.**  Along any
run, while some worker serves: every batch is handed to a worker that is alive and no caller is told
"Worker unavailable", if and only if at every dispatch the worker at the position of the rota is
alive. -/
theorem dispatch_available_iff (S : Setup I P O F) (as : List (Action I)) :
    (server S).Steps (.start S) as (fun u a v => u.Serving → FindsWorker u a v) ↔
      (server S).Steps (.start S) as
        (fun u a _ => a = .batcher .dispatch → u.Serving → u.InTurn S) := by
  apply Machine.Steps.congr
  intro u a v hu hst
  have hr := rota hu
  have hstep := server_step hst
  constructor
  · rintro h rfl hs
    exact (accepts_iff hr).1 ((hstep.handedOver_iff hr hs).1 ((h hs).1 rfl))
  · intro h hs
    have hacc : a = .batcher .dispatch → u.accepts S = true := fun ha => (accepts_iff hr).2 (h ha hs)
    refine ⟨?_, hstep.noneUnavailable hacc⟩
    rintro rfl
    exact (hstep.handedOver_iff hr hs).2 (hacc rfl)

/-! ### A dead worker among two -/

/-- The identity model, except that it panics on the batch of round `0`. -/
def crashingSession : Session ℕ where
  fromArrayView _ _ := .ok ()
  run r name t := if r = 0 then .panic else (identitySession (F := ℕ)).run r name t

/-- The sample with two workers and batches of one. -/
def samplePair : Setup ℕ ℕ ℕ ℕ :=
  { sample with config := { numSessions := 2, maxBatchSize := 1 }, session := crashingSession }

/-- The call `c` sends `7`, and the batcher takes it up to the dispatch. -/
def upToDispatch (c : ℕ) : List (Action ℕ) :=
  [.client (.infer 0 7), .client (.prepare c), .client (.send c), .batcher .recv,
    .batcher (.turn .full), .batcher (.turn .check), .batcher (.turn (.preprocessed 0)),
    .batcher (.turn (.filter [0])), .batcher (.turn .batch)]

/-- Worker `0` dies of its first batch, worker `1` serves the second. -/
def pairRun : List (Action ℕ) :=
  [.batcher (.turn .start), .worker 0 .init, .worker 1 .init] ++ upToDispatch 0 ++
    [.batcher .dispatch, .worker 0 .take, .worker 0 .process, .batcher .reply] ++ upToDispatch 1 ++
    [.batcher .dispatch, .worker 1 .take, .worker 1 .process, .batcher .reply,
      .batcher (.turn (.postprocessed 0)), .batcher (.turn .finish)] ++ upToDispatch 2

/-- The third batch goes to the dead worker `0`, and its caller is told "Worker unavailable", while
worker `1` waits for work. -/
theorem not_dispatch_available : ¬ ∀ (S : Setup ℕ ℕ ℕ ℕ) (as : List (Action ℕ)),
    (server S).Steps (.start S) as (fun u a v => u.Serving → FindsWorker u a v) := by
  intro h
  obtain ⟨u, v, hrun, hst, hw, hlog⟩ : ∃ u v : State ℕ ℕ ℕ ℕ,
      (server samplePair).run (.start samplePair) pairRun = some u ∧
        (server samplePair).step u (.batcher .dispatch) = some v ∧
        u.workers = [⟨[], .dead⟩, ⟨[], .receiving⟩] ∧
        v.log = u.log ++ [.dispatch 0 ⟨[1, 1], [7], rfl⟩,
          .answer 2 (.error .workerUnavailable)] := ⟨_, _, rfl, rfl, rfl, rfl⟩
  obtain ⟨evs, hevs, hnone⟩ := (h samplePair (pairRun ++ [.batcher .dispatch]) pairRun _ [] u v rfl
    hrun hst ⟨⟨[], .receiving⟩, by simp [hw], rfl⟩).2
  obtain rfl := List.append_cancel_left (hlog.symm.trans hevs)
  exact hnone 2 (by simp)

end OrtSuperserve

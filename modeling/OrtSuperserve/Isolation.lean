import OrtSuperserve.Loss

/-!
# Panics in user code

`preprocess` and `postprocess` run in tasks of their own, and a panic there costs its caller at most.
`I::batch` is called by the batcher itself, which unwinds with it: as long as a handle is alive the
batcher is gone just when a call of `I::batch` has panicked.  As long as none does and `select!` loses
no command, every command accepted is collected and answered, unless its own postprocessing panics
(`panic_confined`).
-/

namespace OrtSuperserve

open Lib

variable {I P O F : Type} {S : Setup I P O F} {s s' : State I P O F} {a : Action I}

/-- A call of `I::batch` in the log has panicked. -/
def BatchPanicked (S : Setup I P O F) (log : List (Event I P O F)) : Prop :=
  ∃ r items, (r, items) ∈ batchCalls log ∧ S.user.batch r items = .panic

namespace Batcher

variable {b b' : Batcher I P F} {l : BatcherAction I P F} {evs : List (Event I P O F)}

/-- What the batcher unwinds by. -/
lemma Move.unwinds_iff (h : Move S b l b' evs) (hn : S.config.numSessions ≠ 0)
    (hfit : ¬ S.target.capacityOverflow S.target.commandSize S.config.maxBatchSize) :
    b'.phase = .panicked ↔ BatchPanicked S evs := by
  unfold BatchPanicked
  cases h with
  | overflow _ ho => exact absurd ho hfit
  | divZero _ _ _ _ h0 => exact absurd h0 hn
  | more cmd hp => simp [hp]
  | spawn => simp [spawnPreprocess]
  | batchOk items rs t hp h => simp [h]
  | batchErr items rs e hp h => simp [nextRound, h]
  | batchPanic items rs hp h => exact ⟨fun _ => ⟨b.round, items, by simp, h⟩, fun _ => rfl⟩
  | _ => simp [nextRound]

end Batcher

lemma batchPanicked_append (log evs : List (Event I P O F)) :
    BatchPanicked S (log ++ evs) ↔ BatchPanicked S log ∨ BatchPanicked S evs := by
  simp only [BatchPanicked, batchCalls_append, List.mem_append, or_and_right, exists_or]

lemma not_batchPanicked {evs : List (Event I P O F)} (h : batchCalls evs = []) :
    ¬ BatchPanicked S evs := by
  rintro ⟨r, items, hm, -⟩
  rw [h] at hm
  cases hm

/-- The batcher has unwound just when `I::batch` has. -/
def State.UnwoundByBatch (S : Setup I P O F) (s : State I P O F) : Prop :=
  s.batcher.phase = .panicked ↔ BatchPanicked S s.log

lemma Step.unwoundByBatch (h : Step S s a s') (hn : S.config.numSessions ≠ 0)
    (hfit : ¬ S.target.capacityOverflow S.target.commandSize S.config.maxBatchSize)
    (hs : s.UnwoundByBatch S) : s'.UnwoundByBatch S := by
  unfold State.UnwoundByBatch at hs ⊢
  cases h.effect with
  | batcher l evs move log =>
    have hne : ¬ BatchPanicked S s.log := fun h => Batcher.ne_panicked move.alive (hs.2 h)
    rw [log, batchPanicked_append, or_iff_right hne]
    exact move.unwinds_iff hn hfit
  | accepted cmd batcher _ log =>
    rw [batcher, log, batchPanicked_append, or_iff_left (not_batchPanicked rfl)]
    exact hs
  | dropped cmd batcher _ log =>
    rw [batcher, log, batchPanicked_append, or_iff_left (not_batchPanicked rfl)]
    exact hs
  | quiet evs batcher quiet log =>
    rw [batcher, log, batchPanicked_append, or_iff_left (not_batchPanicked quiet.batchCalls_eq)]
    exact hs

theorem unwound_iff (hs : (lossyServer S).Reachable s) (hn : S.config.numSessions ≠ 0)
    (hfit : ¬ S.target.capacityOverflow S.target.commandSize S.config.maxBatchSize) :
    s.UnwoundByBatch S := by
  refine lossy_invariant (Q := State.UnwoundByBatch S) ?_ ?_ hs ?_
  · exact fun _ _ _ hu hst => hst.unwoundByBatch hn hfit hu
  · intro s cmd rest hu _
    unfold State.UnwoundByBatch at hu ⊢
    rw [batchPanicked_append, or_iff_left (not_batchPanicked rfl)]
    exact hu
  · simp [lossyServer, State.start, Batcher.init, State.UnwoundByBatch, BatchPanicked]

lemma lossy_outlived (hs : (lossyServer S).Reachable s) : s.Outlived := by
  refine lossy_invariant (Q := State.Outlived) ?_ ?_ hs ?_
  · exact fun _ _ _ hu hst => hst.outlived hu
  · exact fun _ _ _ hu _ => hu
  · intro hp
    cases hp

/-- A command whose responder is used was in a batch. -/
lemma collected_of_used (hs : (server S).Reachable s) (hp : s.batcher.phase ≠ .panicked)
    {cmd : Command I P} (hm : cmd ∈ accepted s.log) (hu : Used cmd s) :
    ∃ batch ∈ collected s.log, cmd ∈ batch := by
  have hst := stream hs
  have hone : s.responders.count cmd.responder = 1 :=
    List.count_eq_one_of_mem (calls hs).nodup (List.mem_map_of_mem hm)
  have hled := ledger hs cmd.responder
  have hused : 0 < s.answers cmd.responder + s.drops cmd.responder := by
    rw [← count_fates]
    obtain ⟨x, hx⟩ := hu
    exact List.count_pos_iff.2 (List.mem_map.2 ⟨_, hx, rfl⟩)
  have hqueue : cmd ∉ s.commandQueue := fun h => by
    have : 0 < s.inQueue cmd.responder := List.count_pos_iff.2 (List.mem_map_of_mem h)
    omega
  have hpending : cmd ∉ s.batcher.pending := fun h => by
    have hbuf : cmd ∈ s.batcher.batchBuffer := by
      unfold Batcher.pending at h
      split at h
      · exact h
      · cases h
    have : 0 < s.inBuffer cmd.responder := List.count_pos_iff.2 (List.mem_map_of_mem hbuf)
    omega
  rw [hst.accepted_eq hp, hst.taken, List.mem_append, List.mem_append] at hm
  exact List.mem_flatten.1 ((hm.resolve_right hqueue).resolve_right hpending)

/-- **A panic stays confined as long as it is not one of `I::batch`**, and the channel loses nothing.
With a worker at least, and a `max_batch_size` that can be allocated, in every run, losses included:
while a handle is alive the batcher is gone just when a call of `I::batch` has panicked; a command
that is lost is collected into no batch; and if no call of `I::batch` panics, no command is lost and
no worker dies, in a run fair to the server's own steps every command accepted is collected into a
batch, and has a value sent on its responder unless its own postprocessing panicked. -/
theorem panic_confined (hn : 1 ≤ S.config.numSessions)
    (hfit : ¬ S.target.capacityOverflow S.target.commandSize S.config.maxBatchSize) :
    (∀ s, (lossyServer S).Reachable s → true ∈ s.handles →
      (s.batcher.gone = true ↔ BatchPanicked S s.log)) ∧
    (∀ s s', (lossyServer S).Reachable s → (lossyServer S).step s .lose = some s' →
      ∃ cmd ∈ accepted s.log, ∀ t, (lossyServer S).Reaches s' t →
        ∀ batch ∈ collected t.log, cmd ∉ batch) ∧
    ∀ ρ : (lossyServer S).FairRun LossyAction.internal,
      (∀ k, ∀ t ∈ (ρ.state k).workers, t.state ≠ .dead) →
      (∀ k, ¬ BatchPanicked S (ρ.state k).log) →
      (∀ k, ρ.label k ≠ some .lose) →
      ∀ k, ∀ cmd ∈ accepted (ρ.state k).log, ∃ j, k ≤ j ∧
        (∃ batch ∈ collected (ρ.state j).log, cmd ∈ batch) ∧
        ((∃ response, (cmd.responder, .answered response) ∈ fates (ρ.state j).log) ∨
          ∃ row, (cmd.responder, row) ∈ postprocessCalls (ρ.state j).log ∧
            S.user.postprocess cmd.responder row = .panic) := by
  have hn' : S.config.numSessions ≠ 0 := by omega
  refine ⟨?_, fun s s' hs h => lost_never_collected hs h, ?_⟩
  · intro s hs hh
    have hunwound : s.batcher.phase = .panicked ↔ BatchPanicked S s.log := unwound_iff hs hn' hfit
    rw [← hunwound]
    constructor
    · intro hg
      unfold Batcher.gone at hg
      split at hg
      · exact absurd (lossy_outlived hs ‹_› true hh) (by simp)
      · assumption
      · cases hg
    · intro hp
      simp [Batcher.gone, hp]
  · intro ρ hw hb hlose k cmd hm
    have hp : ∀ j, (ρ.state j).batcher.phase ≠ .panicked := fun j h =>
      hb j ((unwound_iff (ρ.reachable j) hn' hfit).1 h)
    -- without a loss the run is one of the server
    obtain ⟨ρ', hρ⟩ := lossless_fair ρ hlose
    simp only [← hρ] at hp hw hm ⊢
    obtain ⟨j, hj, hu⟩ := eventually_used ρ' hp hw hm
    have hmj : cmd ∈ accepted (ρ'.state j).log :=
      ((log_grows (ρ'.reaches hj)).filterMap Event.accepted?).subset hm
    refine ⟨j, hj, collected_of_used (ρ'.reachable j) (hp j) hmj hu, ?_⟩
    obtain ⟨x, hx⟩ := hu
    cases x with
    | answered response => exact .inl ⟨response, hx⟩
    | dropped => exact .inr ((history (ρ'.reachable j)).dropped (hp j) hx)

/-! ### A run with a panic in each hook -/

/-- User code that panics: `preprocess` on `1`, `postprocess` on `2`, and `I::batch` on `13`. -/
def panickyUser : UserCode ℕ ℕ ℕ ℕ where
  preprocess _ x := if x = 1 then .panic else .ok x
  batch r items := if 13 ∈ items then .panic else sampleUser.batch r items
  postprocess _ a := if a.data = [2] then .panic else .ok (a.data.headD 0)

def samplePanicky : Setup ℕ ℕ ℕ ℕ :=
  { sample with config := { maxBatchSize := 3 }, user := panickyUser }

/-- Three calls send `1`, `2` and `3`, which share a batch. -/
def panickyRun : List (Action ℕ) :=
  [.batcher (.turn .start), .worker 0 .init, .client (.infer 0 1), .client (.prepare 0),
    .client (.send 0), .client (.infer 0 2), .client (.prepare 1), .client (.send 1),
    .client (.infer 0 3), .client (.prepare 2), .client (.send 2), .batcher .recv, .batcher .recv,
    .batcher .recv, .batcher (.turn .full), .batcher (.turn .check),
    .batcher (.turn (.preprocessed 0)), .batcher (.turn (.preprocessed 0)),
    .batcher (.turn (.preprocessed 0)), .batcher (.turn (.filter [1, 2])), .batcher (.turn .batch),
    .batcher .dispatch, .worker 0 .take, .worker 0 .process, .batcher .reply,
    .batcher (.turn (.postprocessed 0)), .batcher (.turn (.postprocessed 0)),
    .batcher (.turn .finish)]

/-- An idle server has no command to lose. -/
lemma lossy_quiet (hp : s.batcher.phase = .head) (hq : s.commandQueue = []) (hh : true ∈ s.handles)
    (hw : ∀ t ∈ s.workers, t = ⟨[], .receiving⟩) (a : LossyAction I) (t : State I P O F)
    (ha : a.internal) : (lossyServer S).step s a ≠ some t := by
  cases a with
  | server a => exact idle_quiet hp hq hh hw a t ha
  | lose =>
    intro h
    obtain ⟨u, -, -, hu, -, -⟩ := lose_cases h
    cases hu with
    | turn n b' evs hm => rcases hm.of_head hp with ⟨cmd, hl⟩ | hl <;> cases hl

/-- The panics of `preprocess` and `postprocess` cost the calls `0` and `1`, and the call `2` is
answered. -/
theorem panic_confined_sample : ∃ ρ : (lossyServer samplePanicky).FairRun LossyAction.internal,
    (accepted (ρ.state 28).log).length = 3 ∧
      ∀ cmd ∈ accepted (ρ.state 28).log, ∃ j, 28 ≤ j ∧
        (∃ batch ∈ collected (ρ.state j).log, cmd ∈ batch) ∧
        ((∃ response, (cmd.responder, .answered response) ∈ fates (ρ.state j).log) ∨
          ∃ row, (cmd.responder, row) ∈ postprocessCalls (ρ.state j).log ∧
            samplePanicky.user.postprocess cmd.responder row = .panic) := by
  obtain ⟨s, hrun, hp, hq, hh, hw, hcalls, hpanics, hacc⟩ : ∃ s : State ℕ ℕ ℕ ℕ,
      (lossyServer samplePanicky).run (.start samplePanicky) (panickyRun.map .server) = some s ∧
        s.batcher.phase = .head ∧ s.commandQueue = [] ∧ s.handles = [true] ∧
        s.workers = [⟨[], .receiving⟩] ∧ batchCalls s.log = [(0, [2, 3])] ∧
        (s.log.all fun e => match e with | .panic (.worker _) => false | _ => true) = true ∧
        (accepted s.log).length = 3 := ⟨_, rfl, rfl, rfl, rfl, rfl, rfl, rfl, rfl⟩
  obtain ⟨ρ, hlast, hlabels, -⟩ := Machine.exists_fairRun (panickyRun.map .server) hrun
    (lossy_quiet (S := samplePanicky) hp hq (by simp [hh]) (by simp [hw]))
  have hlast : ∀ k, 28 ≤ k → ρ.state k = s := hlast
  have hlose : ∀ k, ρ.label k ≠ some .lose := by
    intro k hl
    simpa using hlabels k _ hl
  obtain ⟨ρ', hρ⟩ := lossless_fair ρ hlose
  -- the log of every state of the run is a prefix of that of the last one
  have hpre : ∀ k, (ρ'.state k).log <+: s.log := fun k => by
    rw [← hlast (max k 28) (le_max_right _ _), ← hρ]
    exact log_grows (ρ'.reaches (le_max_left _ _))
  refine ⟨ρ, by rw [hlast 28 le_rfl]; exact hacc, (panic_confined (S := samplePanicky) (by decide)
    (by decide)).2.2 ρ (fun k t ht hd => ?_) (fun k h => ?_) hlose 28⟩
  · rw [← hρ] at ht
    obtain ⟨w, hm⟩ := panic_of_dead (ρ'.reachable k) t ht hd
    exact absurd (List.all_eq_true.1 hpanics _ ((hpre k).subset hm)) (by simp)
  · rw [← hρ] at h
    obtain ⟨r, items, hm, hpanic⟩ := h
    have hm' : (r, items) ∈ batchCalls s.log := ((hpre k).filterMap Event.batch?).subset hm
    rw [hcalls, List.mem_singleton] at hm'
    obtain ⟨rfl, rfl⟩ := Prod.mk.inj hm'
    exact absurd hpanic (by decide)

/-- A call sends `13`, and `I::batch` panics on it. -/
def unluckyRun : List (Action ℕ) :=
  [.batcher (.turn .start), .worker 0 .init, .client (.infer 0 13), .client (.prepare 0),
    .client (.send 0), .batcher .recv, .batcher (.turn .timeout), .batcher (.turn .check),
    .batcher (.turn (.preprocessed 0)), .batcher (.turn (.filter [0])), .batcher (.turn .batch)]

/-- The preprocessing of the call `0` panics; in the next round the timer fires while the `recv` future
holds the command of the call `2`. -/
def lossyRun : List (LossyAction ℕ) :=
  ([.batcher (.turn .start), .worker 0 .init, .client (.infer 0 1), .client (.prepare 0),
    .client (.send 0), .batcher .recv, .batcher (.turn .timeout), .batcher (.turn .check),
    .batcher (.turn (.preprocessed 0)), .batcher (.turn (.filter [])), .client (.infer 0 2),
    .client (.prepare 1), .client (.send 1), .batcher .recv, .client (.infer 0 3),
    .client (.prepare 2), .client (.send 2)] : List (Action ℕ)).map .server ++ [.lose]

/-- One panic of `I::batch` and the batcher is gone for all the handles that are alive; and without one
a command accepted after a panic may be neither collected nor left to collect. -/
theorem not_panic_confined :
    (¬ ∀ (S : Setup ℕ ℕ ℕ ℕ) (s : State ℕ ℕ ℕ ℕ), (server S).Reachable s →
      1 ≤ S.config.numSessions →
      ¬ S.target.capacityOverflow S.target.commandSize S.config.maxBatchSize →
      (∀ t ∈ s.workers, t.state ≠ .dead) → true ∈ s.handles → s.batcher.gone = false) ∧
    ¬ ∀ (S : Setup ℕ ℕ ℕ ℕ) (s : State ℕ ℕ ℕ ℕ), (lossyServer S).Reachable s →
      1 ≤ S.config.numSessions →
      ¬ S.target.capacityOverflow S.target.commandSize S.config.maxBatchSize →
      (∀ t ∈ s.workers, t.state ≠ .dead) → true ∈ s.handles → ¬ BatchPanicked S s.log →
      ∀ cmd ∈ accepted s.log, cmd ∈ s.commandQueue ∨ cmd ∈ s.batcher.batchBuffer ∨
        ∃ batch ∈ collected s.log, cmd ∈ batch := by
  constructor
  · intro h
    obtain ⟨s, hrun, hw, hh, hg⟩ : ∃ s : State ℕ ℕ ℕ ℕ,
        (server samplePanicky).run (.start samplePanicky) unluckyRun = some s ∧
          s.workers = [⟨[], .receiving⟩] ∧ s.handles = [true] ∧ s.batcher.gone = true :=
      ⟨_, rfl, rfl, rfl, rfl⟩
    have := h samplePanicky s ⟨unluckyRun, hrun⟩ (by decide) (by decide) (by simp [hw]) (by simp [hh])
    rw [hg] at this
    cases this
  · intro h
    obtain ⟨s, hrun, hw, hh, hb, hacc, hq, hbuf, hcol⟩ : ∃ s : State ℕ ℕ ℕ ℕ,
        (lossyServer samplePanicky).run (.start samplePanicky) lossyRun = some s ∧
          s.workers = [⟨[], .receiving⟩] ∧ s.handles = [true] ∧ batchCalls s.log = [] ∧
          accepted s.log = [⟨.raw 0 1, 0⟩, ⟨.raw 1 2, 1⟩, ⟨.raw 2 3, 2⟩] ∧ s.commandQueue = [] ∧
          s.batcher.batchBuffer = [⟨.raw 1 2, 1⟩] ∧
          collected s.log = [[⟨.raw 0 1, 0⟩], [⟨.raw 1 2, 1⟩]] :=
      ⟨_, rfl, rfl, rfl, rfl, rfl, rfl, rfl, rfl⟩
    have := h samplePanicky s ⟨lossyRun, hrun⟩ (by decide) (by decide) (by simp [hw]) (by simp [hh])
      (not_batchPanicked hb) ⟨.raw 2 3, 2⟩ (by simp [hacc])
    simp [hq, hbuf, hcol] at this

end OrtSuperserve

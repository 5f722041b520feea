import OrtSuperserve.Fits

/-!
# How far the batcher is from its next batch

`Batcher.work` bounds the steps of the batcher up to the next batch, by phase.  Every step that does
not end the collection lowers it (`Batcher.Move.work_lt`), and during a round only a dispatch or a
reply can keep the batcher waiting (`Batcher.exists_turn`).
-/

namespace OrtSuperserve

open Lib

variable {I P O F : Type}

/-- The batcher works on a batch. -/
def Batcher.inRound (b : Batcher I P F) : Bool :=
  match b.phase with
  | .starting | .head | .collecting | .stopped | .panicked => false
  | _ => true

namespace Batcher

variable {S : Setup I P O F} {batch : List (Command I P)} {b b' : Batcher I P F}
  {a : BatcherAction I P F} {evs : List (Event I P O F)}

/-- A bound on the steps the batcher takes until the top of the loop, or until a batch is
collected. -/
def work (R : ℕ) (b : Batcher I P F) : ℕ :=
  match b.phase with
  | .starting => R + 2
  | .head => R + 1
  | .collecting => R - b.batchBuffer.length
  | .collected => 3 * R + 9
  | .preprocessing j => 2 * R + 8 + j.preprocessTasks.length
  | .batching _ _ => 2 * R + 7
  | .dispatching _ _ => 2 * R + 6
  | .awaiting _ _ => 2 * R + 3
  | .postprocessing tasks => R + 2 + tasks.length
  | .stopped => 0
  | .panicked => 0

/-- The message the batcher waits for an answer to. -/
def outbox (b : Batcher I P F) : List (WorkerMessage F) :=
  match b.phase with
  | .awaiting msg _ => [msg]
  | _ => []

/-- A round collects nothing. -/
lemma Move.collected_eq (h : Move S b a b' evs) (hb : b.inRound = true) : collected evs = [] := by
  cases h with
  | overflow hp => simp [inRound, hp] at hb
  | start hp => simp [inRound, hp] at hb
  | first cmd hp => simp [inRound, hp] at hb
  | stop hp => simp [inRound, hp] at hb
  | more cmd hp => simp [inRound, hp] at hb
  | leave a hp => simp [inRound, hp] at hb
  | spawn => exact collected_spawnPreprocess b
  | _ => simp

lemma length_rawInputs_le (batch : List (Command I P)) :
    (splitBatch batch).rawInputs.length ≤ batch.length := by
  rw [splitBatch_eq]
  exact (List.length_filterMap_le _ _).trans_eq List.length_zipIdx

/-- **Every step lowers the bound**, unless it ends the collection; a dispatch leaves room for the
two steps of the worker. -/
theorem Move.work_lt {V : WorkerMessage F → Reply F → Prop} (h : Move S b a b' evs)
    (hf : b.Fits S V batch) (hc : collected evs = []) :
    b'.work S.config.roundSize + 2 * b'.outbox.length < b.work S.config.roundSize := by
  have hR := S.config.one_le_roundSize
  cases h with
  | overflow hp => simp [work, outbox, hp]
  | start hp => simp [work, outbox, hp]
  | first cmd hp => simp [work, outbox, hp]
  | stop hp => simp [work, outbox, hp]
  | more cmd hp hlt =>
    have : S.config.maxBatchSize ≤ S.config.roundSize := le_max_right _ _
    simp only [work, outbox, hp, List.length_append, List.length_cons, List.length_nil]
    omega
  | leave a hp => simp at hc
  | empty hp => simp only [work, outbox, nextRound, hp, List.length_nil]; omega
  | short hp => simp only [work, outbox, nextRound, hp, List.length_nil]; omega
  | spawn hp hne hle =>
    simp only [Fits, hp] at hf
    obtain ⟨rfl, -, hmax⟩ := hf
    have := length_rawInputs_le b.batchBuffer
    simp only [work, outbox, spawnPreprocess, hp, List.length_nil]
    omega
  | joinOk j k idx call input item hp hk =>
    have := List.length_eraseIdx_add_one (List.getElem?_eq_some_iff.1 hk).1
    simp only [work, outbox, hp, List.length_nil]
    omega
  | joinErr j k idx call input e hp hk =>
    have := List.length_eraseIdx_add_one (List.getElem?_eq_some_iff.1 hk).1
    simp only [work, outbox, hp, List.length_nil]
    omega
  | joinPanic j k idx call input hp hk =>
    have := List.length_eraseIdx_add_one (List.getElem?_eq_some_iff.1 hk).1
    simp only [work, outbox, hp, List.length_nil]
    omega
  | filterNone j keys hp => simp only [work, outbox, nextRound, hp, List.length_nil]; omega
  | filterSome j keys hp => simp only [work, outbox, hp, List.length_nil]; omega
  | batchOk items rs t hp => simp only [work, outbox, hp, List.length_nil]; omega
  | batchErr items rs e hp => simp only [work, outbox, nextRound, hp, List.length_nil]; omega
  | batchPanic items rs hp => simp only [work, outbox, hp, List.length_nil]; omega
  | divZero t rs accepted hp => simp only [work, outbox, hp, List.length_nil]; omega
  | sent t rs hp => simp [work, outbox, hp]
  | refused t rs hp => simp only [work, outbox, nextRound, hp, List.length_nil]; omega
  | replyOk msg rs outputs hp hl =>
    simp only [Fits, hp] at hf
    obtain ⟨-, hform, -, rfl⟩ := hf
    have := survivors_length_le S.user batch
    have := hform.max
    simp only [work, outbox, hp, List.length_nil, List.length_zip, List.length_map]
    omega
  | replyFailed msg rs r e hp => simp only [work, outbox, nextRound, hp, List.length_nil]; omega
  | post tasks k rawOutput c hp hk =>
    have := List.length_eraseIdx_add_one (List.getElem?_eq_some_iff.1 hk).1
    simp only [work, outbox, hp, List.length_nil]
    omega
  | finish hp => simp only [work, outbox, nextRound, hp, List.length_nil]; omega

lemma step_sent {t : ArrayD F} {rs : List ℕ} (hp : b.phase = .dispatching t rs) (accepted : Bool) :
    b.step S (.sent accepted) = some (b.dispatch S t rs accepted) := by
  simp only [step, hp]

lemma step_reply {msg : WorkerMessage F} {rs : List ℕ} (hp : b.phase = .awaiting msg rs)
    (r : Reply F) : b.step S (.reply r) = some (b.receive rs r) := by
  simp only [step, hp]

/-- In a round every suspension but the wait for a reply has a step. -/
lemma exists_turn (hb : b.inRound = true) (hd : ∀ t rs, b.phase ≠ .dispatching t rs)
    (hw : ∀ msg rs, b.phase ≠ .awaiting msg rs) :
    ∃ t b' evs, b.step S (.turn t) = some (b', evs) := by
  match hp : b.phase with
  | .starting => simp [inRound, hp] at hb
  | .head => simp [inRound, hp] at hb
  | .collecting => simp [inRound, hp] at hb
  | .collected => exact ⟨.check, _, _, by simp only [step, hp]; rfl⟩
  | .preprocessing j =>
    cases ht : j.preprocessTasks with
    | nil =>
      have hguard : j.preprocessTasks.isEmpty ∧ j.results.keys.Perm j.results.keys :=
        ⟨by simp [ht], .refl _⟩
      exact ⟨.filter j.results.keys, _, _, by simp only [step, hp, if_pos hguard]; rfl⟩
    | cons x rest => exact ⟨.preprocessed 0, _, _, by simp only [step, hp, ht]; rfl⟩
  | .batching items rs => exact ⟨.batch, _, _, by simp only [step, hp]; rfl⟩
  | .dispatching t rs => exact absurd hp (hd t rs)
  | .awaiting msg rs => exact absurd hp (hw msg rs)
  | .postprocessing [] => exact ⟨.finish, _, _, by simp only [step, hp]; rfl⟩
  | .postprocessing ((rawOutput, c) :: rest) =>
    exact ⟨.postprocessed 0, _, _, by simp only [step, hp]; rfl⟩
  | .stopped => simp [inRound, hp] at hb
  | .panicked => simp [inRound, hp] at hb

end Batcher

end OrtSuperserve

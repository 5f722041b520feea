import OrtSuperserve.Attribution

/-!
# The order of the tasks

Two finished rounds from one state may differ in the order in which `preprocess_tasks` are joined, in
the order of `results.keys()` and in the order in which `postprocess_tasks` end.  Both have done what
the script says, so nothing of it shows: they batch the same items in the same order, dispatch the same
tensor and give each caller the same response (`scheduling_invisible`).
-/

namespace OrtSuperserve

open Lib

variable {I P O F : Type} {S : Setup I P O F} {wk : ArrayD F → Option (Reply F)}
  {b : Batcher I P F} {batch : List (Command I P)}

lemma filterMap_concluding {γ : Type} {g : Event I P O F → Option γ} (hg : Ignores g)
    (ending : Ending F) : (concluding S batch ending).filterMap g = [] := by
  cases ending with
  | failed e => exact filterMap_sendErr hg.answer e _
  | rows outputs => exact filterMap_postprocessedAll hg _
  | unwound =>
    rw [concluding, List.filterMap_cons, hg.panic]
    exact filterMap_dropAll hg.drop _

/-- What is seen once at most of a round with survivors is seen once at most of any. -/
lemma length_filterMap_script_le {γ : Type} {g : Event I P O F → Option γ} (hg : Ignores g)
    (hpre : ∀ c, g (.preprocess c) = none)
    (hlen : ((afterFilter S wk b batch).filterMap g).length ≤ 1) :
    ((script S wk b batch).filterMap g).length ≤ 1 := by
  by_cases hmin : S.config.minBatchSize ≤ batch.length
  · have hraw : (rawTasks batch).filterMap (fun x => g (.preprocess x.2.1)) = [] := by simp [hpre]
    rw [filterMap_script hg.panic hmin, hraw, filterMap_sendErr hg.answer, List.nil_append,
      List.nil_append]
    by_cases hne : survivors S.user batch = []
    · simp [hne]
    · rw [if_neg hne]
      exact hlen
  · rw [script, if_pos (not_le.1 hmin), filterMap_sendErr hg.answer]
    exact Nat.zero_le _

/-- A round calls `I::batch` once at most. -/
lemma length_batchCalls_script_le : (batchCalls (script S wk b batch)).length ≤ 1 := by
  refine length_filterMap_script_le .batch (fun _ => rfl) ?_
  obtain ⟨calls, -, heq⟩ := exists_afterFilter S wk b batch
  have hcalls : (calls.map fun x => (.dispatch x.1 x.2 : Event I P O F)).filterMap
      Event.batch? = [] := by simp
  rw [heq, List.filterMap_append, filterMap_concluding .batch, List.append_nil, List.filterMap_cons,
    hcalls]
  exact le_rfl

lemma length_dispatches_script_le : (dispatches (script S wk b batch)).length ≤ 1 := by
  exact length_filterMap_script_le .dispatch (fun _ => rfl) (dispatches_afterBatch _ _)

/-- **Scheduling does not show.**  Any two finished rounds from one collected batch, with one and the
same outcome of each call of user code and one worker function, call `I::batch` with the same items in
the same order, dispatch the same tensor to the same worker, and use each responder in the same way. -/
theorem scheduling_invisible {b₁ b₂ : Batcher I P F} {log₁ log₂ : List (Event I P O F)}
    (hb : b.Collected S.config batch) (h₁ : Round S wk b log₁ b₁) (h₂ : Round S wk b log₂ b₂) :
    batchCalls log₁ = batchCalls log₂ ∧ dispatches log₁ = dispatches log₂ ∧
      (fates log₁).Perm (fates log₂) ∧ ∀ c y, (c, y) ∈ fates log₁ ↔ (c, y) ∈ fates log₂ := by
  have hp₁ := round_log hb h₁
  have hp₂ := round_log hb h₂
  have hfates : (fates log₁).Perm (fates log₂) := (fates_perm hp₁).trans (fates_perm hp₂).symm
  refine ⟨?_, ?_, hfates, ?_⟩
  · have he₁ := eq_of_perm_of_length_le_one (batchCalls_perm hp₁) length_batchCalls_script_le
    have he₂ := eq_of_perm_of_length_le_one (batchCalls_perm hp₂) length_batchCalls_script_le
    rw [he₁, he₂]
  · have he₁ := eq_of_perm_of_length_le_one (dispatches_perm hp₁) length_dispatches_script_le
    have he₂ := eq_of_perm_of_length_le_one (dispatches_perm hp₂) length_dispatches_script_le
    rw [he₁, he₂]
  · intro c y
    exact hfates.mem_iff

/-! ### Two orders of one round -/

/-- Three raw commands, the second of which cannot be preprocessed. -/
def collectedThree : Batcher ℕ ℕ ℕ :=
  ⟨[.newRaw 0 7 0, .newRaw 1 0 1, .newRaw 2 9 2], 0, 0, .collected⟩

/-- The sample with batches of three. -/
def sampleThree : Setup ℕ ℕ ℕ ℕ := { sample with config := { maxBatchSize := 3 } }

/-- First in, first out. -/
def inOrder : List RoundAction :=
  [.turn .check, .turn (.preprocessed 0), .turn (.preprocessed 0), .turn (.preprocessed 0),
    .turn (.filter [0, 2]), .turn .batch, .dispatch, .reply, .turn (.postprocessed 0),
    .turn (.postprocessed 0), .turn .finish]

/-- Last in, first out. -/
def inReverse : List RoundAction :=
  [.turn .check, .turn (.preprocessed 2), .turn (.preprocessed 1), .turn (.preprocessed 0),
    .turn (.filter [2, 0]), .turn .batch, .dispatch, .reply, .turn (.postprocessed 1),
    .turn (.postprocessed 0), .turn .finish]

/-- The logs differ, as the callers are answered in another order. -/
theorem scheduling_invisible_sample :
    ∃ (log₁ log₂ : List (Event ℕ ℕ ℕ ℕ)) (b₁ b₂ : Batcher ℕ ℕ ℕ),
      Round sampleThree rowsWorker collectedThree log₁ b₁ ∧
      Round sampleThree rowsWorker collectedThree log₂ b₂ ∧
      (fates log₁).map Prod.fst = [1, 0, 2] ∧ (fates log₂).map Prod.fst = [1, 2, 0] ∧
      batchCalls log₁ = batchCalls log₂ ∧ dispatches log₁ = dispatches log₂ ∧
      ∀ c y, (c, y) ∈ fates log₁ ↔ (c, y) ∈ fates log₂ := by
  obtain ⟨x₁, hrun₁, hend₁, hf₁⟩ : ∃ x,
      (roundMachine sampleThree rowsWorker collectedThree).run (collectedThree, []) inOrder = some x ∧
        x.1.inRound = false ∧ (fates x.2).map Prod.fst = [1, 0, 2] := ⟨_, rfl, rfl, rfl⟩
  obtain ⟨x₂, hrun₂, hend₂, hf₂⟩ : ∃ x,
      (roundMachine sampleThree rowsWorker collectedThree).run (collectedThree, []) inReverse =
        some x ∧ x.1.inRound = false ∧ (fates x.2).map Prod.fst = [1, 2, 0] := ⟨_, rfl, rfl, rfl⟩
  have hb : collectedThree.Collected sampleThree.config collectedThree.batchBuffer :=
    ⟨rfl, rfl, by decide, by decide⟩
  have h₁ : Round sampleThree rowsWorker collectedThree x₁.2 x₁.1 := ⟨⟨inOrder, hrun₁⟩, hend₁⟩
  have h₂ : Round sampleThree rowsWorker collectedThree x₂.2 x₂.1 := ⟨⟨inReverse, hrun₂⟩, hend₂⟩
  obtain ⟨hbatch, hdispatch, -, hfates⟩ := scheduling_invisible hb h₁ h₂
  exact ⟨x₁.2, x₂.2, x₁.1, x₂.1, h₁, h₂, hf₁, hf₂, hbatch, hdispatch, hfates⟩

end OrtSuperserve

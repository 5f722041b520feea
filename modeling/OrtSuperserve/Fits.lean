import OrtSuperserve.Ledger

/-!
# The batch a round works on

`Batcher.Fits` relates the state of the batcher, phase by phase, to the batch of its round: what is
in the buffer, which items and responders are on their way, and where the tensor and the rows come
from.  Each step keeps it, for the batch collected last (`Batcher.Fits.move`).

The relation `V` says which replies the round can receive for a message; it is instantiated with the
workers of the server and with a fixed worker function.
-/

namespace OrtSuperserve

open Lib

variable {I P O F : Type}

/-- A batch that passed the minimum check. -/
structure Formed (config : ServerConfig) (batch : List (Command I P)) : Prop where
  pos : 1 ≤ batch.length
  min : config.minBatchSize ≤ batch.length
  max : batch.length ≤ config.roundSize

/-- The call of `I::batch` for a batch, in the round `r`, returns `t`. -/
structure Batched (user : UserCode I P O F) (r : ℕ) (batch : List (Command I P)) (t : ArrayD F) :
    Prop where
  nonempty : survivors user batch ≠ []
  batch : user.batch r ((survivors user batch).map Prod.snd) = .ok t

/-- The batch of the current round after a step with the events `evs`. -/
def currentBatch (batch : List (Command I P)) (evs : List (Event I P O F)) : List (Command I P) :=
  (collected evs).getLastD batch

namespace Batcher

def Fits (S : Setup I P O F) (V : WorkerMessage F → Reply F → Prop) (batch : List (Command I P))
    (b : Batcher I P F) : Prop :=
  match b.phase with
  | .collecting => 1 ≤ b.batchBuffer.length ∧ b.batchBuffer.length ≤ S.config.roundSize
  | .collected => b.batchBuffer = batch ∧ 1 ≤ batch.length ∧ batch.length ≤ S.config.roundSize
  | .preprocessing j => b.batchBuffer = [] ∧ Formed S.config batch ∧ Joining S.user batch j
  | .batching items responders =>
    b.batchBuffer = [] ∧ Formed S.config batch ∧ survivors S.user batch ≠ [] ∧
      items = (survivors S.user batch).map Prod.snd ∧
      responders = (survivors S.user batch).map Prod.fst
  | .dispatching t responders =>
    b.batchBuffer = [] ∧ Formed S.config batch ∧ Batched S.user b.round batch t ∧
      responders = (survivors S.user batch).map Prod.fst
  | .awaiting msg responders =>
    b.batchBuffer = [] ∧ Formed S.config batch ∧
      (∃ t, Batched S.user b.round batch t ∧ msg = b.workerMsg S t) ∧
      responders = (survivors S.user batch).map Prod.fst
  | .postprocessing tasks =>
    b.batchBuffer = [] ∧ Formed S.config batch ∧
      ∃ t outputs, Batched S.user b.round batch t ∧ V (b.workerMsg S t) (.ok outputs) ∧
        outputs.length = (survivors S.user batch).length ∧
        ∀ x ∈ tasks, x ∈ outputs.zip ((survivors S.user batch).map Prod.fst)
  | _ => b.batchBuffer = []

variable {S : Setup I P O F} {V : WorkerMessage F → Reply F → Prop} {batch : List (Command I P)}
  {b b' : Batcher I P F} {a : BatcherAction I P F} {evs : List (Event I P O F)}

lemma collected_spawnPreprocess (b : Batcher I P F) :
    collected (b.spawnPreprocess (O := O)).2 = [] := filterMap_spawnPreprocess (fun _ => rfl) b

/-- One turn of the join loop keeps the accounting. -/
lemma Fits.joined {j j' : Preprocessing I P} {k idx call : ℕ} {input : I}
    (hf : b.Fits S V batch) (hp : b.phase = .preprocessing j)
    (hk : j.preprocessTasks[k]? = some (idx, call, input))
    (hlen : j'.batchLen = j.batchLen) (hresp : j'.responders = j.responders)
    (htasks : j'.preprocessTasks = j.preprocessTasks.eraseIdx k)
    (hres : ∀ i, j'.results.lookup i =
      if i = idx then (S.user.preprocess call input).toOption else j.results.lookup i) :
    ({ b with phase := .preprocessing j' } : Batcher I P F).Fits S V batch := by
  simp only [Fits, hp] at hf
  obtain ⟨hb, hform, hj⟩ := hf
  exact ⟨hb, hform, hj.join hk hlen hresp htasks hres⟩

/-- An index whose task is running is not in `results`. -/
lemma Fits.lookup_task {j : Preprocessing I P} {k idx call : ℕ} {input : I}
    (hf : b.Fits S V batch) (hp : b.phase = .preprocessing j)
    (hk : j.preprocessTasks[k]? = some (idx, call, input)) : j.results.lookup idx = none := by
  simp only [Fits, hp] at hf
  rw [hf.2.2.lookup, if_pos]
  exact List.mem_map.2 ⟨_, List.mem_of_getElem? hk, rfl⟩

/-- A task that fails or panics leaves `results` as it is. -/
lemma Fits.joined_none {j j' : Preprocessing I P} {k idx call : ℕ} {input : I}
    (hf : b.Fits S V batch) (hp : b.phase = .preprocessing j)
    (hk : j.preprocessTasks[k]? = some (idx, call, input))
    (hnone : (S.user.preprocess call input).toOption = none)
    (hlen : j'.batchLen = j.batchLen) (hresp : j'.responders = j.responders)
    (htasks : j'.preprocessTasks = j.preprocessTasks.eraseIdx k) (hres : j'.results = j.results) :
    ({ b with phase := .preprocessing j' } : Batcher I P F).Fits S V batch := by
  have hlook := hf.lookup_task hp hk
  apply hf.joined hp hk hlen hresp htasks
  intro i
  rw [hres, hnone]
  by_cases hi : i = idx
  · rw [if_pos hi, hi]
    exact hlook
  · rw [if_neg hi]

/-- **Every step keeps the fit.** -/
theorem Fits.move (hf : b.Fits S V batch) (h : Move S b a b' evs)
    (hr : ∀ msg responders r, b.phase = .awaiting msg responders → a = .reply r → V msg r) :
    b'.Fits S V (currentBatch batch evs) := by
  cases h with
  | overflow hp => simpa [Fits, hp] using hf
  | start hp => simpa [Fits, hp] using hf
  | first cmd hp =>
    simp only [Fits, hp] at hf
    simpa [Fits, hf] using S.config.one_le_roundSize
  | stop hp => simpa [Fits, hp] using hf
  | more cmd hp hlt =>
    simp only [Fits, hp] at hf ⊢
    rw [List.length_append, List.length_singleton]
    exact ⟨by omega, le_trans hlt (le_max_right _ _)⟩
  | leave a hp => simpa [Fits, hp, currentBatch] using hf
  | empty hp h => simpa [Fits, nextRound] using h
  | short hp => simp [Fits, nextRound]
  | spawn hp hne hle =>
    simp only [Fits, hp] at hf
    obtain ⟨rfl, hpos, hmax⟩ := hf
    obtain ⟨j, hj, hjoin⟩ := Joining.spawn S.user b
    rw [currentBatch, collected_spawnPreprocess]
    simp only [Fits, hj]
    exact ⟨rfl, ⟨hpos, hle, hmax⟩, hjoin⟩
  | joinOk j k idx call input item hp hk h =>
    refine hf.joined hp hk rfl rfl rfl ?_
    intro i
    rw [h]
    by_cases hi : i = idx
    · rw [if_pos hi, hi]
      exact AList.lookup_insert _
    · rw [if_neg hi]
      exact AList.lookup_insert_ne hi
  | joinErr j k idx call input e hp hk h =>
    exact hf.joined_none hp hk (by rw [h]; rfl) rfl rfl rfl rfl
  | joinPanic j k idx call input hp hk h =>
    exact hf.joined_none hp hk (by rw [h]; rfl) rfl rfl rfl rfl
  | filterNone j keys hp =>
    simp only [Fits, hp] at hf
    simpa [Fits, nextRound] using hf.1
  | filterSome j keys hp ht hk h =>
    simp only [Fits, hp] at hf
    obtain ⟨hb, hform, hj⟩ := hf
    have hitems := hj.items ht
    have hne : survivors S.user batch ≠ [] := fun hnil => h (by rw [hitems, hnil, List.map_nil])
    rw [currentBatch, show collected (sendErr _ _) = [] from Ignores.collected.sendErr _ _]
    exact ⟨hb, hform, hne, hitems, hj.kept ht hk⟩
  | batchOk items rs t hp h =>
    simp only [Fits, hp] at hf
    obtain ⟨hb, hform, hne, rfl, hrs⟩ := hf
    exact ⟨hb, hform, ⟨hne, h⟩, hrs⟩
  | batchErr items rs e hp =>
    simp only [Fits, hp] at hf
    exact hf.1
  | batchPanic items rs hp =>
    simp only [Fits, hp] at hf
    exact hf.1
  | divZero t rs accepted hp =>
    simp only [Fits, hp] at hf
    exact hf.1
  | sent t rs hp =>
    simp only [Fits, hp] at hf
    obtain ⟨hb, hform, ht, hrs⟩ := hf
    exact ⟨hb, hform, ⟨t, ht, rfl⟩, hrs⟩
  | refused t rs hp =>
    simp only [Fits, hp] at hf
    exact hf.1
  | replyOk msg rs outputs hp hlen =>
    have hv := hr msg rs _ hp rfl
    simp only [Fits, hp] at hf
    obtain ⟨hb, hform, ⟨t, ht, rfl⟩, rfl⟩ := hf
    refine ⟨hb, hform, t, outputs, ht, hv, ?_, fun x hx => hx⟩
    rw [hlen, List.length_map]
    rfl
  | replyFailed msg rs r e hp =>
    simp only [Fits, hp] at hf
    exact hf.1
  | post tasks k rawOutput c hp hk =>
    simp only [Fits, hp] at hf
    obtain ⟨hb, hform, t, outputs, ht, hv, hlen, htasks⟩ := hf
    rw [currentBatch, show collected (postprocessed _ _ _) = [] from
      Ignores.collected.postprocessed _ _ _]
    exact ⟨hb, hform, t, outputs, ht, hv, hlen, fun x hx => htasks x (List.mem_of_mem_eraseIdx hx)⟩
  | finish hp =>
    simp only [Fits, hp] at hf
    exact hf.1

end Batcher

end OrtSuperserve

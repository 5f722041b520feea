import OrtSuperserve.Log

/-!
# No step of the batcher loses or copies a responder

`Batcher.held` lists the responders the batcher holds: those of the buffered commands, of the batch
in hand, and of the postprocessing tasks.  Each step of the batcher, whichever branch it takes, turns
what it held and received into what it holds afterwards and what it used up (`Move.ledger`).  An
error among that comes from one branch of the loop each (`Move.sends`).
-/

namespace OrtSuperserve

open Lib

variable {I P O F : Type}

/-- The responders of the batch a phase works on. -/
def Phase.responders : Phase I P F → List ℕ
  | .preprocessing j => j.responders
  | .batching _ responders => responders
  | .dispatching _ responders => responders
  | .awaiting _ responders => responders
  | .postprocessing tasks => tasks.map Prod.snd
  | _ => []

/-- What a caller gets from its own postprocessing. -/
def postFate (S : Setup I P O F) (c : ℕ) (row : ArrayD F) : Fate O :=
  match S.user.postprocess c row with
  | .ok o => .answered (.ok o)
  | .err e => .answered (.error (.userError e))
  | .panic => .dropped

namespace Batcher

def held (b : Batcher I P F) : List ℕ := b.batchBuffer.map Command.responder ++ b.phase.responders

variable {S : Setup I P O F} {b b' : Batcher I P F} {a : BatcherAction I P F}
  {evs : List (Event I P O F)}

lemma keepResponders_perm (keys responders : List ℕ) :
    ((keepResponders keys responders).2 ++ (keepResponders keys responders).1).Perm responders := by
  unfold keepResponders
  have h : ((responders.zipIdx.filter fun x => keys.contains x.2) ++
      responders.zipIdx.filter fun x => !keys.contains x.2).Perm responders.zipIdx :=
    List.filter_append_perm _ _
  have := (List.perm_append_comm.trans h).map Prod.fst
  rwa [List.map_append, List.zipIdx_map_fst] at this

lemma responders_spawnPreprocess (b : Batcher I P F) :
    (b.spawnPreprocess (O := O)).1.phase.responders = b.batchBuffer.map Command.responder := by
  simp only [spawnPreprocess, Phase.responders, splitBatch_eq]

lemma fates_postprocessed (S : Setup I P O F) (rawOutput : ArrayD F) (c : ℕ) :
    fates (postprocessed S rawOutput c) = [(c, postFate S c rawOutput)] := by
  unfold postprocessed postFate
  cases S.user.postprocess c rawOutput <;> rfl

/-- Spawning the preprocessing tasks uses up no responder. -/
lemma fates_spawnPreprocess (b : Batcher I P F) : fates (b.spawnPreprocess (O := O)).2 = [] :=
  filterMap_spawnPreprocess (fun _ => rfl) b

lemma received_spawnPreprocess (b : Batcher I P F) :
    received (b.spawnPreprocess (O := O)).2 = [] := filterMap_spawnPreprocess (fun _ => rfl) b

/-- The errors a step can send, with the branch that sends them. -/
inductive Sends (S : Setup I P O F) (b : Batcher I P F) : BatcherAction I P F → Error → Prop where
  | short (hp : b.phase = .collected) (hlt : b.batchBuffer.length < S.config.minBatchSize) :
      Sends S b (.turn .check) .insufficientBatchSize
  | filter (keys : List ℕ) : Sends S b (.turn (.filter keys)) .preprocessingFailed
  | batch (e : String) : Sends S b (.turn .batch) (.batchingFailed e)
  | refused : Sends S b (.sent false) .workerUnavailable
  | reply (r : Reply F) (n : ℕ) (e : Error) (h : ReplyError r n e) : Sends S b (.reply r) e
  | post (k : ℕ) (e : String) : Sends S b (.turn (.postprocessed k)) (.userError e)

lemma Move.sends (h : Move S b a b' evs) {c : ℕ} {e : Error}
    (hm : (c, .answered (.error e)) ∈ fates evs) : Sends S b a e := by
  have hsend : ∀ {e' : Error} {cs : List ℕ},
      (c, .answered (.error e)) ∈ fates (sendErr e' cs : List (Event I P O F)) → e = e' := by
    intro e' cs hm
    rw [fates_sendErr, List.mem_map] at hm
    obtain ⟨c', -, heq⟩ := hm
    simpa using (Prod.mk.inj heq).2.symm
  cases h with
  | short hp hne hlt =>
    obtain rfl := hsend hm
    exact .short hp hlt
  | spawn => rw [fates_spawnPreprocess] at hm; cases hm
  | filterNone j keys =>
    rw [fates_append, List.mem_append, fates_dropAll] at hm
    rcases hm with hm | hm
    · obtain rfl := hsend hm
      exact .filter keys
    · simp at hm
  | filterSome j keys =>
    obtain rfl := hsend hm
    exact .filter keys
  | batchErr items rs e' =>
    obtain rfl : e = .batchingFailed e' := hsend (by simpa using hm)
    exact .batch e'
  | refused t rs =>
    obtain rfl : e = .workerUnavailable := hsend (by simpa using hm)
    exact .refused
  | replyFailed msg rs r e' hp h =>
    obtain rfl := hsend hm
    exact .reply r _ _ h
  | post tasks k rawOutput c' =>
    rw [fates_postprocessed, List.mem_singleton] at hm
    have hfate := (Prod.mk.inj hm).2
    unfold postFate at hfate
    split at hfate
    · simp at hfate
    · obtain rfl : e = _ := by simpa using hfate
      exact .post k _
    · cases hfate
  | _ => simp at hm

/-- **The ledger of one step.** -/
theorem Move.ledger (h : Move S b a b' evs) :
    ((fates evs).map Prod.fst ++ b'.held).Perm
      (b.held ++ (received evs).map Command.responder) := by
  cases h with
  | overflow hp => simp [held, hp, Phase.responders]
  | start hp => simp [held, hp, Phase.responders]
  | first cmd hp => simp [held, hp, Phase.responders]
  | stop hp => simp [held, hp, Phase.responders]
  | more cmd hp => simp [held, hp, Phase.responders]
  | leave a hp => simp [held, hp, Phase.responders]
  | empty hp => simp [held, nextRound, hp, Phase.responders]
  | short hp => simp [held, nextRound, hp, Phase.responders, Function.comp_def]
  | spawn hp =>
    rw [fates_spawnPreprocess, received_spawnPreprocess, held, responders_spawnPreprocess]
    simp [held, spawnPreprocess, hp, Phase.responders]
  | joinOk j k idx call input item hp => simp [held, hp, Phase.responders]
  | joinErr j k idx call input e hp => simp [held, hp, Phase.responders]
  | joinPanic j k idx call input hp => simp [held, hp, Phase.responders]
  | filterNone j keys hp =>
    have hk := keepResponders_perm keys j.responders
    simp only [fates_sendErr, fates_dropAll, Ignores.received, Ignores.sendErr, Ignores.dropAll,
      List.filterMap_append, List.map_append, List.map_map, held, nextRound, hp, Phase.responders]
    simpa [Function.comp_def] using (hk.append_right _).trans List.perm_append_comm
  | filterSome j keys hp =>
    have hk := keepResponders_perm keys j.responders
    simp only [fates_sendErr, Ignores.received, Ignores.sendErr, List.map_map, held, hp,
      Phase.responders]
    simp only [Function.comp_def, List.map_id', List.map_nil, List.append_nil]
    -- the failed leave from in front of the buffer, the kept stay behind it
    exact (List.perm_append_comm_assoc _ _ _).trans (hk.append_left _)
  | batchOk items rs t hp => simp [held, hp, Phase.responders]
  | batchErr items rs e hp =>
    simpa [held, nextRound, hp, Phase.responders, Function.comp_def] using List.perm_append_comm
  | batchPanic items rs hp =>
    simpa [held, hp, Phase.responders, Function.comp_def] using List.perm_append_comm
  | divZero t rs accepted hp =>
    simpa [held, hp, Phase.responders, Function.comp_def] using List.perm_append_comm
  | sent t rs hp => simp [held, hp, Phase.responders]
  | refused t rs hp =>
    simpa [held, nextRound, hp, Phase.responders, Function.comp_def] using List.perm_append_comm
  | replyOk msg rs outputs hp hl =>
    simp [held, hp, Phase.responders, List.map_snd_zip hl.ge]
  | replyFailed msg rs r e hp =>
    simpa [held, nextRound, hp, Phase.responders, Function.comp_def] using List.perm_append_comm
  | post tasks k rawOutput c hp hk =>
    obtain ⟨hlt, he⟩ := List.getElem?_eq_some_iff.1 hk
    have hperm := (List.getElem_cons_eraseIdx_perm hlt).map Prod.snd
    rw [he, List.map_cons] at hperm
    rw [fates_postprocessed]
    simp only [Ignores.received, Ignores.postprocessed, held, hp, Phase.responders, List.map_cons,
      List.map_nil, List.append_nil]
    rw [List.singleton_append]
    exact List.perm_middle.symm.trans (hperm.append_left _)
  | finish hp => simp [held, nextRound, hp, Phase.responders]

end Batcher

end OrtSuperserve

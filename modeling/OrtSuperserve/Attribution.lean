import OrtSuperserve.Answers

/-!
# Whose error it is

A caller is told "Preprocessing failed" for its own input only.  The others of its batch stand or fall
together up to the postprocessing: `ending` is what their batch comes to, one error for all of them or
one row for each (`round_attribution`).  If the batcher unwinds, the error is the closed channel they
all find.
-/

namespace OrtSuperserve

open Lib

variable {I P O F : Type}

/-- What the batch of the survivors comes to: an error of the batching, the dispatch, the inference or
the count check, a row for each of them, or a batcher that unwinds. -/
inductive Ending (F : Type) where
  | failed (e : Error)
  | rows (outputs : List (ArrayD F))
  | unwound

section Definitions

variable (S : Setup I P O F) (wk : ArrayD F → Option (Reply F)) (b : Batcher I P F)
  (batch : List (Command I P))

/-- The callers that are left after the preprocessing, in arrival order. -/
def callers : List ℕ := (survivors S.user batch).map Prod.fst

def ending : Ending F :=
  match S.user.batch b.round ((survivors S.user batch).map Prod.snd) with
  | .err e => .failed (.batchingFailed e)
  | .panic => .unwound
  | .ok t =>
    if S.config.numSessions = 0 then .unwound
    else
      match wk t with
      | none => .failed .workerUnavailable
      | some (.err e) => .failed (.inferenceFailed e)
      | some .closed => .failed .workerChannelClosed
      | some (.ok outputs) =>
        if outputs.length ≠ (callers S batch).length then .failed .outputCountMismatch
        else .rows outputs

/-- The error of a batch that gives no rows. -/
def Ending.fate : Ending F → Option (Fate O)
  | .failed e => some (.answered (.error e))
  | .rows _ => none
  | .unwound => some .dropped

/-- The batch failed: all callers left get the same error, and nothing is postprocessed. -/
structure FailedTogether (log : List (Event I P O F)) (y : Fate O) : Prop where
  cause : (ending S wk b batch).fate = some y
  answer : ∀ c ∈ callers S batch, ∀ z, (c, z) ∈ fates log ↔ z = y
  calls : postprocessCalls log = []

/-- The batch gave a row for each of the callers left: each has its own row postprocessed, once, and
gets what comes of it. -/
structure ServedEach (log : List (Event I P O F)) (outputs : List (ArrayD F)) : Prop where
  cause : ending S wk b batch = .rows outputs
  count : outputs.length = (callers S batch).length
  calls : (postprocessCalls log).Perm ((callers S batch).zip outputs)
  answer : ∀ c row, (c, row) ∈ (callers S batch).zip outputs →
    ∀ y, (c, y) ∈ fates log ↔ y = postFate S c row

/-- The preprocessing of the command failed or panicked. -/
def PreprocessingFailed (cmd : Command I P) : Prop :=
  ∃ call input, cmd.input = .raw call input ∧
    ((∃ e, S.user.preprocess call input = .err e) ∨ S.user.preprocess call input = .panic)

end Definitions

variable {S : Setup I P O F} {wk : ArrayD F → Option (Reply F)} {b b' : Batcher I P F}
  {batch : List (Command I P)} {log : List (Event I P O F)}

lemma item_eq_none_iff {cmd : Command I P} :
    cmd.item S.user = none ↔ PreprocessingFailed S cmd := by
  obtain ⟨⟨call, input⟩ | p, c⟩ := cmd
  · cases h : S.user.preprocess call input <;>
      simp [PreprocessingFailed, Command.item, h, Outcome.toOption]
  · simp [PreprocessingFailed, Command.item]

/-! ### The survivors, by ending -/

lemma postprocessCalls_postprocessedAll (l : List (ArrayD F × ℕ)) :
    postprocessCalls (l.flatMap fun x => Batcher.postprocessed S x.1 x.2) = l.map Prod.swap := by
  induction l with
  | nil => rfl
  | cons x l ih =>
    have hx : postprocessCalls (Batcher.postprocessed S x.1 x.2) = [x.swap] := by
      unfold Batcher.postprocessed
      cases S.user.postprocess x.2 x.1 <;> rfl
    rw [List.flatMap_cons, postprocessCalls_append, ih, hx]
    rfl

/-- What a round ends with, behind its dispatch. -/
def concluding (S : Setup I P O F) (batch : List (Command I P)) : Ending F → List (Event I P O F)
  | .failed e => sendErr e (callers S batch)
  | .rows outputs =>
    (outputs.zip (callers S batch)).flatMap fun x => Batcher.postprocessed S x.1 x.2
  | .unwound => .panic .batcher :: dropAll (callers S batch)

/-- The survivors are batched, their tensor is dispatched at most once, and the rest is by the ending of
their batch. -/
lemma exists_afterFilter (S : Setup I P O F) (wk : ArrayD F → Option (Reply F)) (b : Batcher I P F)
    (batch : List (Command I P)) :
    ∃ calls : List (ℕ × ArrayD F), calls.length ≤ 1 ∧
      afterFilter S wk b batch =
        .batch b.round ((survivors S.user batch).map Prod.snd) ::
          (calls.map fun x => .dispatch x.1 x.2) ++
            concluding S batch (ending S wk b batch) := by
  unfold afterFilter afterBatch ending
  cases S.user.batch b.round ((survivors S.user batch).map Prod.snd) with
  | err e => exact ⟨[], Nat.zero_le _, rfl⟩
  | panic => exact ⟨[], Nat.zero_le _, rfl⟩
  | ok t =>
    by_cases hn : S.config.numSessions = 0
    · simp only [afterDispatch, if_pos hn]
      exact ⟨[], Nat.zero_le _, rfl⟩
    · simp only [afterDispatch, if_neg hn]
      refine ⟨[(b.dispatchIndex % S.config.numSessions, t)], le_rfl, ?_⟩
      cases wk t with
      | none => rfl
      | some r =>
        cases r with
        | err e => rfl
        | closed => rfl
        | ok outputs =>
          have hcallers : (survivors S.user batch).map Prod.fst = callers S batch := rfl
          simp only [afterReply, hcallers]
          split <;> rfl

/-- A projection that sees neither the batching nor the dispatch sees the end only. -/
lemma filterMap_afterFilter {γ : Type} {g : Event I P O F → Option γ}
    (hbatch : ∀ r items, g (.batch r items) = none) (hdispatch : ∀ w t, g (.dispatch w t) = none) :
    (afterFilter S wk b batch).filterMap g =
      (concluding S batch (ending S wk b batch)).filterMap g := by
  obtain ⟨calls, -, heq⟩ := exists_afterFilter S wk b batch
  have hcalls : (calls.map fun x => (.dispatch x.1 x.2 : Event I P O F)).filterMap g = [] := by
    simp [hdispatch]
  rw [heq, List.filterMap_append, List.filterMap_cons, hbatch, hcalls, List.nil_append]

/-- **What becomes of the survivors**, by the ending of their batch. -/
theorem fates_afterFilter : fates (afterFilter S wk b batch) =
    match ending S wk b batch with
    | .failed e => (callers S batch).map fun c => (c, .answered (.error e))
    | .rows outputs => (outputs.zip (callers S batch)).map fun x => (x.2, postFate S x.2 x.1)
    | .unwound => (callers S batch).map fun c => (c, .dropped) := by
  refine (filterMap_afterFilter (fun _ _ => rfl) fun _ _ => rfl).trans ?_
  cases ending S wk b batch with
  | failed e => exact fates_sendErr _ _
  | rows outputs => exact fates_postprocessedAll _
  | unwound => exact fates_dropAll _

/-- **What is postprocessed**, by the ending of the batch. -/
theorem postprocessCalls_afterFilter : postprocessCalls (afterFilter S wk b batch) =
    match ending S wk b batch with
    | .failed _ => []
    | .rows outputs => (callers S batch).zip outputs
    | .unwound => [] := by
  refine (filterMap_afterFilter (fun _ _ => rfl) fun _ _ => rfl).trans ?_
  cases ending S wk b batch with
  | failed e => exact filterMap_sendErr (fun _ _ => rfl) e _
  | rows outputs => exact (postprocessCalls_postprocessedAll _).trans (List.zip_swap _ _)
  | unwound => exact filterMap_dropAll (fun _ => rfl) _

lemma length_of_rows {outputs : List (ArrayD F)} (h : ending S wk b batch = .rows outputs) :
    outputs.length = (callers S batch).length := by
  unfold ending at h
  split at h
  · cases h
  · cases h
  · split at h
    · cases h
    · split at h
      · cases h
      · cases h
      · cases h
      · split at h
        · cases h
        · obtain rfl := Ending.rows.inj h
          exact not_not.1 ‹_›

lemma ending_ne_preprocessingFailed : ending S wk b batch ≠ .failed .preprocessingFailed := by
  intro h
  unfold ending at h
  split at h
  · simp at h
  · cases h
  · split at h
    · cases h
    · split at h
      · simp at h
      · simp at h
      · simp at h
      · split at h <;> simp at h

/-- No survivor is told that its preprocessing failed. -/
lemma not_preprocessingFailed (c : ℕ) :
    (c, .answered (.error .preprocessingFailed)) ∉ fates (afterFilter S wk b batch) := by
  rw [fates_afterFilter]
  intro hm
  cases hend : ending S wk b batch with
  | unwound => simp [hend] at hm
  | rows outputs =>
    rw [hend] at hm
    obtain ⟨x, -, hx⟩ := List.mem_map.1 hm
    obtain ⟨-, hx⟩ := Prod.mk.inj hx
    unfold postFate at hx
    split at hx <;> simp at hx
  | failed e =>
    rw [hend] at hm
    obtain ⟨x, -, hx⟩ := List.mem_map.1 hm
    obtain rfl : e = .preprocessingFailed := by simpa using (Prod.mk.inj hx).2
    exact ending_ne_preprocessingFailed hend

/-! ### Finished rounds -/

section Rounds

variable (hb : b.Collected S.config batch) (h : Round S wk b log b')
  (hmin : S.config.minBatchSize ≤ batch.length) (hnd : (batch.map Command.responder).Nodup)

include hb h hmin

lemma postprocessCalls_round (hne : survivors S.user batch ≠ []) :
    (postprocessCalls log).Perm (postprocessCalls (afterFilter S wk b batch)) := by
  have hpre : (rawTasks batch).filterMap
      (fun x => Event.postprocess? (.preprocess x.2.1 : Event I P O F)) = [] := by simp
  have hscript : postprocessCalls (script S wk b batch) =
      postprocessCalls (afterFilter S wk b batch) := by
    refine (filterMap_script (fun _ => rfl) hmin).trans ?_
    rw [hpre, filterMap_sendErr fun _ _ => rfl, if_neg hne, List.nil_append, List.nil_append]
  rw [← hscript]
  exact postprocessCalls_perm (round_log hb h)

include hnd

/-- **Only a failed preprocessing is told of.** -/
lemma preprocessingFailed_iff {cmd : Command I P} (hm : cmd ∈ batch) :
    (cmd.responder, .answered (.error .preprocessingFailed)) ∈ fates log ↔
      PreprocessingFailed S cmd := by
  rw [← item_eq_none_iff]
  constructor
  · intro hfate
    by_contra hitem
    obtain ⟨p, hp⟩ := Option.ne_none_iff_exists'.1 hitem
    have hc : cmd.responder ∈ (survivors S.user batch).map Prod.fst :=
      List.mem_map.2 ⟨(cmd.responder, p), mem_survivors.2 ⟨cmd, hm, rfl, hp⟩, rfl⟩
    exact not_preprocessingFailed _ ((fate_of_survivor hb h hmin hnd hc _).1 hfate)
  · intro hitem
    rw [(fates_perm (round_log hb h)).mem_iff, fates_script hmin]
    apply List.mem_append_left
    exact List.mem_map.2 ⟨cmd.responder, mem_failures.2 ⟨cmd, hm, rfl, hitem⟩, rfl⟩

lemma failedTogether (hne : survivors S.user batch ≠ []) {y : Fate O}
    (hend : (ending S wk b batch).fate = some y) : FailedTogether S wk b batch log y := by
  have hfates : fates (afterFilter S wk b batch) = (callers S batch).map fun c => (c, y) := by
    rw [fates_afterFilter]
    cases he : ending S wk b batch with
    | rows outputs =>
      rw [he] at hend
      cases hend
    | failed e =>
      rw [he] at hend
      obtain rfl := Option.some.inj hend
      rfl
    | unwound =>
      rw [he] at hend
      obtain rfl := Option.some.inj hend
      rfl
  refine ⟨hend, ?_, ?_⟩
  · intro c hc z
    rw [fate_of_survivor hb h hmin hnd hc, hfates, List.mem_map]
    constructor
    · rintro ⟨c', -, heq⟩
      exact (Prod.mk.inj heq).2.symm
    · rintro rfl
      exact ⟨c, hc, rfl⟩
  · have hperm := postprocessCalls_round hb h hmin hne
    rw [postprocessCalls_afterFilter] at hperm
    cases he : ending S wk b batch with
    | rows outputs =>
      rw [he] at hend
      cases hend
    | failed e =>
      rw [he] at hperm
      exact hperm.eq_nil
    | unwound =>
      rw [he] at hperm
      exact hperm.eq_nil

lemma servedEach (hne : survivors S.user batch ≠ []) {outputs : List (ArrayD F)}
    (hend : ending S wk b batch = .rows outputs) : ServedEach S wk b batch log outputs := by
  have hlen := length_of_rows hend
  have hcallers : (callers S batch).Nodup :=
    (List.nodup_append'.1 ((survivors_perm S.user batch).nodup_iff.2 hnd)).2.1
  have hsnd : (outputs.zip (callers S batch)).map Prod.snd = callers S batch :=
    List.map_snd_zip (by omega)
  refine ⟨hend, hlen, ?_, ?_⟩
  · have hperm := postprocessCalls_round hb h hmin hne
    rwa [postprocessCalls_afterFilter, hend] at hperm
  · intro c row hrow y
    have hmem : (row, c) ∈ outputs.zip (callers S batch) := by
      rw [← List.zip_swap, List.mem_map]
      exact ⟨(c, row), hrow, rfl⟩
    have hc : c ∈ callers S batch := (List.of_mem_zip hrow).1
    rw [fate_of_survivor hb h hmin hnd hc, fates_afterFilter, hend, List.mem_map]
    constructor
    · rintro ⟨⟨row', c'⟩, hm, heq⟩
      obtain ⟨rfl, rfl⟩ := Prod.mk.inj heq
      -- a caller has one row, as it is in the batch once
      have hinj := List.inj_on_of_nodup_map (hsnd.symm ▸ hcallers) hm hmem rfl
      rw [(Prod.mk.inj hinj).1]
    · rintro rfl
      exact ⟨(row, c), hmem, rfl⟩

end Rounds

/-- **Errors are attributed to whom they belong.**  In every finished round of a batch that passes the
minimum check, each responder is used up once; a caller is told that its preprocessing failed if and
only if its own command was raw and its own `preprocess` returned an error or panicked; and if callers
are left, exactly one of two things happens: the batching, the dispatch, the inference or the count
check failed, all callers left get the same error of it and none is postprocessed, or each has its own
row postprocessed once and gets what comes of it. -/
theorem round_attribution (hb : b.Collected S.config batch) (h : Round S wk b log b')
    (hmin : S.config.minBatchSize ≤ batch.length) (hnd : (batch.map Command.responder).Nodup) :
    ((fates log).map Prod.fst).Perm (batch.map Command.responder) ∧
    (∀ cmd ∈ batch, (cmd.responder, .answered (.error .preprocessingFailed)) ∈ fates log ↔
      PreprocessingFailed S cmd) ∧
    (callers S batch ≠ [] →
      Xor (∃ y, FailedTogether S wk b batch log y)
        (∃ outputs, ServedEach S wk b batch log outputs)) := by
  refine ⟨map_fates_round hb h, ?_, ?_⟩
  · intro cmd hm
    exact preprocessingFailed_iff hb h hmin hnd hm
  · intro hcallers
    have hne : survivors S.user batch ≠ [] := fun hnil => hcallers (by rw [callers, hnil]; rfl)
    have hone : ∀ y outputs, FailedTogether S wk b batch log y →
        ¬ ServedEach S wk b batch log outputs := by
      intro y outputs hfailed hserved
      have hcause := hfailed.cause
      rw [hserved.cause] at hcause
      cases hcause
    cases hend : ending S wk b batch with
    | failed e =>
      have hfailed := failedTogether hb h hmin hnd hne (congrArg Ending.fate hend)
      exact .inl ⟨⟨_, hfailed⟩, fun ⟨outputs, hserved⟩ => hone _ _ hfailed hserved⟩
    | unwound =>
      have hfailed := failedTogether hb h hmin hnd hne (congrArg Ending.fate hend)
      exact .inl ⟨⟨_, hfailed⟩, fun ⟨outputs, hserved⟩ => hone _ _ hfailed hserved⟩
    | rows outputs =>
      have hserved := servedEach hb h hmin hnd hne hend
      exact .inr ⟨⟨_, hserved⟩, fun ⟨y, hfailed⟩ => hone _ _ hfailed hserved⟩

/-- The batcher behind the collection of `7`, which can be preprocessed, and `0`, which cannot. -/
def collectedSample : Batcher ℕ ℕ ℕ := ⟨[.newRaw 0 7 0, .newRaw 1 0 1], 0, 0, .collected⟩

theorem round_attribution_sample :
    ∃ (log : List (Event ℕ ℕ ℕ ℕ)) (b' : Batcher ℕ ℕ ℕ),
      Round sample rowsWorker collectedSample log b' ∧
      ((1, .answered (.error .preprocessingFailed)) ∈ fates log ↔
        PreprocessingFailed sample (.newRaw 1 0 1)) ∧
      Xor (∃ y, FailedTogether sample rowsWorker collectedSample collectedSample.batchBuffer log y)
        (∃ outputs, ServedEach sample rowsWorker collectedSample collectedSample.batchBuffer log
          outputs) := by
  have hb : collectedSample.Collected sample.config collectedSample.batchBuffer :=
    ⟨rfl, rfl, by decide, by decide⟩
  obtain ⟨log, b', h⟩ := exists_round sample rowsWorker hb
  obtain ⟨-, hfailed, hxor⟩ := round_attribution hb h (by decide) (by decide)
  exact ⟨log, b', h, hfailed (.newRaw 1 0 1) (by decide), hxor (by decide)⟩

end OrtSuperserve

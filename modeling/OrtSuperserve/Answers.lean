import OrtSuperserve.Round

/-!
# The answers of a round

What the script of a round says about each responder, the tensor and the calls of `preprocess`: the
failures get their error, the survivors get in order what the batching, the worker and the
postprocessing give them.
-/

namespace OrtSuperserve

open Lib

variable {I P O F : Type} {S : Setup I P O F} {wk : ArrayD F → Option (Reply F)}
  {b b₁ b₂ : Batcher I P F}

lemma filterMap_tasks {γ : Type} {g : Event I P O F → Option γ} (hg : ∀ t, g (.panic t) = none)
    (user : UserCode I P O F) (tasks : List (ℕ × ℕ × I)) :
    (tasks.flatMap (taskPanic user)).filterMap g = [] := by
  apply List.filterMap_eq_nil_iff.2
  intro e he
  obtain ⟨x, -, hx⟩ := List.mem_flatMap.1 he
  unfold taskPanic at hx
  split at hx
  · rw [List.mem_singleton.1 hx]
    exact hg _
  · cases hx

lemma fates_postprocessedAll (l : List (ArrayD F × ℕ)) :
    fates (l.flatMap fun x => Batcher.postprocessed S x.1 x.2) =
      l.map fun x => (x.2, postFate S x.2 x.1) := by
  induction l with
  | nil => rfl
  | cons x l ih =>
    rw [List.flatMap_cons, fates_append, ih, Batcher.fates_postprocessed]
    rfl

/-- The answers behind the batching go to the survivors, in order. -/
lemma map_fates_afterBatch (items : List P) (rs : List ℕ) :
    (fates (afterBatch S wk b items rs)).map Prod.fst = rs := by
  have hsend : ∀ e, (fates (sendErr e rs : List (Event I P O F))).map Prod.fst = rs := fun e => by
    rw [fates_sendErr, List.map_map]
    exact List.map_id rs
  have hdrop : (fates (dropAll rs : List (Event I P O F))).map Prod.fst = rs := by
    rw [fates_dropAll, List.map_map]
    exact List.map_id rs
  have hpost : ∀ l : List (ArrayD F × ℕ),
      (fates (l.flatMap fun x => Batcher.postprocessed S x.1 x.2)).map Prod.fst = l.map Prod.snd := by
    intro l
    rw [fates_postprocessedAll, List.map_map]
    rfl
  unfold afterBatch
  split
  · unfold afterDispatch
    split
    · exact hdrop
    · split
      · exact hsend _
      · unfold afterReply
        split
        · split
          · exact hsend _
          · rename_i hlen
            refine (hpost _).trans (List.map_snd_zip ?_)
            omega
        · exact hsend _
        · exact hsend _
  · exact hsend _
  · exact hdrop

variable {batch : List (Command I P)}

/-- What a round does with the survivors of its batch. -/
abbrev afterFilter (S : Setup I P O F) (wk : ArrayD F → Option (Reply F)) (b : Batcher I P F)
    (batch : List (Command I P)) : List (Event I P O F) :=
  afterBatch S wk b ((survivors S.user batch).map Prod.snd) ((survivors S.user batch).map Prod.fst)

variable (wk) in
/-- The fates and the tensor behind the batching depend on the batch through the survivors, and on the
batcher through the round. -/
lemma afterFilter_congr {batch₁ batch₂ : List (Command I P)} (hround : b₁.round = b₂.round)
    (hs : survivors S.user batch₁ = survivors S.user batch₂) :
    fates (afterFilter S wk b₁ batch₁) = fates (afterFilter S wk b₂ batch₂) ∧
      (dispatches (afterFilter S wk b₁ batch₁)).map Prod.snd =
        (dispatches (afterFilter S wk b₂ batch₂)).map Prod.snd := by
  unfold afterFilter afterBatch
  rw [hround, hs]
  cases S.user.batch b₂.round ((survivors S.user batch₂).map Prod.snd) with
  | ok t =>
    unfold afterDispatch
    by_cases hn : S.config.numSessions = 0 <;> simp [hn]
  | err e => exact ⟨rfl, rfl⟩
  | panic => exact ⟨rfl, rfl⟩

/-- What a projection that sees no panics sees of a script, as far as the survivors. -/
lemma filterMap_script {γ : Type} {g : Event I P O F → Option γ} (hg : ∀ t, g (.panic t) = none)
    (hmin : S.config.minBatchSize ≤ batch.length) :
    (script S wk b batch).filterMap g =
      (rawTasks batch).filterMap (fun x => g (.preprocess x.2.1)) ++
        ((sendErr .preprocessingFailed (failures S.user batch)).filterMap g ++
          if survivors S.user batch = [] then [] else (afterFilter S wk b batch).filterMap g) := by
  have hpre : ((rawTasks batch).map fun x => (.preprocess x.2.1 : Event I P O F)).filterMap g =
      (rawTasks batch).filterMap fun x => g (.preprocess x.2.1) := List.filterMap_map
  rw [script, if_neg (not_lt.2 hmin), afterJoin, List.filterMap_append, List.filterMap_append,
    List.filterMap_append, hpre, filterMap_tasks hg, List.nil_append]
  by_cases hne : survivors S.user batch = []
  · simp [hne]
  · have hne' : (survivors S.user batch).isEmpty = false := by simpa using hne
    rw [hne', if_neg Bool.false_ne_true, if_neg hne]

lemma fates_script (hmin : S.config.minBatchSize ≤ batch.length) :
    fates (script S wk b batch) =
      (failures S.user batch).map (fun c => (c, .answered (.error .preprocessingFailed))) ++
        if survivors S.user batch = [] then [] else fates (afterFilter S wk b batch) := by
  have hpre : (rawTasks batch).filterMap
      (fun x => Event.fate? (.preprocess x.2.1 : Event I P O F)) = [] := by simp
  refine (filterMap_script (fun _ => rfl) hmin).trans ?_
  rw [hpre, List.nil_append]
  exact congrArg (· ++ _) (fates_sendErr _ _)

lemma dispatches_script (hmin : S.config.minBatchSize ≤ batch.length)
    (hne : survivors S.user batch ≠ []) :
    dispatches (script S wk b batch) = dispatches (afterFilter S wk b batch) := by
  have hpre : (rawTasks batch).filterMap
      (fun x => Event.dispatch? (.preprocess x.2.1 : Event I P O F)) = [] := by simp
  refine (filterMap_script (fun _ => rfl) hmin).trans ?_
  rw [hpre, filterMap_sendErr fun _ _ => rfl, if_neg hne, List.nil_append, List.nil_append]

/-- The calls of the raw commands. -/
def rawCalls (batch : List (Command I P)) : List ℕ :=
  batch.filterMap fun cmd =>
    match cmd.input with
    | .raw call _ => some call
    | .preprocessed _ => none

lemma map_rawTasks (batch : List (Command I P)) :
    (rawTasks batch).map (fun x => x.2.1) = rawCalls batch := by
  unfold rawTasks rawCalls
  conv_rhs => rw [← List.zipIdx_map_fst 0 batch, List.filterMap_map]
  rw [List.map_filterMap]
  apply List.filterMap_congr
  intro x _
  obtain ⟨⟨call | p, c⟩, i⟩ := x <;> rfl

lemma filterMap_postprocessedAll {γ : Type} {g : Event I P O F → Option γ} (hg : Ignores g)
    (l : List (ArrayD F × ℕ)) :
    (l.flatMap fun x => Batcher.postprocessed S x.1 x.2).filterMap g = [] := by
  induction l with
  | nil => rfl
  | cons x l ih =>
    rw [List.flatMap_cons, List.filterMap_append, ih, List.append_nil]
    exact hg.postprocessed S x.1 x.2

lemma filterMap_afterReply {γ : Type} {g : Event I P O F → Option γ} (hg : Ignores g) (rs : List ℕ)
    (r : Reply F) : (afterReply S rs r).filterMap g = [] := by
  unfold afterReply
  split
  · split
    · exact hg.sendErr _ rs
    · exact filterMap_postprocessedAll hg _
  · exact hg.sendErr _ rs
  · exact hg.sendErr _ rs

lemma preprocessCalls_afterBatch (items : List P) (rs : List ℕ) :
    preprocessCalls (afterBatch S wk b items rs) = [] := by
  have hsend : ∀ e, preprocessCalls (sendErr e rs : List (Event I P O F)) = [] :=
    fun e => Ignores.preprocess.sendErr e rs
  have hdrop : preprocessCalls (dropAll rs : List (Event I P O F)) = [] :=
    Ignores.preprocess.dropAll rs
  unfold afterBatch
  split
  · unfold afterDispatch
    split
    · exact hdrop
    · split
      · exact hsend _
      · exact filterMap_afterReply .preprocess rs _
  · exact hsend _
  · exact hdrop

/-- A round dispatches one tensor at most. -/
lemma dispatches_afterBatch (items : List P) (rs : List ℕ) :
    (dispatches (afterBatch S wk b items rs)).length ≤ 1 := by
  have hreply : ∀ r, dispatches (afterReply S rs r) = [] := fun r =>
    filterMap_afterReply .dispatch rs r
  unfold afterBatch
  split
  · unfold afterDispatch
    split
    · simp
    · split
      · simp
      · simp [hreply]
  · simp
  · simp

/-- In a round `preprocess` is called once for each raw command. -/
lemma preprocessCalls_script (hmin : S.config.minBatchSize ≤ batch.length)
    (hne : survivors S.user batch ≠ []) :
    preprocessCalls (script S wk b batch) = rawCalls batch := by
  have hpre : (rawTasks batch).filterMap
      (fun x => Event.preprocess? (.preprocess x.2.1 : Event I P O F)) = rawCalls batch := by
    rw [← map_rawTasks, ← List.filterMap_eq_map]
    rfl
  have hafter : (afterFilter S wk b batch).filterMap Event.preprocess? = [] :=
    preprocessCalls_afterBatch _ _
  refine (filterMap_script (fun _ => rfl) hmin).trans ?_
  rw [hpre, filterMap_sendErr fun _ _ => rfl, if_neg hne, hafter, List.nil_append, List.append_nil]

/-- The tensor a finished round dispatched. -/
lemma dispatches_round (hb : b.Collected S.config batch) {log : List (Event I P O F)}
    {b' : Batcher I P F} (h : Round S wk b log b') (hmin : S.config.minBatchSize ≤ batch.length)
    (hne : survivors S.user batch ≠ []) :
    dispatches log = dispatches (afterFilter S wk b batch) := by
  have hperm := dispatches_perm (round_log hb h)
  rw [dispatches_script hmin hne] at hperm
  exact eq_of_perm_of_length_le_one hperm (dispatches_afterBatch _ _)

/-! ### One caller's answer -/

section OneCaller

variable {log : List (Event I P O F)} {b' : Batcher I P F} {c : ℕ}

/-- **A finished round uses up each responder of its batch once.** -/
theorem map_fates_round (hb : b.Collected S.config batch) (h : Round S wk b log b') :
    ((fates log).map Prod.fst).Perm (batch.map Command.responder) := by
  refine ((fates_perm (round_log hb h)).map Prod.fst).trans ?_
  have hall := survivors_perm S.user batch
  by_cases hmin : S.config.minBatchSize ≤ batch.length
  · rw [fates_script hmin, List.map_append, List.map_map]
    by_cases hne : survivors S.user batch = []
    · rw [hne, List.map_nil, List.append_nil] at hall
      rw [if_pos hne]
      simpa [Function.comp_def] using hall
    · rw [if_neg hne, map_fates_afterBatch]
      simpa [Function.comp_def] using hall
  · rw [script, if_pos (not_le.1 hmin), fates_sendErr, List.map_map]
    simp [Function.comp_def]

variable (hb : b.Collected S.config batch) (h : Round S wk b log b')
  (hmin : S.config.minBatchSize ≤ batch.length) (hnd : (batch.map Command.responder).Nodup)

include hb h hnd

/-- Each responder of the batch has one fate. -/
theorem exists_fate (hc : c ∈ batch.map Command.responder) :
    ∃ y, ∀ z, (c, z) ∈ fates log ↔ z = y := by
  have hmap := map_fates_round hb h
  have hfst : c ∈ (fates log).map Prod.fst := hmap.symm.subset hc
  obtain ⟨⟨d, y⟩, hm, rfl⟩ := List.mem_map.1 hfst
  refine ⟨y, fun z => ⟨fun hz => ?_, fun hz => hz ▸ hm⟩⟩
  have hinj := List.inj_on_of_nodup_map (hmap.nodup_iff.2 hnd) hz hm rfl
  exact (Prod.mk.inj hinj).2

include hmin

/-- A survivor's fate comes from the batching on. -/
theorem fate_of_survivor (hc : c ∈ (survivors S.user batch).map Prod.fst) (y : Fate O) :
    (c, y) ∈ fates log ↔ (c, y) ∈ fates (afterFilter S wk b batch) := by
  have hne : survivors S.user batch ≠ [] := fun hnil => by rw [hnil] at hc; cases hc
  have hdisj := (List.nodup_append'.1 ((survivors_perm S.user batch).nodup_iff.2 hnd)).2.2
  rw [(fates_perm (round_log hb h)).mem_iff, fates_script hmin, if_neg hne, List.mem_append]
  apply or_iff_right
  intro hm
  obtain ⟨d, hd, he⟩ := List.mem_map.1 hm
  obtain ⟨rfl, -⟩ := Prod.mk.inj he
  exact hdisj hd hc

/-- A failure's fate is the error. -/
theorem fate_of_failure (hne : survivors S.user batch ≠ []) (hc : c ∈ failures S.user batch)
    (y : Fate O) : (c, y) ∈ fates log ↔ y = .answered (.error .preprocessingFailed) := by
  have hdisj := (List.nodup_append'.1 ((survivors_perm S.user batch).nodup_iff.2 hnd)).2.2
  rw [(fates_perm (round_log hb h)).mem_iff, fates_script hmin, if_neg hne, List.mem_append]
  constructor
  · rintro (hm | hm)
    · obtain ⟨d, -, he⟩ := List.mem_map.1 hm
      exact (Prod.mk.inj he).2.symm
    · have := List.mem_map_of_mem (f := Prod.fst) hm
      rw [map_fates_afterBatch] at this
      exact (hdisj hc this).elim
  · rintro rfl
    exact .inl (List.mem_map.2 ⟨c, hc, rfl⟩)

end OneCaller

end OrtSuperserve

import OrtSuperserve.Round

/-!
# The counts of the join loop

A raw input of a batch is preprocessed by a task, which returns an item, returns an error or panics.
The first adds to `results`, the second to `failed_indices`, and the third leaves no record, so the
batcher works out how many there were: the raw inputs, less the results that did not come
preprocessed, less the failures, with subtractions that would hide a count that is off.  `Tallied`
is what the loop keeps besides `Joining`, and `Accounted` what follows when it ends, whatever the
batch, the outcomes and the order of the tasks (`preprocessing_accounted`).
-/

namespace OrtSuperserve

open Lib

variable {I P O F : Type}

/-! ### The outcomes of a batch -/

namespace Outcome

variable {α : Type} {x : Outcome α}

def isErr : Outcome α → Bool
  | .err _ => true
  | _ => false

def isPanic : Outcome α → Bool
  | .panic => true
  | _ => false

lemma isErr_iff : x.isErr ↔ ∃ e, x = .err e := by cases x <;> simp [isErr]

lemma isPanic_iff : x.isPanic ↔ x = .panic := by cases x <;> simp [isPanic]

/-- A call returns a value, or an error, or panics. -/
lemma toNat_add (x : Outcome α) :
    x.toOption.isSome.toNat + x.isErr.toNat + x.isPanic.toNat = 1 := by cases x <;> rfl

end Outcome

namespace Command

/-- What the preprocessing of a command comes to; an input that came preprocessed is its item. -/
def outcome (user : UserCode I P O F) (cmd : Command I P) : Outcome P :=
  match cmd.input with
  | .raw call input => user.preprocess call input
  | .preprocessed p => .ok p

def isRaw (cmd : Command I P) : Bool :=
  match cmd.input with
  | .raw _ _ => true
  | .preprocessed _ => false

variable {user : UserCode I P O F} {cmd : Command I P}

lemma item_eq_toOption : cmd.item user = (cmd.outcome user).toOption := by
  unfold item outcome
  cases cmd.input <;> rfl

lemma outcome_eq_iff {x : Outcome P} : cmd.outcome user = x ↔
    (∃ p, cmd.input = .preprocessed p ∧ x = .ok p) ∨
      ∃ call input, cmd.input = .raw call input ∧ user.preprocess call input = x := by
  unfold outcome
  cases h : cmd.input with
  | raw call input => simp
  | preprocessed p => simp [eq_comm]

end Command

section Counts

variable (user : UserCode I P O F) (batch : List (Command I P))

lemma length_rawTasks : (rawTasks batch).length = batch.countP Command.isRaw := by
  rw [rawTasks, List.length_filterMap_eq_countP]
  conv_rhs => rw [← List.zipIdx_map_fst 0 batch, List.countP_map]
  apply List.countP_congr
  rintro ⟨⟨_ | _, c⟩, i⟩ - <;> simp [rawEntry, Command.isRaw]

lemma length_preprocessedInputs : (batch.zipIdx.filterMap preprocessedEntry).length =
    batch.countP fun cmd => !cmd.isRaw := by
  rw [List.length_filterMap_eq_countP]
  conv_rhs => rw [← List.zipIdx_map_fst 0 batch, List.countP_map]
  apply List.countP_congr
  rintro ⟨⟨_ | _, c⟩, i⟩ - <;> simp [preprocessedEntry, Command.isRaw]

lemma countP_isRaw_add : batch.countP Command.isRaw + (batch.countP fun cmd => !cmd.isRaw) =
    batch.length := by
  rw [List.length_eq_countP_add_countP Command.isRaw]
  simp

/-- Every command has an item, or its task fails, or its task panics. -/
lemma countP_outcomes :
    (batch.countP fun cmd => (cmd.item user).isSome) +
      (batch.countP fun cmd => (cmd.outcome user).isErr) +
      (batch.countP fun cmd => (cmd.outcome user).isPanic) = batch.length := by
  induction batch with
  | nil => rfl
  | cons cmd batch ih =>
    have hcmd := (cmd.outcome user).toNat_add
    simp only [Bool.toNat, Bool.cond_eq_ite] at hcmd
    simp only [List.countP_cons, List.length_cons, Command.item_eq_toOption] at ih ⊢
    omega

/-- The commands that came preprocessed have an item. -/
lemma countP_preprocessed_le :
    (batch.countP fun cmd => !cmd.isRaw) ≤ batch.countP fun cmd => (cmd.item user).isSome := by
  apply List.countP_mono_left
  rintro ⟨_ | p, c⟩ - h
  · cases h
  · rfl

end Counts

/-! ### The loop -/

/-- What the counts and `failed_indices` are while some tasks still run. -/
structure Tallied (user : UserCode I P O F) (batch : List (Command I P)) (j : Preprocessing I P) :
    Prop where
  rawInputsCount : j.rawInputsCount = batch.countP Command.isRaw
  preprocessedInputsCount : j.preprocessedInputsCount = batch.countP fun cmd => !cmd.isRaw
  nodup : j.failedIndices.Nodup
  mem : ∀ i, i ∈ j.failedIndices ↔
    i ∉ j.preprocessTasks.map Prod.fst ∧ ∃ cmd, batch[i]? = some cmd ∧ (cmd.outcome user).isErr

section Loop

variable {user : UserCode I P O F} {batch : List (Command I P)} {j j' : Preprocessing I P}

lemma Tallied.spawn (user : UserCode I P O F) {b : Batcher I P F}
    (hp : (b.spawnPreprocess (O := O)).1.phase = .preprocessing j) :
    Tallied user b.batchBuffer j := by
  obtain rfl := Phase.preprocessing.inj hp
  refine ⟨?_, ?_, List.nodup_nil, ?_⟩
  · rw [splitBatch_eq]
    exact length_rawTasks _
  · rw [splitBatch_eq]
    exact length_preprocessedInputs _
  · intro i
    -- a task that fails is still running
    refine ⟨fun h => absurd h List.not_mem_nil, ?_⟩
    rintro ⟨hrun, cmd, hcmd, herr⟩
    obtain ⟨e, he⟩ := Outcome.isErr_iff.1 herr
    rcases Command.outcome_eq_iff.1 he with ⟨p, -, hp⟩ | ⟨call, input, hin, -⟩
    · cases hp
    · refine absurd (List.mem_map.2 ⟨(i, call, input), ?_, rfl⟩) hrun
      rw [splitBatch_eq]
      exact mem_rawInputs.2 ⟨cmd, hcmd, hin⟩

/-- **One turn of the loop**: the index of the task that has ended is a failed one if it returned an
error. -/
lemma Tallied.join (ht : Tallied user batch j) (hj : Joining user batch j) {k idx call : ℕ}
    {input : I} (hk : j.preprocessTasks[k]? = some (idx, call, input))
    (hraw : j'.rawInputsCount = j.rawInputsCount)
    (hpre : j'.preprocessedInputsCount = j.preprocessedInputsCount)
    (htasks : j'.preprocessTasks = j.preprocessTasks.eraseIdx k)
    (hfailed : j'.failedIndices =
      j.failedIndices ++ if (user.preprocess call input).isErr then [idx] else []) :
    Tallied user batch j' := by
  have hmem : (idx, call, input) ∈ j.preprocessTasks := List.mem_of_getElem? hk
  have hidx : idx ∉ j.failedIndices := fun h =>
    ((ht.mem idx).1 h).1 (List.mem_map.2 ⟨_, hmem, rfl⟩)
  obtain ⟨cmd, hcmd, hin⟩ := hj.task idx call input hmem
  have hout : cmd.outcome user = user.preprocess call input := by rw [Command.outcome, hin]
  refine ⟨hraw.trans ht.rawInputsCount, hpre.trans ht.preprocessedInputsCount, ?_, ?_⟩
  · rw [hfailed]
    split
    · exact List.nodup_append.2 ⟨ht.nodup, List.nodup_singleton idx, by
        rintro i hi _ hm rfl
        exact hidx ((List.mem_singleton.1 hm) ▸ hi)⟩
    · rw [List.append_nil]
      exact ht.nodup
  · intro i
    rw [hfailed, htasks, (hj.running_eraseIdx hk).2 i, List.mem_append, ht.mem i]
    constructor
    · rintro (⟨hrun, herr⟩ | hi)
      · exact ⟨fun h => hrun h.2, herr⟩
      · split at hi
        · rename_i herr
          obtain rfl := List.mem_singleton.1 hi
          exact ⟨fun h => h.1 rfl, cmd, hcmd, hout ▸ herr⟩
        · exact absurd hi List.not_mem_nil
    · rintro ⟨hrun, cmd', hcmd', herr⟩
      by_cases hi : i = idx
      · subst hi
        obtain rfl := Option.some.inj (hcmd.symm.trans hcmd')
        rw [hout] at herr
        right
        rw [if_pos herr]
        exact List.mem_singleton_self i
      · exact .inl ⟨fun h => hrun ⟨hi, h⟩, cmd', hcmd', herr⟩

/-- Every step of a round keeps the counts. -/
lemma Batcher.Move.tallied {S : Setup I P O F} {V : WorkerMessage F → Reply F → Prop}
    {b b' : Batcher I P F} {a : BatcherAction I P F} {evs : List (Event I P O F)}
    (h : Batcher.Move S b a b' evs) (hf : b.Fits S V batch)
    (ht : ∀ j, b.phase = .preprocessing j → Tallied S.user batch j)
    (hp' : b'.phase = .preprocessing j') : Tallied S.user batch j' := by
  have hjoining : ∀ j, b.phase = .preprocessing j → Joining S.user batch j := by
    intro j hp
    simp only [Batcher.Fits, hp] at hf
    exact hf.2.2
  cases h with
  | spawn hp =>
    simp only [Batcher.Fits, hp] at hf
    rw [← hf.1]
    exact .spawn S.user hp'
  | joinOk j k idx call input item hp hk hok =>
    obtain rfl := Phase.preprocessing.inj hp'
    exact (ht j hp).join (hjoining j hp) hk rfl rfl rfl (by simp [hok, Outcome.isErr])
  | joinErr j k idx call input e hp hk herr =>
    obtain rfl := Phase.preprocessing.inj hp'
    exact (ht j hp).join (hjoining j hp) hk rfl rfl rfl (by simp [herr, Outcome.isErr])
  | joinPanic j k idx call input hp hk hpanic =>
    obtain rfl := Phase.preprocessing.inj hp'
    exact (ht j hp).join (hjoining j hp) hk rfl rfl rfl (by simp [hpanic, Outcome.isErr])
  | more cmd hp => simp [hp] at hp'
  | _ => simp [Batcher.nextRound] at hp'

/-- So the counts are right in every state of the loop. -/
lemma tallied {S : Setup I P O F} {wk : ArrayD F → Option (Reply F)} {b : Batcher I P F}
    {x : Batcher I P F × List (Event I P O F)} (hb : b.Collected S.config batch)
    (h : (roundMachine S wk b).Reachable x) :
    ∀ j, x.1.phase = .preprocessing j → Tallied S.user batch j := by
  refine h.invariant (P := fun x => ∀ j, x.1.phase = .preprocessing j → Tallied S.user batch j) ?_ ?_
  · intro j hp
    rw [show (roundMachine S wk b).start.1.phase = .collected from hb.phase] at hp
    cases hp
  · intro u a v hu ht hst j hp
    obtain ⟨l, evs, hm, -, -, -⟩ := roundMachine_step hst
    exact hm.tallied (RoundInv.reachable hb hu).fits ht hp

end Loop

/-! ### The end of the loop -/

/-- A raw input at an index whose task ended so. -/
def TaskEnded (user : UserCode I P O F) (batch : List (Command I P)) (i : ℕ) (x : Outcome P) :
    Prop :=
  ∃ cmd call input, batch[i]? = some cmd ∧ cmd.input = .raw call input ∧
    user.preprocess call input = x

/-- The indices that left no record. -/
def Preprocessing.unrecorded (j : Preprocessing I P) : List ℕ :=
  (List.range j.batchLen).filter fun i => i ∉ j.results.keys ∧ i ∉ j.failedIndices

/-- The items taken out of `results` and the responders kept are those at the same indices, in
increasing order. -/
def Aligned (j : Preprocessing I P) (successIndices : List ℕ) : Prop :=
  ∃ indices : List ℕ, indices.Pairwise (· < ·) ∧ indices.Perm successIndices ∧
    (extractAll (List.range j.batchLen) j.results).map some =
      indices.map (fun i => j.results.lookup i) ∧
    (keepResponders successIndices j.responders).1.map some =
      indices.map fun i => j.responders[i]?

/-- The accounts of a batch, with no task running.  No subtraction of `panickedCount` saturates. -/
structure Accounted (user : UserCode I P O F) (batch : List (Command I P))
    (j : Preprocessing I P) : Prop where
  batchLen : j.batchLen = batch.length
  keys_nodup : j.results.keys.Nodup
  failed_nodup : j.failedIndices.Nodup
  disjoint : j.results.keys.Disjoint j.failedIndices
  keys_lt : ∀ i ∈ j.results.keys, i < j.batchLen
  failed_lt : ∀ i ∈ j.failedIndices, i < j.batchLen
  results : ∀ i p, j.results.lookup i = some p ↔
    (∃ cmd, batch[i]? = some cmd ∧ cmd.input = .preprocessed p) ∨ TaskEnded user batch i (.ok p)
  failed : ∀ i, i ∈ j.failedIndices ↔ ∃ e, TaskEnded user batch i (.err e)
  neither : ∀ i, i ∈ j.unrecorded ↔ TaskEnded user batch i .panic
  preprocessed_le : j.preprocessedInputsCount ≤ j.results.keys.length
  succeeded_le : j.results.keys.length - j.preprocessedInputsCount ≤ j.rawInputsCount
  failed_le : j.failedIndices.length ≤
    j.rawInputsCount - (j.results.keys.length - j.preprocessedInputsCount)
  panickedCount : j.panickedCount = j.unrecorded.length
  aligned : ∀ successIndices, successIndices.Perm j.results.keys → Aligned j successIndices ∧
    (extractAll (List.range j.batchLen) j.results).length =
      (keepResponders successIndices j.responders).1.length

section Accounts

variable {user : UserCode I P O F} {batch : List (Command I P)} {j : Preprocessing I P}

lemma mem_keys_iff (hj : Joining user batch j) (hrun : j.preprocessTasks = []) (i : ℕ) :
    i ∈ j.results.keys ↔ ∃ cmd, batch[i]? = some cmd ∧ (cmd.item user).isSome := by
  rw [← AList.mem_keys, ← AList.lookup_isSome, hj.lookup_done hrun]
  cases batch[i]? <;> simp

lemma mem_failedIndices_iff (ht : Tallied user batch j) (hrun : j.preprocessTasks = []) (i : ℕ) :
    i ∈ j.failedIndices ↔ ∃ cmd, batch[i]? = some cmd ∧ (cmd.outcome user).isErr := by
  rw [ht.mem, hrun]
  simp

lemma taskEnded_iff {x : Outcome P} (hx : ∀ p, x ≠ .ok p) (i : ℕ) :
    TaskEnded user batch i x ↔ ∃ cmd, batch[i]? = some cmd ∧ cmd.outcome user = x := by
  constructor
  · rintro ⟨cmd, call, input, hcmd, hin, h⟩
    exact ⟨cmd, hcmd, Command.outcome_eq_iff.2 (.inr ⟨call, input, hin, h⟩)⟩
  · rintro ⟨cmd, hcmd, h⟩
    rcases Command.outcome_eq_iff.1 h with ⟨p, -, hp⟩ | ⟨call, input, hin, h⟩
    · exact absurd hp (hx p)
    · exact ⟨cmd, call, input, hcmd, hin, h⟩

lemma mem_unrecorded_iff (hj : Joining user batch j) (ht : Tallied user batch j)
    (hrun : j.preprocessTasks = []) (i : ℕ) :
    i ∈ j.unrecorded ↔ ∃ cmd, batch[i]? = some cmd ∧ (cmd.outcome user).isPanic := by
  simp only [Preprocessing.unrecorded, List.mem_filter, List.mem_range, decide_eq_true_eq,
    mem_keys_iff hj hrun, mem_failedIndices_iff ht hrun, hj.batchLen, Command.item_eq_toOption]
  constructor
  · rintro ⟨hlt, hkey, hfailed⟩
    refine ⟨_, List.getElem?_eq_getElem hlt, ?_⟩
    have hcmd := (batch[i].outcome user).toNat_add
    simp_all
  · rintro ⟨cmd, hcmd, hpanic⟩
    rw [Outcome.isPanic_iff] at hpanic
    refine ⟨(List.getElem?_eq_some_iff.1 hcmd).1, ?_, ?_⟩
    · rintro ⟨cmd', hcmd', hsome⟩
      obtain rfl := Option.some.inj (hcmd.symm.trans hcmd')
      rw [hpanic] at hsome
      cases hsome
    · rintro ⟨cmd', hcmd', herr⟩
      obtain rfl := Option.some.inj (hcmd.symm.trans hcmd')
      rw [hpanic] at herr
      cases herr

/-- What is in `results`, and under which index. -/
lemma lookup_results_iff (hj : Joining user batch j) (hrun : j.preprocessTasks = []) (i : ℕ) (p : P) :
    j.results.lookup i = some p ↔
      (∃ cmd, batch[i]? = some cmd ∧ cmd.input = .preprocessed p) ∨
        TaskEnded user batch i (.ok p) := by
  rw [hj.lookup_done hrun, Option.bind_eq_some_iff]
  simp only [Command.item_eq_toOption, Outcome.toOption_eq_some, Command.outcome_eq_iff]
  constructor
  · rintro ⟨cmd, hcmd, ⟨q, hin, hq⟩ | ⟨call, input, hin, h⟩⟩
    · obtain rfl := Outcome.ok.inj hq
      exact .inl ⟨cmd, hcmd, hin⟩
    · exact .inr ⟨cmd, call, input, hcmd, hin, h⟩
  · rintro (⟨cmd, hcmd, hin⟩ | ⟨cmd, call, input, hcmd, hin, h⟩)
    · exact ⟨cmd, hcmd, .inl ⟨p, hin, rfl⟩⟩
    · exact ⟨cmd, hcmd, .inr ⟨call, input, hin, h⟩⟩

lemma failed_iff (ht : Tallied user batch j) (hrun : j.preprocessTasks = []) (i : ℕ) :
    i ∈ j.failedIndices ↔ ∃ e, TaskEnded user batch i (.err e) := by
  rw [mem_failedIndices_iff ht hrun]
  constructor
  · rintro ⟨cmd, hcmd, herr⟩
    obtain ⟨e, he⟩ := Outcome.isErr_iff.1 herr
    exact ⟨e, (taskEnded_iff (by simp) i).2 ⟨cmd, hcmd, he⟩⟩
  · rintro ⟨e, he⟩
    obtain ⟨cmd, hcmd, he⟩ := (taskEnded_iff (by simp) i).1 he
    exact ⟨cmd, hcmd, Outcome.isErr_iff.2 ⟨e, he⟩⟩

lemma disjoint_keys_failed (hj : Joining user batch j) (ht : Tallied user batch j)
    (hrun : j.preprocessTasks = []) : j.results.keys.Disjoint j.failedIndices := by
  rw [List.disjoint_left]
  intro i hi hi'
  obtain ⟨cmd, hcmd, hsome⟩ := (mem_keys_iff hj hrun i).1 hi
  obtain ⟨cmd', hcmd', herr⟩ := (mem_failedIndices_iff ht hrun i).1 hi'
  obtain rfl := Option.some.inj (hcmd.symm.trans hcmd')
  obtain ⟨e, he⟩ := Outcome.isErr_iff.1 herr
  rw [Command.item_eq_toOption, he] at hsome
  cases hsome

/-- **Items and responders line up.** -/
lemma Aligned.of_loop (hj : Joining user batch j) (hrun : j.preprocessTasks = [])
    {successIndices : List ℕ} (hperm : successIndices.Perm j.results.keys) :
    Aligned j successIndices := by
  have hmem : ∀ i, successIndices.contains i = (j.results.lookup i).isSome := by
    intro i
    rw [hj.contains_iff hrun hperm, hj.lookup_done hrun]
  refine ⟨(List.range j.batchLen).filter fun i => successIndices.contains i,
    List.pairwise_lt_range.filter _, ?_, ?_, ?_⟩
  · refine (List.perm_ext_iff_of_nodup (List.nodup_range.filter _)
      (hperm.nodup_iff.2 j.results.keys_nodup)).2 fun i => ?_
    rw [List.mem_filter, List.contains_iff_mem, List.mem_range, hj.batchLen]
    refine ⟨And.right, fun hi => ⟨?_, hi⟩⟩
    obtain ⟨cmd, hcmd, -⟩ := (mem_keys_iff hj hrun i).1 (hperm.subset hi)
    exact (List.getElem?_eq_some_iff.1 hcmd).1
  · rw [extractAll_eq _ List.nodup_range, List.map_filterMap_some_eq_filter_map_isSome,
      List.filter_map]
    congr 1
    exact List.filter_congr fun i _ => (hmem i).symm
  · have hlen : j.responders.length = j.batchLen := by
      rw [hj.responders, List.length_map, hj.batchLen]
    rw [← hlen]
    exact map_some_filter_zipIdx (fun i => successIndices.contains i) j.responders

lemma Aligned.length_eq {successIndices : List ℕ} (h : Aligned j successIndices) :
    (extractAll (List.range j.batchLen) j.results).length =
      (keepResponders successIndices j.responders).1.length := by
  obtain ⟨indices, -, -, hitems, hkept⟩ := h
  have hitems := congrArg List.length hitems
  have hkept := congrArg List.length hkept
  simp only [List.length_map] at hitems hkept
  rw [hitems, hkept]

/-- The accounts, from what the loop keeps. -/
theorem Accounted.of_loop (hj : Joining user batch j) (ht : Tallied user batch j)
    (hrun : j.preprocessTasks = []) : Accounted user batch j := by
  have hkeys := mem_keys_iff hj hrun
  have hfailed := mem_failedIndices_iff ht hrun
  have hunrec := mem_unrecorded_iff hj ht hrun
  have hlt : ∀ {i : ℕ} {cmd : Command I P}, batch[i]? = some cmd → i < j.batchLen := by
    intro i cmd hcmd
    rw [hj.batchLen]
    exact (List.getElem?_eq_some_iff.1 hcmd).1
  -- the three lists are as long as there are commands of their kind
  have hk := length_indices _ _ j.results.keys_nodup hkeys
  have hf := length_indices _ _ ht.nodup hfailed
  have hu : j.unrecorded.length = _ := length_indices _ _ (List.nodup_range.filter _) hunrec
  have hraw := ht.rawInputsCount
  have hpre := ht.preprocessedInputsCount
  have hsum := countP_isRaw_add batch
  have houtcomes := countP_outcomes user batch
  have hle := countP_preprocessed_le user batch
  refine ⟨hj.batchLen, j.results.keys_nodup, ht.nodup, disjoint_keys_failed hj ht hrun, ?_, ?_,
    lookup_results_iff hj hrun, failed_iff ht hrun, ?_, by omega, by omega, by omega, ?_, ?_⟩
  · intro i hi
    obtain ⟨cmd, hcmd, -⟩ := (hkeys i).1 hi
    exact hlt hcmd
  · intro i hi
    obtain ⟨cmd, hcmd, -⟩ := (hfailed i).1 hi
    exact hlt hcmd
  · intro i
    rw [hunrec i, taskEnded_iff (by simp) i]
    simp only [Outcome.isPanic_iff]
  · rw [Preprocessing.panickedCount]
    omega
  · intro successIndices hperm
    have halign := Aligned.of_loop hj hrun hperm
    exact ⟨halign, halign.length_eq⟩

end Accounts

section Rounds

variable {S : Setup I P O F} {wk : ArrayD F → Option (Reply F)} {b : Batcher I P F}
  {batch : List (Command I P)} {x : Batcher I P F × List (Event I P O F)} {j : Preprocessing I P}

/-- **The preprocessing is accounted for.**  Whatever a collected batch is made of, whatever its
tasks come to and in whatever order they end: when none is left to join, `results` and
`failed_indices` have, without duplicates and apart from one another, the inputs that have an item
and those whose task returned an error; the others are those whose task panicked, `panicked_count` is
their number and no subtraction in it saturates; and the items taken out of `results` line up with
the responders kept. -/
theorem preprocessing_accounted (hb : b.Collected S.config batch)
    (h : (roundMachine S wk b).Reachable x) (hp : x.1.phase = .preprocessing j)
    (hrun : j.preprocessTasks = []) : Accounted S.user batch j := by
  have hfits := (RoundInv.reachable hb h).fits
  simp only [Batcher.Fits, hp] at hfits
  exact .of_loop hfits.2.2 (tallied hb h j hp) hrun

end Rounds

/-- The sample, for up to four numbers, and with a preprocessing that panics on `13`. -/
def sampleUnlucky : Setup ℕ ℕ ℕ ℕ :=
  { sample with
    config := { maxBatchSize := 4 }
    user := { sampleUser with
      preprocess := fun _ x => if x = 13 then .panic else if x = 0 then .err "zero" else .ok x } }

/-- A batch with one of each, `5` being preprocessed. -/
def collectedFour : Batcher ℕ ℕ ℕ :=
  ⟨[.newRaw 0 7 0, .newRaw 1 0 1, .newRaw 2 13 2, .newPreprocessed 5 3], 0, 0, .collected⟩

/-- The tasks end last in, first out. -/
theorem preprocessing_accounted_four :
    ∃ (x : Batcher ℕ ℕ ℕ × List (Event ℕ ℕ ℕ ℕ)) (j : Preprocessing ℕ ℕ),
      (roundMachine sampleUnlucky rowsWorker collectedFour).run (collectedFour, [])
        [.turn .check, .turn (.preprocessed 2), .turn (.preprocessed 1), .turn (.preprocessed 0)] =
          some x ∧
      x.1.phase = .preprocessing j ∧ j.results.keys = [0, 3] ∧ j.failedIndices = [1] ∧
      j.panickedCount = 1 ∧ Accounted sampleUnlucky.user collectedFour.batchBuffer j := by
  obtain ⟨x, j, hrun, hp, htasks, hkeys, hfailed, hcount⟩ :
      ∃ (x : Batcher ℕ ℕ ℕ × List (Event ℕ ℕ ℕ ℕ)) (j : Preprocessing ℕ ℕ),
        (roundMachine sampleUnlucky rowsWorker collectedFour).run (collectedFour, [])
          [.turn .check, .turn (.preprocessed 2), .turn (.preprocessed 1),
            .turn (.preprocessed 0)] = some x ∧
        x.1.phase = .preprocessing j ∧ j.preprocessTasks = [] ∧ j.results.keys = [0, 3] ∧
        j.failedIndices = [1] ∧ j.panickedCount = 1 := ⟨_, _, rfl, rfl, rfl, rfl, rfl, rfl⟩
  have hb : collectedFour.Collected sampleUnlucky.config collectedFour.batchBuffer :=
    ⟨rfl, rfl, by decide, by decide⟩
  exact ⟨x, j, hrun, hp, hkeys, hfailed, hcount, preprocessing_accounted hb ⟨_, hrun⟩ hp htasks⟩

end OrtSuperserve

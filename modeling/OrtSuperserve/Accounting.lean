import OrtSuperserve.BatcherMoves

/-!
# The accounting of the preprocessing tasks

Inputs and responders of a batch part ways when the buffer is drained: the responders stay in order,
the inputs go to tasks or into `results`, tagged with their index.  `Joining` is the invariant of the
`join_next` loop: `results` holds, under its index, the item of every command whose task is no longer
running, and nothing else.  When no task runs it follows, whatever order the tasks ended in and the
keys come out in, that items, kept responders and failed responders are read off the batch in arrival
order (`Joining.items`, `Joining.kept`, `Joining.failed`).
-/

namespace OrtSuperserve

open Lib

variable {I P O F : Type}

/-- The commands of a batch whose preprocessing succeeds, as responder and item, in order. -/
def survivors (user : UserCode I P O F) (batch : List (Command I P)) : List (ℕ × P) :=
  batch.filterMap fun cmd => (cmd.item user).map fun p => (cmd.responder, p)

/-- The responders of the others, in order. -/
def failures (user : UserCode I P O F) (batch : List (Command I P)) : List ℕ :=
  (batch.filter fun cmd => (cmd.item user).isNone).map Command.responder

lemma survivors_length_add (user : UserCode I P O F) (batch : List (Command I P)) :
    (survivors user batch).length + (failures user batch).length = batch.length := by
  induction batch with
  | nil => rfl
  | cons cmd batch ih =>
    unfold survivors failures at *
    cases h : cmd.item user <;> simp_all <;> omega

lemma survivors_length_le (user : UserCode I P O F) (batch : List (Command I P)) :
    (survivors user batch).length ≤ batch.length := by
  have := survivors_length_add user batch
  omega

/-- Survivors and failures together are the responders of the batch. -/
lemma survivors_perm (user : UserCode I P O F) (batch : List (Command I P)) :
    (failures user batch ++ (survivors user batch).map Prod.fst).Perm
      (batch.map Command.responder) := by
  induction batch with
  | nil => exact .nil
  | cons cmd batch ih =>
    unfold survivors failures at *
    cases h : cmd.item user with
    | none => simpa [h] using ih
    | some p =>
      simp only [List.filter_cons, h, Option.isNone_some, Bool.false_eq_true, if_false,
        List.filterMap_cons, Option.map_some, List.map_cons]
      exact List.perm_middle.trans (ih.cons _)

lemma mem_survivors {user : UserCode I P O F} {batch : List (Command I P)} {c : ℕ} {p : P} :
    (c, p) ∈ survivors user batch ↔ ∃ cmd ∈ batch, cmd.responder = c ∧ cmd.item user = some p := by
  unfold survivors
  rw [List.mem_filterMap]
  refine exists_congr fun cmd => and_congr_right fun _ => ?_
  rw [Option.map_eq_some_iff]
  constructor
  · rintro ⟨q, hq, he⟩
    obtain ⟨rfl, rfl⟩ := Prod.mk.inj he
    exact ⟨rfl, hq⟩
  · rintro ⟨rfl, hp⟩
    exact ⟨p, hp, rfl⟩

lemma mem_failures {user : UserCode I P O F} {batch : List (Command I P)} {c : ℕ} :
    c ∈ failures user batch ↔ ∃ cmd ∈ batch, cmd.responder = c ∧ cmd.item user = none := by
  unfold failures
  simp only [List.mem_map, List.mem_filter, Option.isNone_iff_eq_none]
  constructor
  · rintro ⟨cmd, ⟨hm, hn⟩, rfl⟩
    exact ⟨cmd, hm, rfl, hn⟩
  · rintro ⟨cmd, hm, rfl, hn⟩
    exact ⟨cmd, ⟨hm, hn⟩, rfl⟩

lemma survivors_length_of_items {user : UserCode I P O F} {batch : List (Command I P)}
    (h : ∀ cmd ∈ batch, (cmd.item user).isSome) : (survivors user batch).length = batch.length := by
  have hfail : failures user batch = [] := by
    apply List.eq_nil_iff_forall_not_mem.2
    intro c hc
    obtain ⟨cmd, hm, -, hnone⟩ := mem_failures.1 hc
    have := h cmd hm
    rw [hnone] at this
    cases this
  have := survivors_length_add user batch
  rw [hfail, List.length_nil] at this
  omega

/-! ### Draining the buffer -/

/-- The task of a command at an index, if it is raw. -/
def rawEntry (x : Command I P × ℕ) : Option (ℕ × ℕ × I) :=
  match x.1.input with
  | .raw call input => some (x.2, call, input)
  | .preprocessed _ => none

/-- The item of a command at an index, if it came preprocessed. -/
def preprocessedEntry (x : Command I P × ℕ) : Option (ℕ × P) :=
  match x.1.input with
  | .raw _ _ => none
  | .preprocessed p => some (x.2, p)

lemma foldl_push (l : List (Command I P × ℕ)) (s : Split I P) :
    l.foldl (fun s x => s.push x.1 x.2) s =
      { responders := s.responders ++ l.map fun x => x.1.responder
        rawInputs := s.rawInputs ++ l.filterMap rawEntry
        preprocessedInputs := s.preprocessedInputs ++ l.filterMap preprocessedEntry } := by
  induction l generalizing s with
  | nil => simp
  | cons x l ih =>
    rw [List.foldl_cons, ih]
    obtain ⟨⟨input | p, c⟩, i⟩ := x <;>
      simp [Split.push, rawEntry, preprocessedEntry, List.filterMap_cons]

lemma splitBatch_eq (batch : List (Command I P)) :
    splitBatch batch =
      { responders := batch.map Command.responder
        rawInputs := batch.zipIdx.filterMap rawEntry
        preprocessedInputs := batch.zipIdx.filterMap preprocessedEntry } := by
  have hr : (batch.zipIdx.map fun x => x.1.responder) = batch.map Command.responder := by
    conv_rhs => rw [← List.zipIdx_map_fst 0 batch, List.map_map]
    rfl
  rw [splitBatch, foldl_push, hr]
  rfl

lemma mem_rawInputs {batch : List (Command I P)} {i call : ℕ} {input : I} :
    (i, call, input) ∈ batch.zipIdx.filterMap rawEntry ↔
      ∃ cmd, batch[i]? = some cmd ∧ cmd.input = .raw call input := by
  rw [List.mem_filterMap]
  constructor
  · rintro ⟨⟨⟨input' | p, c⟩, k⟩, hm, he⟩
    · obtain ⟨rfl, rfl, rfl⟩ : k = i ∧ _ ∧ _ := by simpa [rawEntry] using he
      exact ⟨_, List.mk_mem_zipIdx_iff_getElem?.1 hm, rfl⟩
    · cases he
  · rintro ⟨cmd, hi, hin⟩
    exact ⟨(cmd, i), List.mk_mem_zipIdx_iff_getElem?.2 hi, by simp [rawEntry, hin]⟩

lemma mem_preprocessedInputs {batch : List (Command I P)} {i : ℕ} {p : P} :
    (i, p) ∈ batch.zipIdx.filterMap preprocessedEntry ↔
      ∃ cmd, batch[i]? = some cmd ∧ cmd.input = .preprocessed p := by
  rw [List.mem_filterMap]
  constructor
  · rintro ⟨⟨⟨input' | q, c⟩, k⟩, hm, he⟩
    · cases he
    · obtain ⟨rfl, rfl⟩ : k = i ∧ _ := by simpa [preprocessedEntry] using he
      exact ⟨_, List.mk_mem_zipIdx_iff_getElem?.1 hm, rfl⟩
  · rintro ⟨cmd, hi, hin⟩
    exact ⟨(cmd, i), List.mk_mem_zipIdx_iff_getElem?.2 hi, by simp [preprocessedEntry, hin]⟩

/-- Tagged entries read off an indexed list have different tags. -/
lemma nodup_entries {γ : Type} (f : Command I P × ℕ → Option (ℕ × γ))
    (hf : ∀ x y, f x = some y → y.1 = x.2) (batch : List (Command I P)) :
    ((batch.zipIdx.filterMap f).map Prod.fst).Nodup := by
  have hidx : batch.zipIdx.Pairwise fun x y => x.2 ≠ y.2 := by
    rw [← List.pairwise_map (f := Prod.snd) (R := (· ≠ ·)), List.zipIdx_map_snd]
    exact List.nodup_range'
  refine List.pairwise_map.2 (hidx.filterMap f fun x y hxy u hu v hv => ?_)
  rw [hf x u hu, hf y v hv]
  exact hxy

/-! ### The join loop -/

structure Joining (user : UserCode I P O F) (batch : List (Command I P)) (j : Preprocessing I P) :
    Prop where
  batchLen : j.batchLen = batch.length
  responders : j.responders = batch.map Command.responder
  task : ∀ i call input, (i, call, input) ∈ j.preprocessTasks →
    ∃ cmd, batch[i]? = some cmd ∧ cmd.input = .raw call input
  nodup : (j.preprocessTasks.map Prod.fst).Nodup
  lookup : ∀ i, j.results.lookup i =
    if i ∈ j.preprocessTasks.map Prod.fst then none else batch[i]?.bind (Command.item user)

namespace Joining

variable {user : UserCode I P O F} {batch : List (Command I P)} {j : Preprocessing I P}

/-- What the drain leaves. -/
theorem spawn (user : UserCode I P O F) (b : Batcher I P F) :
    ∃ j, (b.spawnPreprocess (O := O)).1.phase = .preprocessing j ∧ Joining user b.batchBuffer j := by
  refine ⟨_, rfl, rfl, ?_, ?_, ?_, ?_⟩
  · simp only [splitBatch_eq]
  · intro i call input h
    simp only [splitBatch_eq] at h
    exact mem_rawInputs.1 h
  · simp only [splitBatch_eq]
    refine nodup_entries rawEntry (fun x y h => ?_) _
    obtain ⟨⟨input | p, c⟩, k⟩ := x
    · obtain rfl := Option.some.inj h
      rfl
    · cases h
  · intro i
    simp only [splitBatch_eq, initialResults]
    have hpre : ((b.batchBuffer.zipIdx.filterMap preprocessedEntry).map Prod.fst).Nodup := by
      refine nodup_entries preprocessedEntry (fun x y h => ?_) _
      obtain ⟨⟨input | p, c⟩, k⟩ := x
      · cases h
      · obtain rfl := Option.some.inj h
        rfl
    have hraw : i ∈ (b.batchBuffer.zipIdx.filterMap rawEntry).map Prod.fst ↔
        ∃ call input cmd, b.batchBuffer[i]? = some cmd ∧ cmd.input = .raw call input := by
      rw [List.mem_map]
      constructor
      · rintro ⟨⟨i, call, input⟩, h, rfl⟩
        exact ⟨call, input, mem_rawInputs.1 h⟩
      · rintro ⟨call, input, h⟩
        exact ⟨(i, call, input), mem_rawInputs.2 h, rfl⟩
    have hnot : (¬ ∃ p cmd, b.batchBuffer[i]? = some cmd ∧ cmd.input = .preprocessed p) →
        (insertAll (b.batchBuffer.zipIdx.filterMap preprocessedEntry) ∅).lookup i = none := by
      intro h
      refine (lookup_insertAll_of_notMem fun hi => h ?_).trans (AList.lookup_empty i)
      obtain ⟨⟨i, p⟩, hm, rfl⟩ := List.mem_map.1 hi
      exact ⟨p, mem_preprocessedInputs.1 hm⟩
    -- at each index: no command, a raw one, or a preprocessed one
    rcases hc : b.batchBuffer[i]? with _ | ⟨⟨call, input⟩ | p, c⟩
    · rw [hnot (by rintro ⟨p, cmd, h, -⟩; rw [hc] at h; cases h)]
      simp
    · rw [if_pos (hraw.2 ⟨call, input, _, hc, rfl⟩)]
      refine hnot ?_
      rintro ⟨p, cmd, h, hp⟩
      rw [hc] at h
      obtain rfl := Option.some.inj h
      cases hp
    · rw [if_neg]
      · exact lookup_insertAll_of_mem hpre (mem_preprocessedInputs.2 ⟨_, hc, rfl⟩)
      · rw [hraw]
        rintro ⟨call, input, cmd, h, hin⟩
        rw [hc] at h
        obtain rfl := Option.some.inj h
        cases hin

/-- The tasks that still run once the one at position `k` has ended. -/
lemma running_eraseIdx (hj : Joining user batch j) {k idx call : ℕ} {input : I}
    (hk : j.preprocessTasks[k]? = some (idx, call, input)) :
    ((j.preprocessTasks.eraseIdx k).map Prod.fst).Nodup ∧
      ∀ i, i ∈ (j.preprocessTasks.eraseIdx k).map Prod.fst ↔
        i ≠ idx ∧ i ∈ j.preprocessTasks.map Prod.fst := by
  have hidx : (j.preprocessTasks.map Prod.fst)[k]? = some idx := by rw [List.getElem?_map, hk]; rfl
  have herase : (j.preprocessTasks.eraseIdx k).map Prod.fst =
      (j.preprocessTasks.map Prod.fst).erase idx := by
    obtain ⟨hlt, he⟩ := List.getElem?_eq_some_iff.1 hidx
    rw [← he, hj.nodup.erase_getElem k hlt, List.eraseIdx_map]
  rw [herase]
  exact ⟨hj.nodup.erase _, fun i => hj.nodup.mem_erase_iff⟩

/-- **One turn of the loop**: the task at position `k` is gone, and its item, if there is one, is in
`results`. -/
theorem join (hj : Joining user batch j) {k idx call : ℕ} {input : I}
    (hk : j.preprocessTasks[k]? = some (idx, call, input)) {j' : Preprocessing I P}
    (hlen : j'.batchLen = j.batchLen) (hresp : j'.responders = j.responders)
    (htasks : j'.preprocessTasks = j.preprocessTasks.eraseIdx k)
    (hres : ∀ i, j'.results.lookup i =
      if i = idx then (user.preprocess call input).toOption else j.results.lookup i) :
    Joining user batch j' := by
  have hmem : (idx, call, input) ∈ j.preprocessTasks := List.mem_of_getElem? hk
  obtain ⟨hnodup, hrun⟩ := hj.running_eraseIdx hk
  rw [← htasks] at hnodup hrun
  refine ⟨hlen.trans hj.batchLen, hresp.trans hj.responders, ?_, hnodup, ?_⟩
  · intro i c x h
    rw [htasks] at h
    exact hj.task i c x (List.mem_of_mem_eraseIdx h)
  · intro i
    by_cases hi : i = idx
    · subst hi
      obtain ⟨cmd, hcmd, hin⟩ := hj.task _ _ _ hmem
      rw [hres, if_pos rfl, if_neg (fun h => ((hrun _).1 h).1 rfl), hcmd, Option.bind_some,
        Command.item, hin]
    · rw [hres, if_neg hi, hj.lookup i]
      simp only [hrun, ne_eq, hi, not_false_eq_true, true_and]

/-! ### The end of the loop -/

variable {keys : List ℕ}

/-- With no task running, `results` holds the items of the batch. -/
lemma lookup_done (hj : Joining user batch j) (ht : j.preprocessTasks = []) (i : ℕ) :
    j.results.lookup i = batch[i]?.bind (Command.item user) := by
  rw [hj.lookup i, ht, List.map_nil, if_neg List.not_mem_nil]

/-- **The items, in arrival order.** -/
theorem items (hj : Joining user batch j) (ht : j.preprocessTasks = []) :
    extractAll (List.range j.batchLen) j.results = (survivors user batch).map Prod.snd := by
  rw [hj.batchLen, extractAll_range (Command.item user) batch j.results (hj.lookup_done ht)]
  unfold survivors
  rw [List.map_filterMap]
  apply List.filterMap_congr
  intro cmd _
  cases cmd.item user <;> rfl

lemma contains_iff (hj : Joining user batch j) (ht : j.preprocessTasks = [])
    (hk : keys.Perm j.results.keys) (i : ℕ) :
    keys.contains i = (batch[i]?.bind (Command.item user)).isSome := by
  rw [← hj.lookup_done ht, Bool.eq_iff_iff, List.contains_iff_mem, hk.mem_iff, AList.lookup_isSome]
  exact AList.mem_keys.symm

/-- **The kept responders, in the same order.** -/
theorem kept (hj : Joining user batch j) (ht : j.preprocessTasks = [])
    (hk : keys.Perm j.results.keys) :
    (keepResponders keys j.responders).1 = (survivors user batch).map Prod.fst := by
  have := filter_zipIdx (Command.item user) Command.responder (fun i => keys.contains i) batch 0
    fun i _ => by rw [Nat.zero_add]; exact hj.contains_iff ht hk i
  simp only [keepResponders]
  rw [hj.responders, this, survivors, List.map_filterMap]
  apply List.filterMap_congr
  intro cmd _
  cases cmd.item user <;> rfl

/-- **The responders that get an error.** -/
theorem failed (hj : Joining user batch j) (ht : j.preprocessTasks = [])
    (hk : keys.Perm j.results.keys) :
    (keepResponders keys j.responders).2 = failures user batch := by
  have := filter_zipIdx (fun cmd : Command I P => if (cmd.item user).isNone then some () else none)
    Command.responder (fun i => !keys.contains i) batch 0 fun i hi => by
      rw [Nat.zero_add, hj.contains_iff ht hk i, List.getElem?_eq_getElem hi, Option.bind_some,
        Option.bind_some]
      cases batch[i].item user <;> rfl
  simp only [keepResponders]
  rw [hj.responders, this, failures, ← List.filterMap_eq_filter, List.map_filterMap]
  apply List.filterMap_congr
  intro cmd _
  cases h : cmd.item user <;> simp [Option.guard, h]

end Joining

end OrtSuperserve

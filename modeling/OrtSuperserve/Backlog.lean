import OrtSuperserve.Once

/-!
# Where requests pile up

The batcher never has more than one round in hand (`batcher_load_le`), whatever becomes of it.  The
command channel has no bound, so a burst of calls can fill it while the batcher does nothing
(`backlog_unbounded`).  What waits there are raw inputs by default, and then the server never holds
more preprocessed items than a round (`items_bounded`); with `preprocess_on_infer` they are items, as
many as there are calls.
-/

namespace OrtSuperserve

open Lib

variable {I P O F : Type} {S : Setup I P O F} {s s' : State I P O F}

/-! ### What the batcher has in hand -/

/-- What a phase works on: the inputs and items of a batch, the rows of its tensor, or the outputs still
to be postprocessed. -/
def Phase.load : Phase I P F → ℕ
  | .preprocessing j => j.preprocessTasks.length + j.results.keys.length
  | .batching preprocessedItems _ => preprocessedItems.length
  | .dispatching _ responders => responders.length
  | .awaiting _ responders => responders.length
  | .postprocessing tasks => tasks.length
  | _ => 0

/-- The commands, items, rows and outputs the batcher holds. -/
def Batcher.load (b : Batcher I P F) : ℕ := b.batchBuffer.length + b.phase.load

/-- The tasks and results of a batch are about different commands of it. -/
lemma Joining.load_le {user : UserCode I P O F} {batch : List (Command I P)} {j : Preprocessing I P}
    (hj : Joining user batch j) : j.preprocessTasks.length + j.results.keys.length ≤ batch.length := by
  have hkeys : ∀ i ∈ j.results.keys, i ∉ j.preprocessTasks.map Prod.fst ∧ i < batch.length := by
    intro i hi
    have hsome := AList.lookup_isSome.2 (AList.mem_keys.2 hi)
    rw [hj.lookup] at hsome
    split at hsome
    · cases hsome
    · refine ⟨‹_›, ?_⟩
      by_contra hlt
      rw [List.getElem?_eq_none (not_lt.1 hlt)] at hsome
      cases hsome
  have hnodup : (j.preprocessTasks.map Prod.fst ++ j.results.keys).Nodup :=
    List.nodup_append'.2 ⟨hj.nodup, j.results.keys_nodup, fun i hi hk => (hkeys i hk).1 hi⟩
  have hsub : j.preprocessTasks.map Prod.fst ++ j.results.keys ⊆ List.range batch.length := by
    intro i hi
    rw [List.mem_range]
    rcases List.mem_append.1 hi with hi | hi
    · obtain ⟨⟨i, call, input⟩, hm, rfl⟩ := List.mem_map.1 hi
      obtain ⟨cmd, hcmd, -⟩ := hj.task i call input hm
      exact (List.getElem?_eq_some_iff.1 hcmd).1
    · exact (hkeys i hi).2
  simpa using (List.subperm_of_subset hnodup hsub).length_le

/-- **The batcher never holds more than one round.** -/
theorem batcher_load_le (hs : (server S).Reachable s) : s.batcher.load ≤ S.config.roundSize := by
  have hfits := (stream hs).fits
  have hbuf : s.batcher.phase ≠ .collecting → s.batcher.phase ≠ .collected →
      s.batcher.batchBuffer = [] := hfits.buffer
  have hsurv : ∀ {batch : List (Command I P)}, Formed S.config batch →
      (survivors S.user batch).length ≤ S.config.roundSize :=
    fun hform => (survivors_length_le S.user _).trans hform.max
  unfold Batcher.load
  cases hp : s.batcher.phase with
  | collecting =>
    simp only [Batcher.Fits, hp] at hfits
    exact hfits.2
  | collected =>
    simp only [Batcher.Fits, hp] at hfits
    rw [hfits.1]
    exact hfits.2.2
  | preprocessing j =>
    simp only [Batcher.Fits, hp] at hfits
    obtain ⟨hnil, hform, hj⟩ := hfits
    rw [hnil, List.length_nil, zero_add]
    exact hj.load_le.trans hform.max
  | batching items responders =>
    simp only [Batcher.Fits, hp] at hfits
    obtain ⟨hnil, hform, -, rfl, -⟩ := hfits
    rw [hnil, List.length_nil, zero_add, Phase.load, List.length_map]
    exact hsurv hform
  | dispatching t responders =>
    simp only [Batcher.Fits, hp] at hfits
    obtain ⟨hnil, hform, -, rfl⟩ := hfits
    rw [hnil, List.length_nil, zero_add, Phase.load, List.length_map]
    exact hsurv hform
  | awaiting msg responders =>
    simp only [Batcher.Fits, hp] at hfits
    obtain ⟨hnil, hform, -, rfl⟩ := hfits
    rw [hnil, List.length_nil, zero_add, Phase.load, List.length_map]
    exact hsurv hform
  | postprocessing tasks =>
    simp only [Batcher.Fits, hp] at hfits
    obtain ⟨hnil, hform, t, outputs, -, -, -, htasks⟩ := hfits
    have hnodup := held_nodup hs
    rw [Batcher.held, hnil, hp, List.map_nil, List.nil_append, Phase.responders] at hnodup
    have hsub : tasks.map Prod.snd ⊆ (survivors S.user (currentBatch [] s.log)).map Prod.fst := by
      intro c hc
      obtain ⟨⟨row, c⟩, hm, rfl⟩ := List.mem_map.1 hc
      exact (List.of_mem_zip (htasks _ hm)).2
    have hle := (List.subperm_of_subset hnodup hsub).length_le
    rw [List.length_map, List.length_map] at hle
    rw [hnil, List.length_nil, zero_add]
    exact hle.trans (hsurv hform)
  | _ =>
    rw [hbuf (by simp [hp]) (by simp [hp])]
    exact Nat.zero_le _

/-! ### Preprocessed items -/

def CallState.items : CallState I P O → ℕ
  | .sending cmd => (!cmd.isRaw).toNat
  | _ => 0

/-- A task counts as an item, as it may have finished and not be joined yet. -/
def Phase.items : Phase I P F → ℕ
  | .preprocessing j => j.preprocessTasks.length + j.results.keys.length
  | .batching preprocessedItems _ => preprocessedItems.length
  | _ => 0

/-- The preprocessed items alive: those that calls are about to send, those in the channel and in the
buffer, and those of the batch in hand, with the ones its tasks hold. -/
def State.items (s : State I P O F) : ℕ :=
  (s.calls.map fun call => call.state.items).sum +
    ((s.batcher.batchBuffer ++ s.commandQueue).countP fun cmd => !cmd.isRaw) + s.batcher.phase.items

lemma Phase.items_le_load (p : Phase I P F) : p.items ≤ p.load := by
  cases p with
  | preprocessing j => exact le_rfl
  | batching items responders => exact le_rfl
  | _ => exact Nat.zero_le _

/-- **Without `preprocess_on_infer` the items fit into a round.** -/
theorem items_bounded (hs : (server S).Reachable s) (hoff : ∀ c, S.preprocessOnInfer c = false) :
    s.items ≤ S.config.roundSize := by
  have hcalls : (s.calls.map fun call => call.state.items).sum = 0 := by
    apply List.sum_eq_zero
    intro n hn
    obtain ⟨call, hm, rfl⟩ := List.mem_map.1 hn
    obtain ⟨c, hc⟩ := List.mem_iff_getElem?.1 hm
    cases hst : call.state with
    | sending cmd =>
      have hp := ((calls hs).calls c call hc).sending cmd hst
      simp [CallState.items, isRaw_of_prepare hp, hoff]
    | _ => rfl
  have hbuf : ((s.batcher.batchBuffer ++ s.commandQueue).countP fun cmd => !cmd.isRaw) = 0 := by
    rw [List.countP_eq_zero]
    intro cmd hm
    obtain ⟨call, -, -, hp⟩ := sent_of_buffered hs hm
    simp [isRaw_of_prepare hp, hoff]
  have hle := batcher_load_le hs
  have hitems := s.batcher.phase.items_le_load
  unfold Batcher.load at hle
  rw [State.items, hcalls, hbuf]
  omega

/-- In the sample both items fit, also while neither task has been joined. -/
theorem items_bounded_sample : ∃ s : State ℕ ℕ ℕ ℕ,
    (server sample).run (.start sample) (sampleRun.take 12) = some s ∧ s.items = 2 ∧ s.items ≤ 2 := by
  obtain ⟨s, hrun, hitems⟩ : ∃ s : State ℕ ℕ ℕ ℕ,
      (server sample).run (.start sample) (sampleRun.take 12) = some s ∧ s.items = 2 := ⟨_, rfl, rfl⟩
  exact ⟨s, hrun, hitems, items_bounded ⟨_, hrun⟩ fun _ => rfl⟩

/-! ### The command channel -/

/-- A call that comes through at once, whatever the batcher does. -/
lemma run_call {h : ℕ} {input : I} (hg : s.batcher.gone = false) (hh : s.handles[h]? = some true)
    {cmd : Command I P} (hp : (prepare S s.calls.length input).1 = .sending cmd) :
    (server S).run s [.client (.infer h input), .client (.prepare s.calls.length),
      .client (.send s.calls.length)] =
        some { s with
          calls := s.calls ++ [⟨h, input, .waiting⟩]
          commandQueue := s.commandQueue ++ [cmd]
          log := s.log ++ (prepare S s.calls.length input).2 ++ [.accepted cmd] } := by
  have h₁ : (server S).step s (.client (.infer h input)) =
      some { s with calls := s.calls ++ [⟨h, input, .starting⟩] } := by
    simp [server, State.step, State.clientStep, hh]
  have h₂ : (server S).step { s with calls := s.calls ++ [⟨h, input, .starting⟩] }
      (.client (.prepare s.calls.length)) =
        some { s with
          calls := s.calls ++ [⟨h, input, .sending cmd⟩]
          log := s.log ++ (prepare S s.calls.length input).2 } := by
    simp [server, State.step, State.clientStep, State.setCall, hp]
  have h₃ : (server S).step
      { s with
        calls := s.calls ++ [⟨h, input, .sending cmd⟩]
        log := s.log ++ (prepare S s.calls.length input).2 }
      (.client (.send s.calls.length)) =
        some { s with
          calls := s.calls ++ [⟨h, input, .waiting⟩]
          commandQueue := s.commandQueue ++ [cmd]
          log := s.log ++ (prepare S s.calls.length input).2 ++ [.accepted cmd] } := by
    simp [server, State.step, State.clientStep, State.setCall, hg]
  exact (server S).run_cons.2 ⟨_, h₁, (server S).run_cons.2 ⟨_, h₂, (server S).run_cons.2 ⟨_, h₃, rfl⟩⟩⟩

/-- A command that waits is an item if its call was preprocessed in `infer`. -/
lemma items_snoc (call : Call I P O) (hc : call.state.items = 0) (cmd : Command I P)
    (log : List (Event I P O F)) :
    ({ s with calls := s.calls ++ [call], commandQueue := s.commandQueue ++ [cmd], log := log } :
      State I P O F).items = s.items + (!cmd.isRaw).toNat := by
  simp only [State.items, List.map_append, List.sum_append, List.map_singleton, List.sum_singleton, hc,
    ← List.append_assoc, List.countP_append, List.countP_singleton]
  cases cmd.isRaw with
  | true => simp
  | false =>
    simp
    omega

/-- **The command channel takes whatever comes.**  As long as the batcher is not gone and a handle is
alive, any number of calls come through while the batcher and the workers do nothing; and with
`preprocess_on_infer` each of them leaves an item in the channel. -/
theorem backlog_unbounded {h : ℕ} {input : I} (hg : s.batcher.gone = false)
    (hh : s.handles[h]? = some true)
    (hpre : ∀ c, S.preprocessOnInfer c = true → ∃ p, S.user.preprocess c input = .ok p) (n : ℕ) :
    ∃ t, (server S).Reaches s t ∧ t.batcher = s.batcher ∧ t.workers = s.workers ∧
      t.handles = s.handles ∧ t.commandQueue.length = s.commandQueue.length + n ∧
      ((∀ c, S.preprocessOnInfer c = true) → t.items = s.items + n) := by
  induction n with
  | zero => exact ⟨s, .refl s, rfl, rfl, rfl, rfl, fun _ => rfl⟩
  | succ n ih =>
    obtain ⟨t, hreach, hb, hw, hhandles, hq, hitems⟩ := ih
    obtain ⟨cmd, hp⟩ : ∃ cmd, (prepare S t.calls.length input).1 = .sending cmd := by
      unfold prepare
      split
      · obtain ⟨p, hp⟩ := hpre _ ‹_›
        rw [hp]
        exact ⟨_, rfl⟩
      · exact ⟨_, rfl⟩
    have hrun := run_call (S := S) (by rw [hb]; exact hg) (by rw [hhandles]; exact hh) hp
    refine ⟨_, hreach.trans ⟨_, hrun⟩, hb, hw, hhandles, ?_, ?_⟩
    · rw [List.length_append, hq]
      rfl
    · intro hon
      have hraw : cmd.isRaw = false := by rw [isRaw_of_prepare hp, hon]; rfl
      rw [items_snoc _ rfl, hitems hon, hraw]
      rfl

/-- A thousand items wait before the batcher of the sample has taken its first step. -/
theorem backlog_unbounded_sample : ∃ t : State ℕ ℕ ℕ ℕ,
    (server { sample with preprocessOnInfer := fun _ => true }).Reachable t ∧
    t.batcher.phase = .starting ∧ t.items = 1000 := by
  have hpre : ∀ c, true = true → ∃ p, sample.user.preprocess c 7 = .ok p := fun _ _ => ⟨7, rfl⟩
  obtain ⟨t, ht, hb, -, -, -, hitems⟩ := backlog_unbounded
    (S := { sample with preprocessOnInfer := fun _ => true }) (s := .start sample) (h := 0)
    rfl rfl hpre 1000
  exact ⟨t, ht, by rw [hb]; rfl, by rw [hitems fun _ => rfl]; rfl⟩

end OrtSuperserve

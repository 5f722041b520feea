import OrtSuperserve.Answers
import OrtSuperserve.Responses
import OrtSuperserve.Tally

/-!
# How often the user's code is called

An input is preprocessed by its own call of `infer` or by the batch that takes it, a batch is put
together once, and an output is postprocessed when its responder is used up.  So, in every run, none of
the user's functions is called twice for the same request or round, and for a request that is answered
with `Ok` each of them was called once (`user_code_once`).
-/

namespace OrtSuperserve

open Lib

variable {I P O F : Type} {S : Setup I P O F} {s s' : State I P O F} {a : Action I} {c : ℕ}

/-! ### What is still to be preprocessed -/

/-- The input of call `c` may still be preprocessed: the call has not started, or its raw input is on
its way to a batch. -/
def State.Unprocessed (s : State I P O F) (c : ℕ) : Prop :=
  (∃ call, s.calls[c]? = some call ∧ (call.state = .starting ∨
    ∃ cmd : Command I P, call.state = .sending cmd ∧ cmd.isRaw = true)) ∨
  ∃ cmd ∈ s.batcher.batchBuffer ++ s.commandQueue, cmd.isRaw = true ∧ cmd.responder = c

/-- The buffer is empty but for the collection loop and the minimum check. -/
lemma Batcher.Fits.buffer {V : WorkerMessage F → Reply F → Prop} {batch : List (Command I P)}
    {b : Batcher I P F} (h : b.Fits S V batch) (h₁ : b.phase ≠ .collecting)
    (h₂ : b.phase ≠ .collected) : b.batchBuffer = [] := by
  cases hp : b.phase with
  | collecting => exact absurd hp h₁
  | collected => exact absurd hp h₂
  | preprocessing j => simp only [Fits, hp] at h; exact h.1
  | batching items responders => simp only [Fits, hp] at h; exact h.1
  | dispatching t responders => simp only [Fits, hp] at h; exact h.1
  | awaiting msg responders => simp only [Fits, hp] at h; exact h.1
  | postprocessing tasks => simp only [Fits, hp] at h; exact h.1
  | _ => simpa only [Fits, hp] using h

/-- What is in the buffer and in the channel was accepted, each command once. -/
lemma buffered_sublist (hs : (server S).Reachable s) :
    List.Sublist (s.batcher.batchBuffer ++ s.commandQueue) (accepted s.log) := by
  have hst := stream hs
  obtain ⟨lost, hacc, -⟩ := hst.order
  rw [hacc, hst.taken]
  refine List.Sublist.append ?_ (List.sublist_append_right _ _)
  by_cases h₁ : s.batcher.phase = .collecting
  · have hpend : s.batcher.pending = s.batcher.batchBuffer := by simp [Batcher.pending, h₁]
    rw [hpend]
    exact List.sublist_append_right _ _
  by_cases h₂ : s.batcher.phase = .collected
  · have hfits := hst.fits
    simp only [Batcher.Fits, h₂] at hfits
    rw [hfits.1]
    refine List.Sublist.trans ?_ (List.sublist_append_left _ _)
    rcases List.eq_nil_or_concat (collected s.log) with hnil | ⟨bs, b, hb⟩
    · rw [currentBatch, hnil]
      exact List.nil_sublist _
    · rw [currentBatch, hb, List.concat_eq_append]
      simp
  · rw [hst.fits.buffer h₁ h₂]
    exact List.nil_sublist _

/-- So no responder is there twice. -/
lemma buffered_nodup (hs : (server S).Reachable s) :
    ((s.batcher.batchBuffer ++ s.commandQueue).map Command.responder).Nodup :=
  (calls hs).nodup.sublist ((buffered_sublist hs).map _)

/-- A command in the buffer or the channel belongs to a call that has sent it. -/
lemma sent_of_buffered (hs : (server S).Reachable s) {cmd : Command I P}
    (hm : cmd ∈ s.batcher.batchBuffer ++ s.commandQueue) :
    ∃ call, s.calls[cmd.responder]? = some call ∧ call.state.fresh = false ∧
      (prepare S cmd.responder call.input).1 = .sending cmd :=
  (calls hs).sent cmd ((buffered_sublist hs).subset hm)

/-! ### One step -/

namespace Batcher

variable {b b' : Batcher I P F} {l : BatcherAction I P F} {evs : List (Event I P O F)}

lemma preprocessCalls_spawnPreprocess (b : Batcher I P F) :
    preprocessCalls (b.spawnPreprocess (O := O)).2 = rawCalls b.batchBuffer := by
  rw [← map_rawTasks, spawnPreprocess, splitBatch_eq, preprocessCalls, List.filterMap_map]
  exact congrFun List.filterMap_eq_map _

/-- Only spawning the tasks of a batch preprocesses, and empties the buffer. -/
lemma Move.preprocessCalls_cases (h : Move S b l b' evs) :
    preprocessCalls evs = [] ∨
      preprocessCalls evs = rawCalls b.batchBuffer ∧ b'.batchBuffer = [] ∧ received evs = [] := by
  cases h with
  | spawn =>
    exact .inr ⟨preprocessCalls_spawnPreprocess b, rfl, received_spawnPreprocess b⟩
  | post tasks k rawOutput d => exact .inl (Ignores.preprocess.postprocessed S rawOutput d)
  | _ => exact .inl (by simp)

/-- What the buffer has, it had or received. -/
lemma Move.buffer_subset (h : Move S b l b' evs) :
    ∀ cmd ∈ b'.batchBuffer, cmd ∈ b.batchBuffer ∨ cmd ∈ received evs := by
  intro cmd hm
  cases h with
  | first d hp => simpa using hm
  | more d hp => simpa using hm
  | spawn => cases hm
  | short => cases hm
  | _ => exact .inl hm

end Batcher

/-- A raw command carries the number of its own call. -/
lemma raw_of_prepare {input x : I} {cmd : Command I P} {call : ℕ}
    (h : (prepare S c input).1 = .sending cmd) (hr : cmd.input = .raw call x) : call = c := by
  unfold prepare at h
  split at h
  · split at h
    · obtain rfl := CallState.sending.inj h
      cases hr
    · cases h
    · cases h
  · obtain rfl := CallState.sending.inj h
    exact (CommandInput.raw.inj hr).1.symm

/-- The inputs a batch preprocesses are those of its raw commands. -/
lemma rawCalls_buffer (hs : (server S).Reachable s) :
    rawCalls s.batcher.batchBuffer =
      (s.batcher.batchBuffer.filter Command.isRaw).map Command.responder := by
  unfold rawCalls
  rw [← List.filterMap_eq_filter, List.map_filterMap]
  apply List.filterMap_congr
  intro cmd hm
  obtain ⟨call, -, -, hp⟩ := sent_of_buffered hs (List.mem_append_left _ hm)
  cases hi : cmd.input with
  | raw n x => simp [Option.guard, Command.isRaw, hi, raw_of_prepare hp hi]
  | preprocessed p => simp [Option.guard, Command.isRaw, hi]

/-- What a step does to the inputs still to be preprocessed. -/
structure Preprocesses (s s' : State I P O F) (evs : List (Event I P O F)) : Prop where
  log : s'.log = s.log ++ evs
  nodup : (preprocessCalls evs).Nodup
  called : ∀ c ∈ preprocessCalls evs, s.Unprocessed c ∧ ¬ s'.Unprocessed c
  left : ∀ c, s'.Unprocessed c → s.Unprocessed c ∨ c = s.calls.length

lemma Preprocesses.nothing {evs : List (Event I P O F)} (hlog : s'.log = s.log ++ evs)
    (hevs : preprocessCalls evs = [])
    (h : ∀ c, s'.Unprocessed c → s.Unprocessed c ∨ c = s.calls.length) : Preprocesses s s' evs := by
  refine ⟨hlog, ?_, ?_, h⟩
  · rw [hevs]
    exact List.nodup_nil
  · rw [hevs]
    simp

/-- A call that goes on has no more to be preprocessed than before. -/
lemma unprocessed_setCall {d : ℕ} {call : Call I P O} {st : CallState I P O}
    (hu : s'.Unprocessed c) (hc : s.calls[d]? = some call)
    (hcalls : s'.calls = (s.setCall d call st).calls) (hst : st.fresh = true → s.Unprocessed d)
    (hbuf : ∀ cmd ∈ s'.batcher.batchBuffer ++ s'.commandQueue,
      cmd ∈ s.batcher.batchBuffer ++ s.commandQueue ∨
        (cmd.isRaw = true → s.Unprocessed cmd.responder)) :
    s.Unprocessed c ∨ c = s.calls.length := by
  refine .inl ?_
  rcases hu with ⟨call', hc', h⟩ | ⟨cmd, hm, hraw, rfl⟩
  · rw [hcalls, getElem?_setCall hc] at hc'
    split at hc'
    · rename_i hcd
      obtain rfl := Option.some.inj hc'
      rw [hcd]
      apply hst
      rcases h with h | ⟨cmd, h, -⟩
      · rw [show st = .starting from h]
        rfl
      · rw [show st = .sending cmd from h]
        rfl
    · exact .inl ⟨call', hc', h⟩
  · rcases hbuf cmd hm with hm | hm
    · exact .inr ⟨cmd, hm, hraw, rfl⟩
    · exact hm hraw

lemma Batcher.Move.preprocesses {l : BatcherAction I P F} {b' : Batcher I P F}
    {evs : List (Event I P O F)} (hm : Batcher.Move S s.batcher l b' evs)
    (hs : (server S).Reachable s) (hb : s'.batcher = b') (hcalls : s'.calls = s.calls)
    (hq : s.commandQueue = received evs ++ s'.commandQueue) (hlog : s'.log = s.log ++ evs) :
    Preprocesses s s' evs := by
  have hsub : ∀ cmd ∈ s'.batcher.batchBuffer ++ s'.commandQueue,
      cmd ∈ s.batcher.batchBuffer ++ s.commandQueue := by
    intro cmd hcmd
    rw [hb] at hcmd
    rw [hq]
    rcases List.mem_append.1 hcmd with hcmd | hcmd
    · rcases hm.buffer_subset cmd hcmd with h | h <;> simp [h]
    · simp [hcmd]
  have hleft : ∀ c, s'.Unprocessed c → s.Unprocessed c ∨ c = s.calls.length := by
    rintro c (⟨call, hc, h⟩ | ⟨cmd, hcmd, h⟩)
    · rw [hcalls] at hc
      exact .inl (.inl ⟨call, hc, h⟩)
    · exact .inl (.inr ⟨cmd, hsub cmd hcmd, h⟩)
  rcases hm.preprocessCalls_cases with hnil | ⟨hraw, hempty, hrec⟩
  · exact .nothing hlog hnil hleft
  rw [rawCalls_buffer hs] at hraw
  have hnodup := buffered_nodup hs
  rw [List.map_append, List.nodup_append] at hnodup
  refine ⟨hlog, ?_, ?_, hleft⟩
  · rw [hraw]
    exact hnodup.1.sublist (List.filter_sublist.map _)
  · rw [hraw]
    intro c hc
    obtain ⟨cmd, hcmd, rfl⟩ := List.mem_map.1 hc
    obtain ⟨hcmd, hr⟩ := List.mem_filter.1 hcmd
    refine ⟨.inr ⟨cmd, List.mem_append_left _ hcmd, hr, rfl⟩, ?_⟩
    rintro (⟨call, hc, h⟩ | ⟨cmd', hcmd', -, he⟩)
    · obtain ⟨call', hc', hf, -⟩ := sent_of_buffered hs (List.mem_append_left _ hcmd)
      rw [hcalls, hc'] at hc
      obtain rfl := Option.some.inj hc
      rcases h with h | ⟨d, h, -⟩ <;> simp [h, CallState.fresh] at hf
    · rw [hb, hempty, List.nil_append] at hcmd'
      rw [hrec, List.nil_append] at hq
      rw [hq] at hnodup
      exact hnodup.2.2 _ (List.mem_map_of_mem hcmd) _ (List.mem_map_of_mem hcmd') he.symm

lemma preprocessCalls_prepare (S : Setup I P O F) (c : ℕ) (input : I) :
    preprocessCalls (prepare S c input).2 = if S.preprocessOnInfer c then [c] else [] := by
  unfold prepare
  split
  · split <;> rfl
  · rfl

/-- A call sends its raw input unless it is preprocessed in `infer`. -/
lemma isRaw_of_prepare {input : I} {cmd : Command I P} (h : (prepare S c input).1 = .sending cmd) :
    cmd.isRaw = !S.preprocessOnInfer c := by
  unfold prepare at h
  split at h
  · rename_i hon
    rw [hon]
    split at h
    · obtain rfl := CallState.sending.inj h
      rfl
    · cases h
    · cases h
  · rename_i hoff
    rw [Bool.eq_false_iff.2 hoff]
    obtain rfl := CallState.sending.inj h
    rfl

/-- A call that ends has nothing preprocessed by that. -/
lemma preprocesses_ended {d : ℕ} {call : Call I P O} {st : CallState I P O}
    (hc : s.calls[d]? = some call) (hst : st.fresh = false) :
    Preprocesses s (s.setCall d call st) [] := by
  refine .nothing (List.append_nil _).symm rfl fun c hu => ?_
  refine unprocessed_setCall hu hc rfl (fun h => ?_) fun cmd hm => .inl hm
  rw [hst] at h
  cases h

/-- After `prepare` a call whose input `infer` preprocesses has no input left. -/
lemma not_unprocessed_prepare (hs : (server S).Reachable s) {call : Call I P O}
    {evs : List (Event I P O F)} (hc : s.calls[c]? = some call) (hst : call.state = .starting)
    (hon : S.preprocessOnInfer c = true) :
    ¬ ({ s.setCall c call (prepare S c call.input).1 with log := evs } :
      State I P O F).Unprocessed c := by
  rintro (⟨call', hc', h⟩ | ⟨cmd, hm, -, rfl⟩)
  · have hc' : (s.setCall c call (prepare S c call.input).1).calls[c]? = some call' := hc'
    rw [getElem?_setCall hc, if_pos rfl] at hc'
    obtain rfl := Option.some.inj hc'
    rcases h with h | ⟨cmd, h, hraw⟩
    · rcases prepare_cases S c call.input with ⟨cmd, he⟩ | ⟨e, -, -, he⟩ | he <;> simp [he] at h
    · rw [isRaw_of_prepare h, hon] at hraw
      cases hraw
  · -- no command of a call that is still to send one is in the buffer or the channel
    obtain ⟨call', hc', hf, -⟩ := sent_of_buffered hs hm
    obtain rfl := Option.some.inj (hc.symm.trans hc')
    rw [hst] at hf
    cases hf

lemma ClientMove.preprocesses {b : ClientAction I} (h : ClientMove S s b s')
    (hs : (server S).Reachable s) : ∃ evs, Preprocesses s s' evs := by
  cases h with
  | clone i hh => exact ⟨[], .nothing (List.append_nil _).symm rfl fun c hu => .inl hu⟩
  | shutdown i hh hu => exact ⟨[], .nothing (List.append_nil _).symm rfl fun c hu => .inl hu⟩
  | infer i input hh =>
    refine ⟨[], .nothing (List.append_nil _).symm rfl ?_⟩
    rintro c (⟨call, hc, h⟩ | h)
    · rcases lt_trichotomy c s.calls.length with hlt | heq | hgt
      · have hc : (s.calls ++ [⟨i, input, .starting⟩])[c]? = some call := hc
        rw [List.getElem?_append_left hlt] at hc
        exact .inl (.inl ⟨call, hc, h⟩)
      · exact .inr heq
      · have hlt := (List.getElem?_eq_some_iff.1 hc).1
        rw [List.length_append, List.length_singleton] at hlt
        omega
    · exact .inl (.inr h)
  | prepare d call hc hst =>
    have hleft : s.Unprocessed d := .inl ⟨call, hc, .inl hst⟩
    refine ⟨_, rfl, ?_, ?_, fun c hu =>
      unprocessed_setCall hu hc rfl (fun _ => hleft) fun cmd hm => .inl hm⟩
    · rw [preprocessCalls_prepare]
      split <;> simp
    · rw [preprocessCalls_prepare]
      intro c hmem
      split at hmem
      · obtain rfl := List.mem_singleton.1 hmem
        exact ⟨hleft, not_unprocessed_prepare hs hc hst ‹_›⟩
      · cases hmem
  | send d call cmd hc hst hg =>
    have hcmd := responder_of_prepare (((calls hs).calls d call hc).sending cmd hst)
    refine ⟨_, .nothing rfl rfl ?_⟩
    intro c hu
    refine unprocessed_setCall hu hc rfl (fun h => by cases h) ?_
    intro cmd' hm
    have hm : cmd' ∈ s.batcher.batchBuffer ++ (s.commandQueue ++ [cmd]) := hm
    rw [← List.append_assoc, List.mem_append, List.mem_singleton] at hm
    rcases hm with hm | rfl
    · exact .inl hm
    · refine .inr fun hraw => ?_
      rw [hcmd]
      exact .inl ⟨call, hc, .inr ⟨cmd', hst, hraw⟩⟩
  | refused d call cmd hc hst hg => exact ⟨[], preprocesses_ended hc rfl⟩
  | receive d call fate hc hst hf => exact ⟨[], preprocesses_ended hc rfl⟩
  | cancel d call hc hst => exact ⟨[], preprocesses_ended hc rfl⟩

/-- **What a step preprocesses was not preprocessed before, and is not again.** -/
theorem Step.preprocesses (h : Step S s a s') (hs : (server S).Reachable s) :
    ∃ evs, Preprocesses s s' evs := by
  cases h with
  | client b _ hm => exact hm.preprocesses hs
  | recv cmd rest b' evs hq hm =>
    exact ⟨evs, hm.preprocesses hs rfl rfl (by rw [hm.received_eq]; exact hq) rfl⟩
  | closed b' evs hq hh hm =>
    exact ⟨evs, hm.preprocesses hs rfl rfl (by rw [hm.received_eq]; rfl) rfl⟩
  | dispatch b' evs hm =>
    exact ⟨evs, hm.preprocesses hs rfl rfl (by rw [hm.received_eq]; rfl) rfl⟩
  | reply r b' evs hr hm =>
    exact ⟨evs, hm.preprocesses hs rfl rfl (by rw [hm.received_eq]; rfl) rfl⟩
  | turn t b' evs hm =>
    exact ⟨evs, hm.preprocesses hs rfl rfl (by rw [hm.received_eq]; rfl) rfl⟩
  | worker w b t r ht hm =>
    refine ⟨r.events, .nothing rfl ?_ fun c hu => .inl hu⟩
    cases hm <;> rfl
  | discard cmd rest hq hg =>
    refine ⟨_, .nothing rfl rfl ?_⟩
    rintro c (h | ⟨cmd', hm, h⟩)
    · exact .inl (.inl h)
    · refine .inl (.inr ⟨cmd', ?_, h⟩)
      rw [hq]
      rcases List.mem_append.1 hm with hm | hm
      · exact List.mem_append_left _ hm
      · exact List.mem_append_right _ (List.mem_cons_of_mem _ hm)

/-! ### Whole runs -/

/-- What is still to be preprocessed was not, and nothing was twice. -/
structure Once (s : State I P O F) : Prop where
  nodup : (preprocessCalls s.log).Nodup
  unprocessed : ∀ c, s.Unprocessed c → c ∉ preprocessCalls s.log
  bound : ∀ c ∈ preprocessCalls s.log, c < s.calls.length

lemma Once.start (S : Setup I P O F) : Once (State.start S) := by
  refine ⟨?_, ?_, ?_⟩ <;> simp [State.start]

lemma State.Unprocessed.lt (h : s.Unprocessed c) (hs : (server S).Reachable s) :
    c < s.calls.length := by
  rcases h with ⟨call, hc, -⟩ | ⟨cmd, hm, -, rfl⟩
  · exact (List.getElem?_eq_some_iff.1 hc).1
  · obtain ⟨call, hc, -⟩ := sent_of_buffered hs hm
    exact (List.getElem?_eq_some_iff.1 hc).1

lemma Step.length_calls (h : Step S s a s') : s.calls.length ≤ s'.calls.length := by
  cases h with
  | client b _ hm =>
    cases hm with
    | infer => simp
    | _ => simp [State.setCall]
  | _ => exact le_rfl

lemma Once.step (h : Once s) (hs : (server S).Reachable s) (hst : Step S s a s') : Once s' := by
  obtain ⟨evs, hp⟩ := hst.preprocesses hs
  have hold : ∀ c, s.Unprocessed c → c ∉ preprocessCalls s.log := h.unprocessed
  refine ⟨?_, ?_, ?_⟩
  · rw [hp.log, preprocessCalls_append, List.nodup_append']
    refine ⟨h.nodup, hp.nodup, ?_⟩
    intro c hc hc'
    exact hold c (hp.called c hc').1 hc
  · intro c hu
    rw [hp.log, preprocessCalls_append, List.mem_append, not_or]
    refine ⟨?_, fun hc => (hp.called c hc).2 hu⟩
    rcases hp.left c hu with hu | rfl
    · exact hold c hu
    · intro hc
      exact absurd (h.bound _ hc) (lt_irrefl _)
  · intro c hc
    rw [hp.log, preprocessCalls_append, List.mem_append] at hc
    refine lt_of_lt_of_le ?_ hst.length_calls
    rcases hc with hc | hc
    · exact h.bound c hc
    · exact (hp.called c hc).1.lt hs

lemma once (hs : (server S).Reachable s) : Once s :=
  hs.invariant (Once.start S) fun _ _ _ hr hu hst => hu.step hr (server_step hst)

/-! ### Batches and outputs -/

namespace Batcher

variable {b b' : Batcher I P F} {l : BatcherAction I P F} {evs : List (Event I P O F)}

/-- The rounds that can have had their call of `I::batch` are those below. -/
def opened (b : Batcher I P F) : ℕ :=
  match b.phase with
  | .dispatching _ _ | .awaiting _ _ | .postprocessing _ | .panicked => b.round + 1
  | _ => b.round

lemma Move.opened (h : Move S b l b' evs) :
    b.opened ≤ b'.opened ∧ (batchCalls evs = [] ∨
      ∃ items, batchCalls evs = [(b.round, items)] ∧ b.opened = b.round ∧ b.round < b'.opened) := by
  cases h with
  | batchOk items rs t hp =>
    exact ⟨by simp [Batcher.opened, hp], .inr ⟨items, rfl, by simp [Batcher.opened, hp],
      by simp [Batcher.opened]⟩⟩
  | batchErr items rs e hp =>
    refine ⟨by simp [Batcher.opened, nextRound, hp], .inr ⟨items, ?_, by simp [Batcher.opened, hp],
      by simp [Batcher.opened, nextRound]⟩⟩
    simp
  | batchPanic items rs hp =>
    refine ⟨by simp [Batcher.opened, hp], .inr ⟨items, ?_, by simp [Batcher.opened, hp],
      by simp [Batcher.opened]⟩⟩
    simp
  | more cmd hp => exact ⟨by simp [Batcher.opened, hp], .inl (by simp)⟩
  | spawn hp =>
    exact ⟨by simp [Batcher.opened, spawnPreprocess, hp],
      .inl (filterMap_spawnPreprocess (fun _ => rfl) b)⟩
  | post tasks k rawOutput d hp => exact ⟨by simp [Batcher.opened, hp], .inl (by simp)⟩
  | finish hp => exact ⟨by simp [Batcher.opened, nextRound, hp], .inl (by simp)⟩
  | _ => exact ⟨by simp [Batcher.opened, nextRound, *], .inl (by simp)⟩

/-- An output is postprocessed when its responder is used up. -/
lemma Move.postprocessCalls_sublist (h : Move S b l b' evs) :
    List.Sublist ((postprocessCalls evs).map Prod.fst) ((fates evs).map Prod.fst) := by
  have hsend : ∀ e cs, (sendErr e cs : List (Event I P O F)).filterMap Event.postprocess? = [] :=
    filterMap_sendErr fun _ _ => rfl
  have hdrop : ∀ cs, (dropAll cs : List (Event I P O F)).filterMap Event.postprocess? = [] :=
    filterMap_dropAll fun _ => rfl
  cases h with
  | post tasks k rawOutput d =>
    rw [fates_postprocessed]
    unfold postprocessed
    split <;> simp
  | spawn =>
    have hnil : postprocessCalls (b.spawnPreprocess (O := O)).2 = [] :=
      filterMap_spawnPreprocess (fun _ => rfl) b
    rw [hnil]
    exact List.nil_sublist _
  | _ => simp [hsend, hdrop]

/-- Only a postprocessing answers with `Ok`. -/
lemma Move.postprocessed_of_ok (h : Move S b l b' evs) {o : O}
    (hm : (c, .answered (.ok o)) ∈ fates evs) : c ∈ (postprocessCalls evs).map Prod.fst := by
  cases h with
  | post tasks k rawOutput d =>
    unfold postprocessed at hm ⊢
    split at hm <;> simp at hm ⊢
    exact hm.1
  | spawn => rw [fates_spawnPreprocess] at hm; cases hm
  | _ => simp at hm

end Batcher

/-- Each round has had its batch put together once, and each responder used up its output once. -/
structure Outputs (s : State I P O F) : Prop where
  rounds : ((batchCalls s.log).map Prod.fst).Nodup
  opened : ∀ r ∈ (batchCalls s.log).map Prod.fst, r < s.batcher.opened
  postprocessed : List.Sublist ((postprocessCalls s.log).map Prod.fst) ((fates s.log).map Prod.fst)
  answered : ∀ c o, (c, .answered (.ok o)) ∈ fates s.log → c ∈ (postprocessCalls s.log).map Prod.fst

lemma Outputs.start (S : Setup I P O F) : Outputs (State.start S) := by
  refine ⟨?_, ?_, ?_, ?_⟩ <;> simp [State.start]

/-- A step of which the user's code sees nothing. -/
lemma Outputs.keep {evs : List (Event I P O F)} (h : Outputs s) (hlog : s'.log = s.log ++ evs)
    (hb : s'.batcher = s.batcher) (hbatch : batchCalls evs = []) (hpost : postprocessCalls evs = [])
    (hok : ∀ c o, (c, .answered (.ok o)) ∉ fates evs) : Outputs s' := by
  have hb' : batchCalls s'.log = batchCalls s.log := by
    rw [hlog, batchCalls_append, hbatch, List.append_nil]
  have hp' : postprocessCalls s'.log = postprocessCalls s.log := by
    rw [hlog, postprocessCalls_append, hpost, List.append_nil]
  refine ⟨hb' ▸ h.rounds, ?_, ?_, ?_⟩
  · rw [hb', hb]
    exact h.opened
  · rw [hp', hlog, fates_append, List.map_append]
    exact h.postprocessed.trans (List.sublist_append_left _ _)
  · intro c o hm
    rw [hlog, fates_append, List.mem_append] at hm
    rw [hp']
    exact h.answered c o (hm.resolve_right (hok c o))

lemma Outputs.step (h : Outputs s) (hst : Step S s a s') : Outputs s' := by
  cases hst.effect with
  | batcher l evs move log =>
    obtain ⟨hle, hcase⟩ := move.opened
    refine ⟨?_, ?_, ?_, ?_⟩
    · rw [log, batchCalls_append, List.map_append]
      rcases hcase with hnil | ⟨items, he, hround, -⟩
      · simpa [hnil] using h.rounds
      · rw [he, List.nodup_append']
        refine ⟨h.rounds, List.nodup_singleton _, ?_⟩
        intro r hr hr'
        obtain rfl := List.mem_singleton.1 hr'
        have := h.opened _ hr
        omega
    · intro r hr
      rw [log, batchCalls_append, List.map_append, List.mem_append] at hr
      rcases hr with hr | hr
      · exact lt_of_lt_of_le (h.opened r hr) hle
      · rcases hcase with hnil | ⟨items, he, -, hlt⟩
        · rw [hnil] at hr
          cases hr
        · rw [he] at hr
          obtain rfl := List.mem_singleton.1 hr
          exact hlt
    · rw [log, postprocessCalls_append, fates_append, List.map_append, List.map_append]
      exact h.postprocessed.append move.postprocessCalls_sublist
    · intro c o hm
      rw [log, fates_append, List.mem_append] at hm
      rw [log, postprocessCalls_append, List.map_append, List.mem_append]
      rcases hm with hm | hm
      · exact .inl (h.answered c o hm)
      · exact .inr (move.postprocessed_of_ok hm)
  | accepted cmd batcher _ log => exact h.keep log batcher rfl rfl (by simp)
  | dropped cmd batcher _ log => exact h.keep log batcher rfl rfl (by simp)
  | quiet evs batcher quiet log =>
    refine h.keep log batcher quiet.batchCalls_eq quiet.postprocessCalls_eq ?_
    intro c o
    rw [quiet.fates_eq]
    simp

lemma outputs (hs : (server S).Reachable s) : Outputs s :=
  hs.invariant (Outputs.start S) fun _ _ _ _ hu hst => hu.step (server_step hst)

/-! ### An answer takes them all -/

namespace Batcher

variable {b b' : Batcher I P F} {l : BatcherAction I P F} {evs : List (Event I P O F)}

/-- The tasks of the batch in hand have been spawned. -/
def spawned (b : Batcher I P F) : Bool :=
  match b.phase with
  | .preprocessing _ | .batching _ _ | .dispatching _ _ | .awaiting _ _ | .postprocessing _ => true
  | _ => false

lemma spawned_of_pastBatch (h : b.pastBatch = true) : b.spawned = true := by
  unfold Batcher.pastBatch at h
  split at h <;> simp_all [Batcher.spawned]

lemma Move.spawned_cases (h : Move S b l b' evs) (hb : b'.spawned = true) :
    collected evs = [] ∧
      (b.spawned = true ∨ b.phase = .collected ∧ preprocessCalls evs = rawCalls b.batchBuffer) := by
  cases h with
  | spawn hp =>
    exact ⟨collected_spawnPreprocess b, .inr ⟨hp, preprocessCalls_spawnPreprocess b⟩⟩
  | more cmd hp => simp [Batcher.spawned, hp] at hb
  | post tasks k rawOutput d hp => exact ⟨by simp, .inl (by simp [Batcher.spawned, hp])⟩
  | _ => simp_all [Batcher.spawned, nextRound]

end Batcher

/-- The items on their way to a batch were preprocessed in `infer`. -/
structure Prepared (s : State I P O F) : Prop where
  sending : ∀ c call (cmd : Command I P), s.calls[c]? = some call → call.state = .sending cmd →
    cmd.isRaw = false → c ∈ preprocessCalls s.log
  accepted : ∀ cmd ∈ accepted s.log, cmd.isRaw = false → cmd.responder ∈ preprocessCalls s.log

lemma Prepared.start (S : Setup I P O F) : Prepared (State.start S) := by
  refine ⟨?_, ?_⟩ <;> simp [State.start]

lemma mem_preprocessCalls (h : Step S s a s') (hc : c ∈ preprocessCalls s.log) :
    c ∈ preprocessCalls s'.log := (h.log_grows.filterMap Event.preprocess?).subset hc

/-- A step in which no call sends an item. -/
lemma Prepared.keep (h : Prepared s) (hmono : ∀ c ∈ preprocessCalls s.log, c ∈ preprocessCalls s'.log)
    (hcalls : ∀ (c : ℕ) (call : Call I P O) (cmd : Command I P), s'.calls[c]? = some call →
      call.state = .sending cmd → cmd.isRaw = false →
        s.calls[c]? = some call ∨ c ∈ preprocessCalls s'.log)
    (hacc : OrtSuperserve.accepted s'.log = OrtSuperserve.accepted s.log) : Prepared s' := by
  refine ⟨?_, ?_⟩
  · intro c call cmd hc hsend hraw
    rcases hcalls c call cmd hc hsend hraw with hc | hc
    · exact hmono c (h.sending c call cmd hc hsend hraw)
    · exact hc
  · rw [hacc]
    intro cmd hm hraw
    exact hmono _ (h.accepted cmd hm hraw)

/-- The calls that hold an item are as they were, but for one that goes on. -/
lemma sending_setCall {d : ℕ} {call : Call I P O} {st : CallState I P O}
    (hd : s.calls[d]? = some call) (hcalls : s'.calls = (s.setCall d call st).calls)
    (hst : ∀ cmd : Command I P, st = .sending cmd → cmd.isRaw = false →
      d ∈ preprocessCalls s'.log)
    (c : ℕ) (call' : Call I P O) (cmd : Command I P) (hc : s'.calls[c]? = some call')
    (hsend : call'.state = .sending cmd) (hraw : cmd.isRaw = false) :
    s.calls[c]? = some call' ∨ c ∈ preprocessCalls s'.log := by
  rw [hcalls, getElem?_setCall hd] at hc
  split at hc
  · rename_i hcd
    obtain rfl := Option.some.inj hc
    rw [hcd]
    exact .inr (hst cmd hsend hraw)
  · exact .inl hc

lemma Prepared.step (h : Prepared s) (hs : (server S).Reachable s) (hst : Step S s a s') :
    Prepared s' := by
  have hsame : s'.calls = s.calls →
      ∀ (c : ℕ) (call : Call I P O) (cmd : Command I P), s'.calls[c]? = some call →
        call.state = .sending cmd → cmd.isRaw = false →
        s.calls[c]? = some call ∨ c ∈ preprocessCalls s'.log := by
    intro hcalls c call cmd hc _ _
    rw [hcalls] at hc
    exact .inl hc
  have hmono : ∀ c ∈ preprocessCalls s.log, c ∈ preprocessCalls s'.log :=
    fun c => mem_preprocessCalls hst
  cases hst with
  | client b _ hm =>
    cases hm with
    | clone => exact h.keep hmono (hsame rfl) rfl
    | shutdown => exact h.keep hmono (hsame rfl) rfl
    | infer i input hh =>
      refine h.keep hmono ?_ rfl
      intro c call cmd hc hsend _
      have hc : (s.calls ++ [⟨i, input, .starting⟩])[c]? = some call := hc
      rw [List.getElem?_append] at hc
      split at hc
      · exact .inl hc
      · obtain rfl := List.mem_singleton.1 (List.mem_of_getElem? hc)
        cases hsend
    | prepare d call hc hsc =>
      have hacc := (quiet_prepare S d call.input).accepted_eq
      refine h.keep hmono (sending_setCall hc rfl ?_) (by rw [accepted_append, hacc, List.append_nil])
      intro cmd hsend hraw
      rw [isRaw_of_prepare hsend, Bool.not_eq_false'] at hraw
      rw [preprocessCalls_append, preprocessCalls_prepare, if_pos hraw]
      simp
    | refused d call cmd hc => exact h.keep hmono (sending_setCall hc rfl fun _ h => by cases h) rfl
    | receive d call fate hc => exact h.keep hmono (sending_setCall hc rfl fun _ h => by cases h) rfl
    | cancel d call hc => exact h.keep hmono (sending_setCall hc rfl fun _ h => by cases h) rfl
    | send d call cmd hc hsc hg =>
      have hresp := responder_of_prepare (((calls hs).calls d call hc).sending cmd hsc)
      refine ⟨?_, ?_⟩
      · intro c call' cmd' hc' hsend hraw
        rcases sending_setCall hc (by rfl) (fun _ h => by cases h) c call' cmd' hc' hsend hraw
          with hc' | hc'
        · exact hmono c (h.sending c call' cmd' hc' hsend hraw)
        · exact hc'
      · intro cmd' hm hraw
        rw [accepted_append, List.mem_append] at hm
        rcases hm with hm | hm
        · exact hmono _ (h.accepted cmd' hm hraw)
        · obtain rfl : cmd' = cmd := by simpa using hm
          rw [hresp]
          exact hmono d (h.sending d call cmd' hc hsc hraw)
  | recv cmd rest b' evs hq hm => exact h.keep hmono (hsame rfl) (hm.accepted_log _)
  | closed b' evs hq hh hm => exact h.keep hmono (hsame rfl) (hm.accepted_log _)
  | dispatch b' evs hm => exact h.keep hmono (hsame rfl) (hm.accepted_log _)
  | reply r b' evs hr hm => exact h.keep hmono (hsame rfl) (hm.accepted_log _)
  | turn t b' evs hm => exact h.keep hmono (hsame rfl) (hm.accepted_log _)
  | worker w b t r ht hm =>
    have hacc := hm.quiet.accepted_eq
    exact h.keep hmono (hsame rfl) (by rw [accepted_append, hacc, List.append_nil])
  | discard cmd rest hq hg => exact h.keep hmono (hsame rfl) (by simp)

lemma prepared (hs : (server S).Reachable s) : Prepared s :=
  hs.invariant (Prepared.start S) fun _ _ _ hr hu hst => hu.step hr (server_step hst)

/-- The inputs of the batch in hand were preprocessed, and those of the answers. -/
structure Begun (s : State I P O F) : Prop where
  spawned : s.batcher.spawned = true →
    ∀ cmd ∈ currentBatch [] s.log, cmd.responder ∈ preprocessCalls s.log
  answered : ∀ c o, (c, .answered (.ok o)) ∈ fates s.log → c ∈ preprocessCalls s.log

lemma Begun.start (S : Setup I P O F) : Begun (State.start S) := by
  refine ⟨?_, ?_⟩ <;> simp [State.start, Batcher.init, Batcher.spawned]

/-- A step that leaves the batcher alone. -/
lemma Begun.keep {evs : List (Event I P O F)} (h : Begun s) (hlog : s'.log = s.log ++ evs)
    (hb : s'.batcher = s.batcher) (hcol : collected evs = [])
    (hok : ∀ c o, (c, .answered (.ok o)) ∉ fates evs) : Begun s' := by
  have hmono : ∀ c ∈ preprocessCalls s.log, c ∈ preprocessCalls s'.log := by
    intro c hc
    rw [hlog, preprocessCalls_append]
    exact List.mem_append_left _ hc
  have hbatch : currentBatch [] s'.log = currentBatch [] s.log := by
    rw [hlog, ← currentBatch_append, currentBatch, hcol]
    rfl
  refine ⟨?_, ?_⟩
  · rw [hb, hbatch]
    exact fun hsp cmd hm => hmono _ (h.spawned hsp cmd hm)
  · intro c o hm
    rw [hlog, fates_append, List.mem_append] at hm
    exact hmono c (h.answered c o (hm.resolve_right (hok c o)))

lemma Begun.step (h : Begun s) (hs : (server S).Reachable s) (hst : Step S s a s') : Begun s' := by
  have hmono : ∀ c ∈ preprocessCalls s.log, c ∈ preprocessCalls s'.log :=
    fun c => mem_preprocessCalls hst
  cases hst.effect with
  | batcher l evs move log =>
    have hfits := (stream hs).fits
    refine ⟨?_, ?_⟩
    · intro hsp cmd hm
      obtain ⟨hcol, hcase⟩ := move.spawned_cases hsp
      rw [log, ← currentBatch_append, currentBatch, hcol] at hm
      rcases hcase with hsp' | ⟨hp, hraw⟩
      · exact hmono _ (h.spawned hsp' cmd hm)
      · simp only [Batcher.Fits, hp] at hfits
        have hm : cmd ∈ s.batcher.batchBuffer := by
          rw [hfits.1]
          exact hm
        cases hr : cmd.isRaw with
        | true =>
          rw [log, preprocessCalls_append, hraw, rawCalls_buffer hs]
          exact List.mem_append_right _ (List.mem_map_of_mem (List.mem_filter.2 ⟨hm, hr⟩))
        | false =>
          have hacc := (buffered_sublist hs).subset (List.mem_append_left _ hm)
          exact hmono _ ((prepared hs).accepted cmd hacc hr)
    · intro c o hm
      rw [log, fates_append, List.mem_append] at hm
      rcases hm with hm | hm
      · exact hmono c (h.answered c o hm)
      · cases move.fated hfits hm with
        | ok row o hb hr hpost =>
          obtain ⟨t, outputs, k, p, -, -, -, hsurv, -⟩ := hr
          obtain ⟨cmd, hcmd, rfl, -⟩ := mem_survivors.1 (List.mem_of_getElem? hsurv)
          exact hmono _ (h.spawned (Batcher.spawned_of_pastBatch hb) cmd hcmd)
  | accepted cmd batcher _ log => exact h.keep log batcher rfl (by simp)
  | dropped cmd batcher _ log => exact h.keep log batcher rfl (by simp)
  | quiet evs batcher quiet log =>
    refine h.keep log batcher quiet.collected_eq ?_
    intro c o
    rw [quiet.fates_eq]
    simp

lemma begun (hs : (server S).Reachable s) : Begun s :=
  hs.invariant (Begun.start S) fun _ _ _ hr hu hst => hu.step hr (server_step hst)

/-- A request is in one batch. -/
lemma round_unique (hs : (server S).Reachable s) {r r' : ℕ} {batch batch' : List (Command I P)}
    (h : (collected s.log)[r]? = some batch) (h' : (collected s.log)[r']? = some batch')
    (hc : c ∈ batch.map Command.responder) (hc' : c ∈ batch'.map Command.responder) : r = r' := by
  have hnodup : ((collected s.log).map fun b => b.map Command.responder).flatten.Nodup := by
    rw [← List.map_flatten]
    refine (calls hs).nodup.sublist (List.Sublist.map _ ?_)
    obtain ⟨lost, hacc, -⟩ := (stream hs).order
    rw [hacc, (stream hs).taken]
    exact (List.sublist_append_left _ _).trans (List.sublist_append_left _ _)
  refine index_unique_of_nodup_flatten hnodup ?_ ?_ hc hc'
  · rw [List.getElem?_map, h]
    rfl
  · rw [List.getElem?_map, h']
    rfl

/-- **The user's code runs at most once for each request, and once for each that succeeds.**  In every
run no call is preprocessed twice, no round is batched twice and no call is postprocessed twice; and a
call that is answered with `Ok` was preprocessed, was among the items of the batch of one round, and was
postprocessed. -/
theorem user_code_once (hs : (server S).Reachable s) :
    (preprocessCalls s.log).Nodup ∧ ((batchCalls s.log).map Prod.fst).Nodup ∧
      ((postprocessCalls s.log).map Prod.fst).Nodup ∧
      ∀ c o, (c, .answered (.ok o)) ∈ fates s.log →
        c ∈ preprocessCalls s.log ∧ c ∈ (postprocessCalls s.log).map Prod.fst ∧
          ∃! r, ∃ batch, Called S s.log r batch ∧ c ∈ (survivors S.user batch).map Prod.fst := by
  have hout := outputs hs
  refine ⟨(once hs).nodup, hout.rounds, (fates_nodup hs).sublist hout.postprocessed, ?_⟩
  intro c o hm
  refine ⟨(begun hs).answered c o hm, hout.answered c o hm, ?_⟩
  have hsub : ∀ batch : List (Command I P), c ∈ (survivors S.user batch).map Prod.fst →
      c ∈ batch.map Command.responder := by
    intro batch hc
    obtain ⟨⟨d, p⟩, hd, rfl⟩ := List.mem_map.1 hc
    obtain ⟨cmd, hcmd, rfl, -⟩ := mem_survivors.1 hd
    exact List.mem_map_of_mem hcmd
  obtain ⟨r, batch, row, hcalled, ⟨t, outs, k, p, -, -, -, hsurv, -⟩, -⟩ := (history hs).fate c _ hm
  have hin := List.mem_map_of_mem (f := Prod.fst) (List.mem_of_getElem? hsurv)
  refine ⟨r, ⟨batch, hcalled, hin⟩, ?_⟩
  rintro r' ⟨batch', hcalled', hin'⟩
  exact round_unique hs hcalled'.index hcalled.index (hsub batch' hin') (hsub batch hin)

/-- In the sample both inputs are preprocessed, and the one that succeeds is batched and
postprocessed. -/
theorem user_code_once_sample : ∃ s : State ℕ ℕ ℕ ℕ,
    (server sample).run (.start sample) sampleRun = some s ∧
    preprocessCalls s.log = [0, 1] ∧ (preprocessCalls s.log).Nodup ∧
    (batchCalls s.log).map Prod.fst = [0] ∧ (postprocessCalls s.log).map Prod.fst = [0] ∧
    ∃! r, ∃ batch, Called sample s.log r batch ∧
      0 ∈ (survivors sample.user batch).map Prod.fst := by
  obtain ⟨s, hrun, hpre, hbatch, hpost, hfate⟩ : ∃ s : State ℕ ℕ ℕ ℕ,
      (server sample).run (.start sample) sampleRun = some s ∧ preprocessCalls s.log = [0, 1] ∧
        (batchCalls s.log).map Prod.fst = [0] ∧ (postprocessCalls s.log).map Prod.fst = [0] ∧
        (fates s.log).lookup 0 = some (.answered (.ok 7)) := ⟨_, rfl, rfl, rfl, rfl, rfl⟩
  obtain ⟨hnodup, -, -, hok⟩ := user_code_once ⟨sampleRun, hrun⟩
  obtain ⟨l₁, l₂, hl, -⟩ := List.lookup_eq_some_iff.1 hfate
  exact ⟨s, hrun, hpre, hnodup, hbatch, hpost, (hok 0 7 (by rw [hl]; simp)).2.2⟩

end OrtSuperserve

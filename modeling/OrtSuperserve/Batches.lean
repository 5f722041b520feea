import OrtSuperserve.Responses

/-!
# The batches

* `batches_partition_stream`: the collected batches are the accepted commands in order, of the
  configured size at most, and no command waits longer than the commands ahead of it;
* `batch_bounds`: what `I::batch` is called on are the survivors of one such batch, which passed the
  minimum check before the failures were taken out of it.
-/

namespace OrtSuperserve

open Lib

variable {I P O F : Type} {S : Setup I P O F} {s s' : State I P O F} {a : Action I}

/-! ### Boundaries and waiting -/

/-- The rounds that have started: those that collected, and the one that collects. -/
def State.started (s : State I P O F) : ℕ :=
  (collected s.log).length + if s.batcher.pending = [] then 0 else 1

/-- A step collects at most one batch, and then nothing is left to the collection loop. -/
lemma Step.collected_cases (hs : Step S s a s') :
    collected s'.log = collected s.log ∨
      s'.batcher.pending = [] ∧ ∃ batch, collected s'.log = collected s.log ++ [batch] := by
  cases hs.effect with
  | batcher l evs move log =>
    rw [log, collected_append]
    rcases move.collected_cases with h | h
    · exact .inl (by rw [h, List.append_nil])
    · obtain ⟨hp, batch, hb⟩ := h
      exact .inr ⟨hp, batch, by rw [hb]⟩
  | accepted cmd _ _ log => exact .inl (by rw [log]; simp)
  | dropped cmd _ _ log => exact .inl (by rw [log]; simp)
  | quiet evs _ quiet log =>
    have hcol : collected evs = [] := quiet.collected_eq
    exact .inl (by rw [log, collected_append, hcol, List.append_nil])

/-- From a state on, every round that starts takes at least one command more. -/
lemma take_length (hs : (server S).Reachable s) (h : (server S).Reaches s s') :
    ∀ m, s.started ≤ m → m ≤ (collected s'.log).length →
      (received s.log).length + (m - s.started) ≤ ((collected s'.log).take m).flatten.length := by
  refine h.induct (P := fun u => ∀ m, s.started ≤ m → m ≤ (collected u.log).length →
    (received s.log).length + (m - s.started) ≤ ((collected u.log).take m).flatten.length) ?_ ?_
  · intro m hm hm'
    have hpend : s.batcher.pending = [] := by
      by_contra hne
      simp only [State.started, if_neg hne] at hm
      omega
    have hst : s.started = (collected s.log).length := by simp [State.started, hpend]
    have htaken := (stream hs).taken
    rw [hpend, List.append_nil] at htaken
    rw [htaken, List.take_of_length_le (by omega)]
    omega
  · intro u a v hu ih hst m hm hm'
    have hru := hs.trans hu
    rcases (server_step hst).collected_cases with hcol | ⟨hpend, batch, hcol⟩
    · rw [hcol] at hm' ⊢
      exact ih m hm hm'
    have hlen : (collected v.log).length = (collected u.log).length + 1 := by
      rw [hcol, List.length_append, List.length_singleton]
    rcases Nat.lt_or_ge (collected u.log).length m with hlt | hle
    · -- the batch just collected is the last one counted
      have hsv := stream (hru.tail hst)
      rw [List.take_of_length_le (by omega)]
      rcases Nat.lt_or_ge s.started m with hsm | hsm
      · have := ih (collected u.log).length (by omega) le_rfl
        have hpos := (hsv.sizes batch (by rw [hcol]; simp)).1
        rw [List.take_length] at this
        rw [hcol, List.flatten_append, List.length_append, List.flatten_singleton]
        omega
      · have htaken := hsv.taken
        rw [hpend, List.append_nil] at htaken
        have hpre : (received s.log).length ≤ (received v.log).length :=
          ((log_grows (hu.tail hst)).filterMap Event.received?).length_le
        rw [← htaken]
        omega
    · rw [hcol, List.take_append_of_le_length hle]
      exact ih m hm hle

/-- A command that is sent is last in the channel. -/
lemma send_accepted {c : ℕ} {cmd : Command I P} (h : (server S).step s (.client (.send c)) = some s')
    (hacc : accepted s'.log = accepted s.log ++ [cmd]) :
    s'.batcher = s.batcher ∧ s'.commandQueue = s.commandQueue ++ [cmd] ∧
      s'.log = s.log ++ [.accepted cmd] ∧ s.batcher.gone = false := by
  cases server_step h with
  | client _ _ hm =>
    cases hm with
    | send c call cmd' hc hs hg =>
      obtain rfl : cmd' = cmd := by simpa using hacc
      exact ⟨rfl, rfl, rfl, hg⟩
    | refused => simp [State.setCall] at hacc

/-- **The collected batches partition the stream in order**: one after the other they are a prefix of
the commands in the order they were accepted, each has between one command and the maximum, the buffer
is empty whenever a round starts and not empty when it ends collecting, and a command accepted behind
`p` others is in a batch by the `(p + 1)`-th round that starts afterwards. -/
theorem batches_partition_stream (hs : (server S).Reachable s) :
    (collected s.log).flatten <+: accepted s.log ∧
    (∀ batch ∈ collected s.log, 1 ≤ batch.length ∧ batch.length ≤ max 1 S.config.maxBatchSize) ∧
    (s.batcher.phase = .head → s.batcher.batchBuffer = []) ∧
    (s.batcher.phase = .collected → s.batcher.batchBuffer ≠ []) ∧
    ∀ c cmd t u, (server S).step s (.client (.send c)) = some t →
      accepted t.log = accepted s.log ++ [cmd] → (server S).Reaches t u →
      s.started + s.commandQueue.length + 1 ≤ (collected u.log).length →
      ∃ r batch, r < s.started + s.commandQueue.length + 1 ∧ (collected u.log)[r]? = some batch ∧
        cmd ∈ batch := by
  have hst := stream hs
  refine ⟨collected_prefix_accepted hst, hst.sizes, ?_, ?_, ?_⟩
  · intro hp
    simpa only [Batcher.Fits, hp] using hst.fits
  · intro hp hnil
    have hf := hst.fits
    simp only [Batcher.Fits, hp] at hf
    obtain ⟨hb, hpos, -⟩ := hf
    rw [← hb, hnil] at hpos
    simp at hpos
  · intro c cmd t u hsend hacc hreach hround
    obtain ⟨hb, hq, hlog, hgone⟩ := send_accepted hsend hacc
    have hrt := hs.tail hsend
    have hstart : t.started = s.started := by simp [State.started, hb, hlog]
    have hlen := take_length hrt hreach (s.started + s.commandQueue.length + 1) (by omega) hround
    -- everything accepted up to `cmd` fits into that many batches
    have horder := (stream hrt).accepted_eq (by rw [hb]; exact Batcher.ne_panicked hgone)
    rw [hq] at horder
    have hacclen := congrArg List.length horder
    simp only [List.length_append, List.length_singleton] at hacclen
    have hpre : accepted t.log <+:
        ((collected u.log).take (s.started + s.commandQueue.length + 1)).flatten := by
      have hgrow : accepted t.log <+: accepted u.log :=
        (log_grows hreach).filterMap Event.accepted?
      refine List.prefix_of_prefix_length_le hgrow ?_ (by omega)
      refine List.IsPrefix.trans ?_ (collected_prefix_accepted (stream (hrt.trans hreach)))
      conv_rhs =>
        rw [← List.take_append_drop (s.started + s.commandQueue.length + 1) (collected u.log)]
      rw [List.flatten_append]
      exact List.prefix_append _ _
    have hmem : cmd ∈ accepted t.log := by
      rw [hacc]
      simp
    obtain ⟨batch, hbatch, hmem⟩ := List.mem_flatten.1 (hpre.subset hmem)
    obtain ⟨r, hr, he⟩ := List.mem_take_iff_getElem.1 hbatch
    exact ⟨r, batch, by omega, by rw [← he]; exact List.getElem?_eq_getElem _, hmem⟩

theorem batches_partition_stream_sample :
    ∃ s : State ℕ ℕ ℕ ℕ, (server sample).run (.start sample) sampleRun = some s ∧
      (collected s.log).length = 1 ∧ (collected s.log).flatten <+: accepted s.log := by
  obtain ⟨s, hrun, hlen⟩ : ∃ s : State ℕ ℕ ℕ ℕ,
      (server sample).run (.start sample) sampleRun = some s ∧ (collected s.log).length = 1 :=
    ⟨_, rfl, rfl⟩
  exact ⟨s, hrun, hlen, (batches_partition_stream ⟨sampleRun, hrun⟩).1⟩

/-! ### Bounds -/

/-- **The bounds of what is batched.**  Each vector passed to `I::batch` holds the survivors of one
collected batch of at least the minimum and at most the maximum of commands; so it has between one
item and the maximum, and at least the minimum if no preprocessing in it failed.  Each tensor
dispatched is the batch of such a vector. -/
theorem batch_bounds (hs : (server S).Reachable s) (hmin : 1 ≤ S.config.minBatchSize)
    (hle : S.config.minBatchSize ≤ S.config.maxBatchSize) :
    (∀ r items, (r, items) ∈ batchCalls s.log → ∃ batch, (collected s.log)[r]? = some batch ∧
      items = (survivors S.user batch).map Prod.snd ∧ S.config.minBatchSize ≤ batch.length ∧
      batch.length ≤ S.config.maxBatchSize ∧
      items.length + (failures S.user batch).length = batch.length ∧ 1 ≤ items.length ∧
      items.length ≤ S.config.maxBatchSize ∧
      (failures S.user batch = [] → S.config.minBatchSize ≤ items.length)) ∧
    ∀ w t, (w, t) ∈ dispatches s.log →
      ∃ r items, (r, items) ∈ batchCalls s.log ∧ S.user.batch r items = .ok t := by
  have hh := history hs
  refine ⟨?_, ?_⟩
  · intro r items hm
    obtain ⟨batch, hcalled, rfl⟩ := hh.batch r items hm
    have hadd := survivors_length_add S.user batch
    have hpos := List.length_pos_iff.2 hcalled.nonempty
    have hmax : S.config.roundSize = S.config.maxBatchSize := max_eq_right (hmin.trans hle)
    have hform := hcalled.formed
    have hup := hform.max
    have hlow := hform.min
    rw [hmax] at hup
    refine ⟨batch, hcalled.index, rfl, hlow, hup, ?_, ?_, ?_, fun hnil => ?_⟩ <;>
      rw [List.length_map]
    · exact hadd
    · exact hpos
    · omega
    · rw [hnil, List.length_nil] at hadd
      omega
  · intro w t hm
    obtain ⟨r, batch, hcalled, ht⟩ := hh.dispatch w t hm
    exact ⟨r, _, hcalled.call, ht.batch⟩

/-- The sample with batches of exactly two. -/
def sampleFixed : Setup ℕ ℕ ℕ ℕ := { sample with config := { maxBatchSize := 2, minBatchSize := 2 } }

theorem batch_bounds_sample :
    ∃ s : State ℕ ℕ ℕ ℕ, (server sampleFixed).run (.start sampleFixed) sampleRun = some s ∧
      ∀ w t, (w, t) ∈ dispatches s.log →
        ∃ r items, (r, items) ∈ batchCalls s.log ∧ sampleFixed.user.batch r items = .ok t := by
  obtain ⟨s, hrun⟩ : ∃ s : State ℕ ℕ ℕ ℕ,
      (server sampleFixed).run (.start sampleFixed) sampleRun = some s := ⟨_, rfl⟩
  exact ⟨s, hrun, (batch_bounds ⟨sampleRun, hrun⟩ (by decide) (by decide)).2⟩

/-- Nothing keeps the vectors passed to `I::batch` above the minimum: of a batch of two, one can
fail. -/
theorem not_min_le_batched : ¬ ∀ (S : Setup ℕ ℕ ℕ ℕ) (s : State ℕ ℕ ℕ ℕ), (server S).Reachable s →
    1 ≤ S.config.minBatchSize → S.config.minBatchSize ≤ S.config.maxBatchSize →
    ∀ r items, (r, items) ∈ batchCalls s.log →
      S.config.minBatchSize ≤ items.length ∧ items.length ≤ S.config.maxBatchSize := by
  intro h
  obtain ⟨s, hrun, hcalls⟩ : ∃ s : State ℕ ℕ ℕ ℕ,
      (server sampleFixed).run (.start sampleFixed) sampleRun = some s ∧
        batchCalls s.log = [(0, [7])] := ⟨_, rfl, rfl⟩
  have := h sampleFixed s ⟨sampleRun, hrun⟩ (by decide) (by decide) 0 [7] (by rw [hcalls]; simp)
  exact absurd this.1 (by decide)

end OrtSuperserve

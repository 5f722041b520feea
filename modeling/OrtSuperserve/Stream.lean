import OrtSuperserve.InFlight

/-!
# From the command channel to the batches

The batches collected so far, one after the other, with what the collection loop holds and what is
left in the channel, are the commands accepted, in order (`Stream`).  The batcher's phase fits the
batch collected last.
-/

namespace OrtSuperserve

open Lib

variable {I P O F : Type}

namespace Batcher

/-- The commands the collection loop holds. -/
def pending (b : Batcher I P F) : List (Command I P) :=
  match b.phase with
  | .collecting => b.batchBuffer
  | _ => []

variable {S : Setup I P O F} {V : WorkerMessage F → Reply F → Prop} {batch : List (Command I P)}
  {b b' : Batcher I P F} {a : BatcherAction I P F} {evs : List (Event I P O F)}

/-- A batcher that is gone does nothing. -/
lemma Move.alive (h : Move S b a b' evs) : b.gone = false := by
  cases h <;> simp [gone, *]

lemma ne_panicked (h : b.gone = false) : b.phase ≠ .panicked := fun hp => by
  rw [gone, hp] at h
  cases h

/-- The batcher stops when the command channel is closed. -/
lemma Move.closed_of_stopped (h : Move S b a b' evs) (hp : b'.phase = .stopped) : a = .closed := by
  cases h with
  | stop => rfl
  | more cmd hp' => simp [hp'] at hp
  | spawn => simp [spawnPreprocess] at hp
  | _ => simp [nextRound] at hp

/-- What the loop holds and receives is what it collects and still holds. -/
lemma Move.stream (h : Move S b a b' evs) (hf : b.Fits S V batch) :
    b.pending ++ received evs = (collected evs).flatten ++ b'.pending := by
  cases h with
  | first cmd hp =>
    have hb : b.batchBuffer = [] := by simpa only [Fits, hp] using hf
    simp [pending, hp, hb]
  | more cmd hp => simp [pending, hp]
  | leave a hp => simp [pending, hp]
  | spawn hp =>
    rw [received_spawnPreprocess, collected_spawnPreprocess]
    simp [pending, spawnPreprocess, hp]
  | post tasks k rawOutput c hp =>
    simp [pending, hp]
  | finish hp => simp [pending, nextRound, hp]
  | _ => simp [pending, nextRound, *]

/-- The rounds are numbered by the batches collected. -/
lemma Move.index (h : Move S b a b' evs) (hp' : b'.phase ≠ .panicked) :
    b'.round + b'.inRound.toNat = b.round + b.inRound.toNat + (collected evs).length := by
  cases h with
  | overflow => exact absurd rfl hp'
  | batchPanic => exact absurd rfl hp'
  | divZero => exact absurd rfl hp'
  | more cmd hp => simp [inRound, hp]
  | spawn hp =>
    rw [collected_spawnPreprocess]
    simp [inRound, spawnPreprocess, hp]
  | post tasks k rawOutput c hp =>
    simp [inRound, hp]
  | finish hp => simp [inRound, nextRound, hp]
  | _ => simp [inRound, nextRound, *]

/-- Commands are accepted by the channel, not by the batcher. -/
lemma Move.accepted_eq (h : Move S b a b' evs) : accepted evs = [] := by
  cases h with
  | spawn => exact filterMap_spawnPreprocess (fun _ => rfl) b
  | _ => simp

lemma Move.accepted_log (h : Move S b a b' evs) (log : List (Event I P O F)) :
    accepted (log ++ evs) = accepted log := by
  rw [accepted_append, h.accepted_eq, List.append_nil]

/-- At most one batch is collected, and then the collection loop holds nothing. -/
lemma Move.collected_cases (h : Move S b a b' evs) :
    collected evs = [] ∨ b'.pending = [] ∧ ∃ batch, collected evs = [batch] := by
  cases h with
  | leave a hp => exact .inr ⟨rfl, _, rfl⟩
  | spawn => exact .inl (collected_spawnPreprocess b)
  | _ => exact .inl (by simp)

/-- A batch that is collected has between one command and the maximum. -/
lemma Move.sizes (h : Move S b a b' evs) (hf : b.Fits S V batch) :
    ∀ batch ∈ collected evs, 1 ≤ batch.length ∧ batch.length ≤ S.config.roundSize := by
  cases h with
  | leave a hp =>
    intro batch hb
    obtain rfl : batch = b.batchBuffer := by simpa using hb
    simpa only [Fits, hp] using hf
  | spawn => simp [collected_spawnPreprocess]
  | _ => simp

end Batcher

/-- The stream of commands, in a state of the server. -/
structure Stream (S : Setup I P O F) (s : State I P O F) : Prop where
  fits : s.batcher.Fits S (Reply.For S) (currentBatch [] s.log)
  index : s.batcher.phase ≠ .panicked →
    (collected s.log).length = s.batcher.round + s.batcher.inRound.toNat
  taken : received s.log = (collected s.log).flatten ++ s.batcher.pending
  order : ∃ lost, accepted s.log = received s.log ++ (lost ++ s.commandQueue) ∧
    (s.batcher.phase ≠ .panicked → lost = [])
  sizes : ∀ batch ∈ collected s.log, 1 ≤ batch.length ∧ batch.length ≤ S.config.roundSize
  stopped : s.batcher.phase = .stopped → s.commandQueue = []

variable {S : Setup I P O F} {s s' : State I P O F} {a : Action I}

lemma currentBatch_append (log evs : List (Event I P O F)) :
    currentBatch (currentBatch [] log) evs = currentBatch [] (log ++ evs) := by
  simp [currentBatch]

lemma Stream.start (S : Setup I P O F) : Stream S (State.start S) := by
  refine ⟨?_, ?_, ?_, ⟨[], ?_⟩, ?_, ?_⟩ <;>
    simp [State.start, Batcher.init, Batcher.Fits, Batcher.inRound, Batcher.pending]

lemma Stream.step (h : Stream S s) (hin : InFlight S s) (hs : Step S s a s') : Stream S s' := by
  obtain ⟨lost, hacc, hlost⟩ := h.order
  cases hs.effect with
  | batcher l evs move log queue _ _ closed reply =>
    have hp := Batcher.ne_panicked move.alive
    refine ⟨?_, ?_, ?_, ⟨[], ?_, fun _ => rfl⟩, ?_, ?_⟩
    · rw [log, ← currentBatch_append]
      refine h.fits.move move fun msg rs r hp hl => hin.reply_for hp (reply r hl)
    · intro hp'
      rw [log, collected_append, List.length_append, h.index hp, move.index hp']
    · rw [log, received_append, collected_append, h.taken, List.append_assoc,
        move.stream h.fits, List.flatten_append, List.append_assoc]
    · rw [log, accepted_append, received_append, move.accepted_eq, List.append_nil, hacc,
        hlost hp, queue, List.nil_append, List.nil_append, List.append_assoc]
    · intro batch hb
      rw [log, collected_append, List.mem_append] at hb
      exact hb.elim (h.sizes batch) (move.sizes h.fits batch)
    · intro hp'
      obtain ⟨hnil, -⟩ := closed (move.closed_of_stopped hp')
      rw [hnil] at queue
      exact (List.append_eq_nil_iff.1 queue.symm).2
  | accepted cmd batcher alive log queue =>
    refine ⟨?_, ?_, ?_, ⟨[], ?_, fun _ => rfl⟩, ?_, ?_⟩
    · rw [batcher, log, ← currentBatch_append]
      exact h.fits
    · rw [batcher, log]
      simpa using h.index
    · rw [batcher, log]
      simpa using h.taken
    · rw [log, queue]
      simp [hacc, hlost (Batcher.ne_panicked alive)]
    · rw [log]
      simpa using h.sizes
    · intro hp
      rw [batcher] at hp
      simp [Batcher.gone, hp] at alive
  | dropped cmd batcher gone log queue =>
    refine ⟨?_, ?_, ?_, ⟨lost ++ [cmd], ?_, fun hp => ?_⟩, ?_, ?_⟩
    · rw [batcher, log, ← currentBatch_append]
      exact h.fits
    · rw [batcher, log]
      simpa using h.index
    · rw [batcher, log]
      simpa using h.taken
    · rw [log]
      simp [hacc, queue]
    · -- a batcher that has stopped has left nothing in the channel
      rw [batcher] at hp
      have hstop : s.batcher.phase = .stopped := by
        unfold Batcher.gone at gone
        split at gone
        · assumption
        · exact absurd ‹_› hp
        · cases gone
      rw [h.stopped hstop] at queue
      cases queue
    · rw [log]
      simpa using h.sizes
    · intro hp
      rw [batcher] at hp
      rw [h.stopped hp] at queue
      cases queue
  | quiet evs batcher quiet log queue =>
    have hcol : collected evs = [] := quiet.collected_eq
    have hrec : received evs = [] := quiet.received_eq
    have hac : accepted evs = [] := quiet.accepted_eq
    refine ⟨?_, ?_, ?_, ⟨lost, ?_, ?_⟩, ?_, ?_⟩
    · rw [batcher, log, ← currentBatch_append, currentBatch, currentBatch, hcol]
      exact h.fits
    · rw [batcher, log]
      simpa [hcol] using h.index
    · rw [batcher, log]
      simpa [hcol, hrec] using h.taken
    · rw [log, queue]
      simpa [hac, hrec] using hacc
    · rw [batcher]
      exact hlost
    · rw [log]
      simpa [hcol] using h.sizes
    · rw [batcher, queue]
      exact h.stopped

/-- **The stream invariant.** -/
theorem stream (hs : (server S).Reachable s) : Stream S s :=
  hs.invariant (Stream.start S) fun _ _ _ hr hu hstep => hu.step (inFlight hr) (server_step hstep)

/-- As long as the batcher has not unwound, what was accepted was received or is queued. -/
lemma Stream.accepted_eq (h : Stream S s) (hp : s.batcher.phase ≠ .panicked) :
    accepted s.log = received s.log ++ s.commandQueue := by
  obtain ⟨lost, hacc, hlost⟩ := h.order
  rw [hacc, hlost hp, List.nil_append]

/-- During a round the batch collected last is at the index of the round. -/
lemma Stream.current (h : Stream S s) (hb : s.batcher.inRound = true) :
    (collected s.log)[s.batcher.round]? = some (currentBatch [] s.log) := by
  have hlen := h.index fun hp => by simp [Batcher.inRound, hp] at hb
  rw [hb, Bool.toNat_true] at hlen
  have hlt : s.batcher.round < (collected s.log).length := by omega
  have hlast : (collected s.log).length - 1 = s.batcher.round := by omega
  rw [currentBatch, List.getLastD_eq_getLast?, List.getLast?_eq_getElem?, hlast,
    List.getElem?_eq_getElem hlt, Option.getD_some]

/-- The batches are a prefix of the stream. -/
lemma collected_prefix_accepted (h : Stream S s) : (collected s.log).flatten <+: accepted s.log := by
  obtain ⟨lost, hacc, -⟩ := h.order
  rw [hacc, h.taken, List.append_assoc]
  exact List.prefix_append _ _

end OrtSuperserve

import OrtSuperserve.Service

/-!
# The answers of a run

What the server has from the service it refines: every value sent on a responder is one the batch of
its command allows (`answer_allowed`), and callers are answered in the order in which their commands
were accepted, but for those of one batch (`answers_in_order`).
-/

namespace OrtSuperserve

open Lib

variable {I P O F : Type} {S : Setup I P O F} {s : State I P O F}

lemma ordered (hs : (server S).Reachable s) : BatchQueue.Ordered (batching S) s.service := by
  have hsim : Machine.Simulation (server S) (BatchQueue.machine (batching S))
      fun s t => t = s.service := .of_map rfl fun _ _ _ hs hst => reaches_of_step hs hst
  obtain ⟨t, rfl, ht⟩ := hsim.invariant (P := BatchQueue.Ordered (batching S))
    (fun t ht => BatchQueue.machine_ordered ht) hs
  exact ht

/-- The callers answered so far, in the order of the answers. -/
def State.answered (s : State I P O F) : List ℕ := (fates s.log).map Prod.fst

lemma unwound_eq_false (hp : s.batcher.phase ≠ .panicked) : s.batcher.unwound = false := by
  by_contra h
  exact hp (Batcher.unwound_iff.1 (by simpa using h))

/-- **Every answer is one its batch allows**, as long as the batcher does not unwind. -/
theorem answer_allowed (hs : (server S).Reachable s) (hp : s.batcher.phase ≠ .panicked) {c : ℕ}
    {x : Fate O} (hm : (c, x) ∈ fates s.log) :
    ∃ r batch, (collected s.log)[r]? = some batch ∧
      Answer S (s.log.any Event.workerPanic) r batch c x := by
  rcases (ordered hs).allowed (c, x) hm with ⟨r, batch, hb, -, ha⟩ | ⟨hc, -⟩
  · exact ⟨r, batch, hb, ha⟩
  · have hc : s.batcher.unwound = true := hc
    rw [unwound_eq_false hp] at hc
    cases hc

/-- **Callers are answered in order.**  In every run in which the batcher does not unwind: of two
commands, if the caller of the one accepted later has been answered, then the caller of the other one
was answered before, or the two commands are in one batch. -/
theorem answers_in_order (hs : (server S).Reachable s) (hp : s.batcher.phase ≠ .panicked) {i j : ℕ}
    {cmd cmd' : Command I P} (hij : i < j) (hi : (accepted s.log)[i]? = some cmd)
    (hj : (accepted s.log)[j]? = some cmd') (hans : cmd'.responder ∈ s.answered) :
    BatchQueue.Before s.answered cmd.responder cmd'.responder ∨
      ∃ batch ∈ collected s.log, cmd ∈ batch ∧ cmd' ∈ batch :=
  (ordered hs).overtaking (unwound_eq_false hp) hij hi hj hans

/-- In the sample the second caller is answered first: its preprocessing fails, in the batch of the
other one. -/
theorem answers_in_order_sample :
    ∃ s : State ℕ ℕ ℕ ℕ, (server sample).run (.start sample) sampleRun = some s ∧
      s.answered = [1, 0] ∧ ∃ cmd cmd' : Command ℕ ℕ, cmd.responder = 0 ∧ cmd'.responder = 1 ∧
      (BatchQueue.Before s.answered cmd.responder cmd'.responder ∨
        ∃ batch ∈ collected s.log, cmd ∈ batch ∧ cmd' ∈ batch) := by
  obtain ⟨s, hrun, hans, hphase, cmd, cmd', hacc, hc, hc'⟩ : ∃ s : State ℕ ℕ ℕ ℕ,
      (server sample).run (.start sample) sampleRun = some s ∧ s.answered = [1, 0] ∧
        s.batcher.phase = .head ∧ ∃ cmd cmd' : Command ℕ ℕ, accepted s.log = [cmd, cmd'] ∧
        cmd.responder = 0 ∧ cmd'.responder = 1 := ⟨_, rfl, rfl, rfl, _, _, rfl, rfl, rfl⟩
  refine ⟨s, hrun, hans, cmd, cmd', hc, hc', ?_⟩
  exact answers_in_order (S := sample) ⟨sampleRun, hrun⟩ (by rw [hphase]; simp) Nat.zero_lt_one
    (by rw [hacc]; rfl) (by rw [hacc]; rfl) (by rw [hans, hc']; decide)

end OrtSuperserve

import OrtSuperserve.Traffic
import OrtSuperserve.Dispatch
import OrtSuperserve.Lib.RoundRobin

/-!
# Round-robin dispatch over long runs

The workers that the dispatches of a run choose are the places of a counter that wraps at `2 ^ bits`
(`targets_eq`).  So the dispatch is fair until the counter wraps, and from then on just when the number
of workers divides `2 ^ bits` (`round_robin_fair_iff`); runs of any number of dispatches exist
(`exists_dispatches`).
-/

namespace OrtSuperserve

open Lib

variable {I P O F : Type} {S : Setup I P O F} {s s' : State I P O F} {a : Action I}

/-! ### The workers chosen -/

/-- The workers of the dispatch attempts so far, in order. -/
def State.targets (s : State I P O F) : List ℕ := (dispatches s.log).map Prod.fst

/-- A step of the batcher chooses no worker, or the one at its dispatch index. -/
lemma Batcher.Move.targets_eq {b b' : Batcher I P F} {l : BatcherAction I P F}
    {evs : List (Event I P O F)} (h : Batcher.Move S b l b' evs) :
    (dispatches evs).map Prod.fst = [] ∨
      (dispatches evs).map Prod.fst = [b.dispatchIndex % S.config.numSessions] := by
  cases h with
  | sent => exact .inr (by simp)
  | refused => exact .inr (by simp)
  | spawn => exact .inl (by simp [spawnPreprocess, Function.comp_def])
  | _ => exact .inl (by simp)

/-- The workers chosen are the places of the counter. -/
def State.Rotates (S : Setup I P O F) (s : State I P O F) : Prop :=
  s.targets = RoundRobin.slots (2 ^ S.target.bits) S.config.numSessions s.targets.length

lemma Step.rotates (h : Step S s a s') (hr : Rota S s) (hs : s.Rotates S) : s'.Rotates S := by
  have hquiet : ∀ evs, s'.log = s.log ++ evs → (dispatches evs).map Prod.fst = [] →
      s'.Rotates S := by
    intro evs hlog hnil
    have hsame : s'.targets = s.targets := by
      rw [State.targets, hlog, dispatches_append, List.map_append, hnil, List.append_nil]
      rfl
    unfold State.Rotates
    rw [hsame]
    exact hs
  cases h.effect with
  | batcher l evs move log =>
    rcases move.targets_eq with hnil | hone
    · exact hquiet evs log hnil
    · have hlen : s.targets.length = (dispatches s.log).length := List.length_map _
      have htargets : s'.targets =
          s.targets ++ [RoundRobin.slot (2 ^ S.target.bits) S.config.numSessions s.targets.length] := by
        rw [State.targets, log, dispatches_append, List.map_append, hone, hr.index, hlen]
        rfl
      unfold State.Rotates at hs ⊢
      rw [htargets, List.length_append, List.length_singleton, RoundRobin.slots_succ, ← hs]
  | accepted cmd batcher _ log => exact hquiet _ log (by simp)
  | dropped cmd batcher _ log => exact hquiet _ log (by simp)
  | quiet evs batcher quiet log =>
    have hnil : dispatches evs = [] := quiet.dispatches_eq
    exact hquiet evs log (by rw [hnil]; rfl)

/-- **The workers chosen in a run.** -/
theorem targets_eq (hs : (server S).Reachable s) : s.Rotates S := by
  refine hs.invariant (P := State.Rotates S) rfl ?_
  intro u a v hu hr hst
  exact (server_step hst).rotates (rota hu) hr

/-- **Round-robin dispatch is fair as long as the counter has not wrapped.**  For any number of workers
below `2 ^ bits`, in every run: any `numSessions` consecutive dispatch attempts choose different
workers, and no two workers are chosen a number of times that differs by more than one, if and only if
the number of workers divides `2 ^ bits` or there have been at most `2 ^ bits` attempts. -/
theorem round_robin_fair_iff (hs : (server S).Reachable s) (hn : 1 ≤ S.config.numSessions)
    (hlt : S.config.numSessions < 2 ^ S.target.bits) :
    ((∀ i, i + S.config.numSessions ≤ s.targets.length →
        ((s.targets.drop i).take S.config.numSessions).Nodup) ∧
      ∀ v < S.config.numSessions, ∀ v' < S.config.numSessions,
        s.targets.count v ≤ s.targets.count v' + 1) ↔
    S.config.numSessions ∣ 2 ^ S.target.bits ∨ s.targets.length ≤ 2 ^ S.target.bits := by
  rw [← RoundRobin.fair_slots_iff hn hlt, ← targets_eq hs]
  constructor
  · rintro ⟨hwindow, hbalance⟩
    exact ⟨hwindow, hbalance⟩
  · intro h
    exact ⟨h.window, h.balance⟩

/-- Three dispatches of the sample pair go to the workers `0`, `1` and `0`. -/
theorem round_robin_fair_pair : ∃ s : State ℕ ℕ ℕ ℕ,
    (server samplePair).run (.start samplePair) (pairRun ++ [.batcher .dispatch]) = some s ∧
      s.targets = [0, 1, 0] ∧ ((s.targets.drop 1).take 2).Nodup := by
  obtain ⟨s, hrun, htargets⟩ : ∃ s : State ℕ ℕ ℕ ℕ,
      (server samplePair).run (.start samplePair) (pairRun ++ [.batcher .dispatch]) = some s ∧
        s.targets = [0, 1, 0] := ⟨_, rfl, rfl⟩
  have hfair := (round_robin_fair_iff (S := samplePair) ⟨_, hrun⟩ (by decide) (by decide)).2
    (.inr (by rw [htargets]; decide))
  exact ⟨s, hrun, htargets, hfair.1 1 (by rw [htargets]; decide)⟩

/-! ### Long runs -/

/-- Three workers, and batches of one. -/
def three : Setup Unit Unit Unit Unit := obliging { numSessions := 3, maxBatchSize := 1 } {}

/-- The server at the top of its loop, its queue empty and all its workers dead. -/
structure Deserted (s : State Unit Unit Unit Unit) : Prop where
  reachable : (server three).Reachable s
  phase : s.batcher.phase = .head
  queue : s.commandQueue = []
  handles : s.handles[0]? = some true
  workers : ∀ t ∈ s.workers, t.alive = false

lemma exists_deserted : ∃ s, Deserted s ∧ s.targets = [] := by
  obtain ⟨s, hrun, hp, hq, hh, hw, ht⟩ : ∃ s : State Unit Unit Unit Unit,
      (server three).run (.start three)
          [.batcher (.turn .start), .worker 0 .die, .worker 1 .die, .worker 2 .die] = some s ∧
        s.batcher.phase = .head ∧ s.commandQueue = [] ∧ s.handles = [true] ∧
        s.workers = [⟨[], .dead⟩, ⟨[], .dead⟩, ⟨[], .dead⟩] ∧ s.targets = [] :=
    ⟨_, rfl, rfl, rfl, rfl, rfl, rfl⟩
  refine ⟨s, ⟨⟨_, hrun⟩, hp, hq, by rw [hh]; rfl, ?_⟩, ht⟩
  intro t hm
  rw [hw] at hm
  simp only [List.mem_cons, List.not_mem_nil, or_false, or_self] at hm
  rw [hm]
  rfl

/-- Another request comes to its dispatch, which is refused. -/
lemma Deserted.next {s : State Unit Unit Unit Unit} (h : Deserted s) :
    ∃ s', Deserted s' ∧ s'.targets.length = s.targets.length + 1 := by
  have hgone : s.batcher.gone = false := by simp [Batcher.gone, h.phase]
  obtain ⟨u, cmds, hu, hb, hlen, hq, hitems⟩ := exists_queued (S := three) h.handles hgone
    () (fun _ => ⟨(), rfl⟩) 1
  have hq : u.commandQueue = cmds := by rw [hq, h.queue, List.nil_append]
  have hru := h.reachable.trans hu.1
  have htake : u.commandQueue.take three.config.roundSize = cmds := by
    rw [hq]
    exact List.take_of_length_le hlen.le
  have hdrop : u.commandQueue.drop three.config.roundSize = [] := by
    rw [hq]
    exact List.drop_eq_nil_of_le hlen.le
  have hgoes : Goes three (u.commandQueue.take three.config.roundSize) := by
    rw [htake]
    exact goes_obliging hlen.ge hlen.ge hitems
  obtain ⟨v, t, rs, hv, hpv, hqv⟩ := exists_dispatch hru (by rw [hb]; exact h.phase)
    (by rw [hq]; exact hlen.ge) hgoes
  have hrv := hru.trans hv.1
  have hframe := hu.2.trans hv.2
  have hdead : ∀ x ∈ v.workers, x.alive = false := by
    rw [hframe.workers]
    exact h.workers
  have hacc : v.accepts three = false := by
    unfold State.accepts
    cases hw : v.workers[v.chosen three]? with
    | none => rfl
    | some x =>
      rw [Option.map_some, Option.getD_some]
      exact hdead x (List.mem_of_getElem? hw)
  have hsend : v.batcher.step three (.sent (v.accepts three)) =
      some (v.batcher.dispatch three t rs false) := by
    rw [hacc]
    exact Batcher.step_sent hpv false
  have hstep := step_dispatch hsend
  refine ⟨_, ⟨hrv.tail hstep, rfl, hqv.trans hdrop, ?_, ?_⟩, ?_⟩
  · have hhandles : v.handles = s.handles := hframe.handles
    simp only [State.afterBatcher, hhandles]
    exact h.handles
  · intro x hx
    obtain ⟨x', hx', hstate⟩ := exists_of_afterBatcher hx
    have halive := hdead x' hx'
    unfold WorkerThread.alive at halive ⊢
    rw [← hstate]
    exact halive
  · have hlog : dispatches v.log = dispatches s.log := hframe.dispatches
    have hone : (dispatches (v.batcher.dispatch three t rs false).2).length = 1 := by
      simp [Batcher.dispatch, three, obliging, Batcher.reject, sendErr, Function.comp_def]
    simp only [State.targets, State.afterBatcher, dispatches_append, hlog, List.length_map,
      List.length_append]
    exact congrArg _ hone

/-- Any number of dispatches can be attempted. -/
lemma exists_dispatches (n : ℕ) : ∃ s, Deserted s ∧ s.targets.length = n := by
  induction n with
  | zero =>
    obtain ⟨s, hs, ht⟩ := exists_deserted
    exact ⟨s, hs, by rw [ht]; rfl⟩
  | succ n ih =>
    obtain ⟨s, hs, hn⟩ := ih
    obtain ⟨s', hs', hn'⟩ := hs.next
    exact ⟨s', hs', by rw [hn', hn]⟩

/-- With three workers and 64 bits, the attempts before, at and behind the wrap do not choose three
different workers. -/
theorem not_round_robin_fair : ¬ ∀ (S : Setup Unit Unit Unit Unit) (s : State Unit Unit Unit Unit),
    (server S).Reachable s → 1 ≤ S.config.numSessions →
    S.config.numSessions < 2 ^ S.target.bits → ∀ i, i + S.config.numSessions ≤ s.targets.length →
    ((s.targets.drop i).take S.config.numSessions).Nodup := by
  intro h
  obtain ⟨s, hs, hn⟩ := exists_dispatches (2 ^ 64 + 1)
  have hnodup := h three s hs.reachable (by decide) (by decide) (2 ^ 64 - 2) (by rw [hn]; decide)
  rw [targets_eq hs.reachable, hn] at hnodup
  have hwindow : ((RoundRobin.slots (2 ^ 64) 3 (2 ^ 64 + 1)).drop (2 ^ 64 - 2)).take 3 = [2, 0, 0] :=
    RoundRobin.window_slots (by norm_num)
  have hnodup : (((RoundRobin.slots (2 ^ 64) 3 (2 ^ 64 + 1)).drop (2 ^ 64 - 2)).take 3).Nodup := hnodup
  rw [hwindow] at hnodup
  simp at hnodup

end OrtSuperserve

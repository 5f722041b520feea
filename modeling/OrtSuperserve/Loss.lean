import OrtSuperserve.Shutdown
import OrtSuperserve.Lib.Simulation

/-!
# A channel that loses a command

When the timer of the collection loop fires, `select!` drops its `recv` future.  If the sender has
handed its command to that future just then, the command goes with it: it was accepted, and nothing
receives it.  `server` has no such step; `lossyServer` is `server` with that step (`lose`).

Its runs that lose nothing are the runs of `server` (`reachable_iff_lossless`, `lossless_fair`), and a
command that is lost is in no batch ever after (`lost_never_collected`).
-/

namespace OrtSuperserve

open Lib

variable {I P O F : Type}

/-! ### The machine -/

inductive LossyAction (I : Type) where
  | server (a : Action I)
  | lose
  deriving DecidableEq

section Machine

variable (S : Setup I P O F) (s : State I P O F)

/-- The command next in the channel is dropped with the future that holds it. -/
def State.dropNext : Option (State I P O F) :=
  match s.commandQueue with
  | [] => none
  | cmd :: rest => some { s with commandQueue := rest, log := s.log ++ [.drop cmd.responder] }

/-- The timer fires while the `recv` future of `select!` holds the command next in the channel. -/
def State.loseStep : Option (State I P O F) :=
  (s.batcherStep S (.turn .timeout)).bind State.dropNext

def State.lossyStep (a : LossyAction I) : Option (State I P O F) :=
  match a with
  | .server a => s.step S a
  | .lose => s.loseStep S

/-- **The server whose `select!` may lose a command.** -/
def lossyServer : Machine (State I P O F) (LossyAction I) where
  start := .start S
  step s a := s.lossyStep S a

/-- The server's own steps, with the losses. -/
def LossyAction.internal : LossyAction I → Prop
  | .server a => a.internal
  | .lose => True

/-- The step of the server that a step is, if it loses nothing. -/
def LossyAction.toServer : LossyAction I → Option (Action I)
  | .server a => some a
  | .lose => none

end Machine

variable {S : Setup I P O F} {s s' : State I P O F}

/-- A loss is the timer firing, and then the next command dropped. -/
lemma lose_cases (h : (lossyServer S).step s .lose = some s') :
    ∃ t cmd rest, Step S s (.batcher (.turn .timeout)) t ∧ t.commandQueue = cmd :: rest ∧
      s' = { t with commandQueue := rest, log := t.log ++ [.drop cmd.responder] } := by
  have h : s.loseStep S = some s' := h
  obtain ⟨t, ht, hd⟩ := Option.bind_eq_some_iff.1 h
  unfold State.dropNext at hd
  split at hd
  · cases hd
  · obtain rfl := Option.some.inj hd
    exact ⟨t, _, _, server_step (S := S) ht, ‹_›, rfl⟩

/-- **Invariants with losses**: what the steps of the server preserve, and dropping a command. -/
theorem lossy_invariant {Q : State I P O F → Prop} (hstep : ∀ s a s', Q s → Step S s a s' → Q s')
    (hdrop : ∀ s cmd rest, Q s → s.commandQueue = cmd :: rest →
      Q { s with commandQueue := rest, log := s.log ++ [.drop cmd.responder] })
    (h : (lossyServer S).Reaches s s') (hs : Q s) : Q s' := by
  refine h.induct (P := Q) hs ?_
  intro u a v _ hu hst
  cases a with
  | server a => exact hstep u a v hu (server_step hst)
  | lose =>
    obtain ⟨t, cmd, rest, ht, hq, rfl⟩ := lose_cases hst
    exact hdrop t cmd rest (hstep u _ t hu ht) hq

/-! ### Runs that lose nothing -/

/-- The server reaches what it reaches without a loss. -/
theorem reachable_iff_lossless : (server S).Reachable s ↔
    ∃ as, (lossyServer S).run (.start S) as = some s ∧ .lose ∉ as := by
  constructor
  · rintro ⟨as, has⟩
    refine ⟨as.map .server, ?_, by simp⟩
    refine Machine.run_induct
      (P := fun as s => (lossyServer S).run (.start S) (as.map .server) = some s) has rfl ?_
    intro as u a v _ hu hst
    rw [List.map_append]
    exact (lossyServer S).run_snoc.2 ⟨u, hu, hst⟩
  · rintro ⟨as, has, hlose⟩
    refine Machine.run_induct (P := fun as s => .lose ∉ as → (server S).Reachable s) has
      (fun _ => .start) ?_ hlose
    intro as u a v _ ih hst hlose
    rw [List.mem_append, List.mem_singleton, not_or] at hlose
    cases a with
    | server a => exact (ih hlose.1).tail hst
    | lose => exact absurd rfl hlose.2

/-- **A fair run that loses nothing is a fair run of the server.** -/
theorem lossless_fair (ρ : (lossyServer S).FairRun LossyAction.internal)
    (hlose : ∀ k, ρ.label k ≠ some .lose) :
    ∃ ρ' : (server S).FairRun Action.internal, ∀ k, ρ'.state k = ρ.state k := by
  have hstep : ∀ k a, ρ.label k = some a →
      (lossyServer S).step (ρ.state k) a = some (ρ.state (k + 1)) →
      ∃ b, a.toServer = some b ∧ (server S).step (ρ.state k) b = some (ρ.state (k + 1)) := by
    intro k a hl hst
    cases a with
    | server a => exact ⟨a, rfl, hst⟩
    | lose => exact absurd hl (hlose k)
  have hlabel : ∀ k a, ρ.label k = some a → a.internal →
      ∃ b, a.toServer = some b ∧ b.internal := by
    intro k a hl ha
    cases a with
    | server a => exact ⟨a, rfl, ha⟩
    | lose => exact absurd hl (hlose k)
  obtain ⟨ρ', hρ, -⟩ := Machine.FairRun.exists_map (n := server S) id
    LossyAction.toServer rfl ρ (fun k a hl hst => .inr (hstep k a hl hst)) hlabel
    fun s b t _ hb hst => ⟨.server b, t, hb, hst⟩
  exact ⟨ρ', hρ⟩

/-! ### A command that is lost -/

/-- What the batcher holds or has collected it has received; with the channel, that is part of what was
accepted. -/
structure Taken (s : State I P O F) : Prop where
  held : ∀ cmd ∈ s.batcher.batchBuffer, cmd ∈ received s.log
  collected : ∀ batch ∈ collected s.log, ∀ cmd ∈ batch, cmd ∈ received s.log
  accepted : (received s.log ++ s.commandQueue).Sublist (accepted s.log)

/-- Dropping the next command leaves the rest of the channel. -/
lemma Taken.drop {cmd : Command I P} (hs : Taken s) (hb : s'.batcher = s.batcher)
    (hlog : s'.log = s.log ++ [.drop cmd.responder])
    (hq : s.commandQueue = cmd :: s'.commandQueue) : Taken s' := by
  refine ⟨?_, ?_, ?_⟩
  · simpa [hb, hlog] using hs.held
  · simpa [hlog] using hs.collected
  · have hle : (received s.log ++ s'.commandQueue).Sublist (received s.log ++ s.commandQueue) := by
      rw [hq]
      exact (List.sublist_cons_self _ _).append_left _
    simpa [hlog] using hle.trans hs.accepted

/-- The buffer takes in what is received, and is what is collected. -/
lemma Batcher.Move.buffer {b b' : Batcher I P F} {l : BatcherAction I P F}
    {evs : List (Event I P O F)} (h : Batcher.Move S b l b' evs) :
    (∀ cmd ∈ b'.batchBuffer, cmd ∈ b.batchBuffer ∨ cmd ∈ received evs) ∧
      ∀ batch ∈ OrtSuperserve.collected evs, batch = b.batchBuffer := by
  cases h with
  | spawn => simp [spawnPreprocess]
  | _ => simp [nextRound]

lemma Step.taken {a : Action I} (h : Step S s a s') (hs : Taken s) : Taken s' := by
  cases h.effect with
  | batcher l evs move log queue =>
    obtain ⟨hheld, hcol⟩ := move.buffer
    have hrec : received s'.log = received s.log ++ received evs := by rw [log, received_append]
    have hbuf : ∀ cmd ∈ s.batcher.batchBuffer, cmd ∈ received s'.log := by
      intro cmd hm
      rw [hrec]
      exact List.mem_append_left _ (hs.held cmd hm)
    refine ⟨?_, ?_, ?_⟩
    · intro cmd hm
      rcases hheld cmd hm with hm | hm
      · exact hbuf cmd hm
      · rw [hrec]
        exact List.mem_append_right _ hm
    · intro batch hb cmd hm
      rw [log, collected_append, List.mem_append] at hb
      rcases hb with hb | hb
      · rw [hrec]
        exact List.mem_append_left _ (hs.collected batch hb cmd hm)
      · exact hbuf cmd (hcol batch hb ▸ hm)
    · rw [hrec, List.append_assoc, ← queue, log, move.accepted_log]
      exact hs.accepted
  | accepted cmd batcher alive log queue =>
    refine ⟨?_, ?_, ?_⟩
    · simpa [batcher, log] using hs.held
    · simpa [log] using hs.collected
    · rw [queue, log, received_append, accepted_append]
      simpa using hs.accepted.append (List.Sublist.refl [cmd])
  | dropped cmd batcher gone log queue => exact hs.drop batcher log queue
  | quiet evs batcher quiet log queue =>
    have hrec : received s'.log = received s.log := by
      rw [log, received_append, quiet.received_eq, List.append_nil]
    have hcol : OrtSuperserve.collected s'.log = OrtSuperserve.collected s.log := by
      rw [log, collected_append, quiet.collected_eq, List.append_nil]
    have hacc : OrtSuperserve.accepted s'.log = OrtSuperserve.accepted s.log := by
      rw [log, accepted_append, quiet.accepted_eq, List.append_nil]
    refine ⟨?_, ?_, ?_⟩
    · rw [batcher, hrec]
      exact hs.held
    · rw [hcol, hrec]
      exact hs.collected
    · rw [hrec, queue, hacc]
      exact hs.accepted

/-- Dropping a command is nothing to the calls. -/
lemma Calls.drop {cmd : Command I P} {rest : List (Command I P)} (hs : Calls S s) :
    Calls S { s with commandQueue := rest, log := s.log ++ [.drop cmd.responder] } := by
  refine ⟨?_, ?_, ?_⟩
  · simpa [State.responders] using hs.nodup
  · simpa using hs.sent
  · intro c call hc
    exact (hs.calls c call hc).mono (fun c hc => by simpa [State.responders] using hc)
      (List.prefix_append _ _) fun hg => hg

/-- Accepted, and no longer with the batcher or in its channel. -/
def Lost (cmd : Command I P) (s : State I P O F) : Prop :=
  cmd ∈ accepted s.log ∧ cmd ∉ received s.log ++ s.commandQueue

lemma Lost.drop {cmd cmd' : Command I P} (hl : Lost cmd s)
    (hlog : s'.log = s.log ++ [.drop cmd'.responder])
    (hq : s.commandQueue = cmd' :: s'.commandQueue) : Lost cmd s' := by
  obtain ⟨hacc, hout⟩ := hl
  refine ⟨by simpa [hlog] using hacc, ?_⟩
  rw [hq, List.mem_append, List.mem_cons] at hout
  simp [hlog] at hout ⊢
  tauto

/-- A command is sent only once. -/
lemma Step.lost {a : Action I} (h : Step S s a s') (hs : Calls S s) {cmd : Command I P}
    (hl : Lost cmd s) : Lost cmd s' := by
  obtain ⟨hacc, hout⟩ := hl
  refine ⟨(h.log_grows.filterMap Event.accepted?).subset hacc, ?_⟩
  cases h.effect with
  | batcher l evs move log queue =>
    rw [log, received_append, List.append_assoc, ← queue]
    exact hout
  | accepted cmd' batcher alive log queue =>
    have hne : cmd ≠ cmd' := by
      rintro rfl
      have hnodup := (hs.step h).nodup
      rw [State.responders, log, accepted_append, List.map_append, List.nodup_append'] at hnodup
      exact hnodup.2.2 (List.mem_map_of_mem hacc) (by simp)
    rw [log, queue, received_append, ← List.append_assoc]
    simpa [hne] using hout
  | dropped cmd' batcher gone log queue => exact (Lost.drop ⟨hacc, hout⟩ log queue).2
  | quiet evs batcher quiet log queue =>
    rw [log, received_append, quiet.received_eq, List.append_nil, queue]
    exact hout

/-- What the losses leave intact. -/
lemma lossy_taken (hs : (lossyServer S).Reaches s s') (h : Calls S s ∧ Taken s) :
    Calls S s' ∧ Taken s' := by
  refine lossy_invariant (Q := fun s => Calls S s ∧ Taken s) ?_ ?_ hs h
  · exact fun s a s' hu hst => ⟨hu.1.step hst, hst.taken hu.2⟩
  · exact fun s cmd rest hu hq => ⟨hu.1.drop, hu.2.drop rfl rfl hq⟩

lemma Taken.start (S : Setup I P O F) : Taken (State.start S) := by
  refine ⟨?_, ?_, ?_⟩ <;> simp [State.start, Batcher.init]

/-- **A lost command is in no batch**, whatever happens after. -/
theorem lost_never_collected (hs : (lossyServer S).Reachable s)
    (h : (lossyServer S).step s .lose = some s') : ∃ cmd ∈ accepted s.log,
      ∀ t, (lossyServer S).Reaches s' t → ∀ batch ∈ collected t.log, cmd ∉ batch := by
  have hu := lossy_taken hs ⟨.start S, .start S⟩
  obtain ⟨t, cmd, rest, ht, hq, rfl⟩ := lose_cases h
  have htaken : Taken t := ht.taken hu.2
  have hcalls : Calls S t := hu.1.step ht
  -- the timer firing accepts nothing
  have hacc : accepted t.log = accepted s.log := by
    cases ht with
    | turn _ b' evs hm => exact hm.accepted_log _
  have hm : cmd ∈ accepted t.log := htaken.accepted.subset (by simp [hq])
  have hout : cmd ∉ received t.log ++ rest := by
    have hnodup := (htaken.accepted.map Command.responder).nodup hcalls.nodup
    rw [hq, ((List.perm_middle (a := cmd)).map Command.responder).nodup_iff, List.map_cons,
      List.nodup_cons] at hnodup
    exact fun h => hnodup.1 (List.mem_map_of_mem h)
  refine ⟨cmd, hacc ▸ hm, ?_⟩
  intro v hv batch hb hmem
  have hlast : (Calls S v ∧ Taken v) ∧ Lost cmd v := by
    refine lossy_invariant (Q := fun s => (Calls S s ∧ Taken s) ∧ Lost cmd s) ?_ ?_ hv ?_
    · rintro s a s' ⟨hs, hl⟩ hst
      exact ⟨⟨hs.1.step hst, hst.taken hs.2⟩, hst.lost hs.1 hl⟩
    · rintro s cmd' rest' ⟨hs, hl⟩ hq'
      exact ⟨⟨hs.1.drop, hs.2.drop rfl rfl hq'⟩, hl.drop rfl hq'⟩
    · exact ⟨⟨hcalls.drop, htaken.drop rfl rfl hq⟩, by simpa using hm, by simpa using hout⟩
  exact hlast.2.2 (List.mem_append_left _ (hlast.1.2.collected batch hb cmd hmem))

end OrtSuperserve

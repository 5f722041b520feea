import OrtSuperserve.ServerMoves

/-!
# The steps of the server, as the batcher and the log see them

For the invariants about the stream of commands a step of the server is one of four things
(`Effect`): a move of the batcher with the commands it takes, a command accepted, a command dropped
because the batcher is gone, or something that leaves only quiet events.
-/

namespace OrtSuperserve

open Lib

variable {I P O F : Type}

/-- Only calls of `preprocess` and panics. -/
def Quiet (evs : List (Event I P O F)) : Prop :=
  ∀ e ∈ evs, (∃ c, e = .preprocess c) ∨ ∃ t, e = .panic t

lemma Quiet.nil : Quiet ([] : List (Event I P O F)) := fun e he => by cases he

/-- No projection but that of the calls of `preprocess` sees quiet events. -/
lemma Quiet.filterMap {γ : Type} {evs : List (Event I P O F)} (h : Quiet evs)
    {g : Event I P O F → Option γ} (hc : ∀ c, g (.preprocess c) = none)
    (hp : ∀ t, g (.panic t) = none) : evs.filterMap g = [] := by
  apply List.filterMap_eq_nil_iff.2
  intro e he
  rcases h e he with ⟨c, rfl⟩ | ⟨t, rfl⟩
  · exact hc c
  · exact hp t

section Projections

variable {evs : List (Event I P O F)} (h : Quiet evs)

include h

lemma Quiet.accepted_eq : accepted evs = [] := h.filterMap (fun _ => rfl) fun _ => rfl

lemma Quiet.received_eq : received evs = [] := h.filterMap (fun _ => rfl) fun _ => rfl

lemma Quiet.collected_eq : collected evs = [] := h.filterMap (fun _ => rfl) fun _ => rfl

lemma Quiet.batchCalls_eq : batchCalls evs = [] := h.filterMap (fun _ => rfl) fun _ => rfl

lemma Quiet.dispatches_eq : dispatches evs = [] := h.filterMap (fun _ => rfl) fun _ => rfl

lemma Quiet.postprocessCalls_eq : postprocessCalls evs = [] :=
  h.filterMap (fun _ => rfl) fun _ => rfl

lemma Quiet.fates_eq : fates evs = [] := h.filterMap (fun _ => rfl) fun _ => rfl

end Projections

lemma quiet_prepare (S : Setup I P O F) (c : ℕ) (input : I) : Quiet (prepare S c input).2 := by
  unfold prepare
  split
  · split
    · exact fun e he => .inl ⟨c, List.mem_singleton.1 he⟩
    · exact fun e he => .inl ⟨c, List.mem_singleton.1 he⟩
    · intro e he
      rcases List.mem_cons.1 he with rfl | he
      · exact .inl ⟨c, rfl⟩
      · exact .inr ⟨_, List.mem_singleton.1 he⟩
  · exact Quiet.nil

lemma WorkerThread.Move.quiet {S : Setup I P O F} {t : WorkerThread F} {closed : Bool} {w : ℕ}
    {a : WorkerAction} {r : WorkerEffect I P O F} (h : t.Move S closed w a r) : Quiet r.events := by
  intro e he
  cases h <;> simp at he <;> simp [he]

/-- What a step does to the batcher, the command queue and the log. -/
inductive Effect (S : Setup I P O F) (s s' : State I P O F) : Prop where
  | batcher (l : BatcherAction I P F) (evs : List (Event I P O F))
      (move : Batcher.Move S s.batcher l s'.batcher evs) (log : s'.log = s.log ++ evs)
      (queue : s.commandQueue = received evs ++ s'.commandQueue)
      (calls : s'.calls = s.calls) (handles : s'.handles = s.handles)
      (closed : l = .closed → s.commandQueue = [] ∧ ∀ x ∈ s.handles, x = false)
      (reply : ∀ r, l = .reply r → s.replies.lookup s.batcher.round = some r)
  | accepted (cmd : Command I P) (batcher : s'.batcher = s.batcher) (alive : s.batcher.gone = false)
      (log : s'.log = s.log ++ [.accepted cmd]) (queue : s'.commandQueue = s.commandQueue ++ [cmd])
  | dropped (cmd : Command I P) (batcher : s'.batcher = s.batcher) (gone : s.batcher.gone = true)
      (log : s'.log = s.log ++ [.drop cmd.responder]) (queue : s.commandQueue = cmd :: s'.commandQueue)
  | quiet (evs : List (Event I P O F)) (batcher : s'.batcher = s.batcher) (quiet : Quiet evs)
      (log : s'.log = s.log ++ evs) (queue : s'.commandQueue = s.commandQueue)

/-- What a step of the batcher receives is what it takes from the channel. -/
lemma Batcher.Move.received_eq {S : Setup I P O F} {b b' : Batcher I P F} {a : BatcherAction I P F}
    {evs : List (Event I P O F)} (h : Batcher.Move S b a b' evs) :
    received evs = match (motive := BatcherAction I P F → List (Command I P)) a with
      | .recv cmd => [cmd]
      | _ => [] := by
  cases h with
  | leave a hp ha => cases a <;> simp_all [Batcher.Leaves]
  | spawn => exact Batcher.received_spawnPreprocess b
  | _ => simp

variable {S : Setup I P O F} {s s' : State I P O F} {a : Action I}

/-- **The effect of a step.** -/
theorem Step.effect (h : Step S s a s') : Effect S s s' := by
  cases h with
  | client a _ hm =>
    cases hm with
    | prepare c call => exact .quiet _ rfl (quiet_prepare S c call.input) rfl rfl
    | send c call cmd hc hs hg => exact .accepted cmd rfl hg rfl rfl
    | _ => exact .quiet [] rfl Quiet.nil (List.append_nil _).symm rfl
  | recv cmd rest b' evs hq hm =>
    refine .batcher _ evs hm rfl ?_ rfl rfl (fun h => by cases h) fun r h => by cases h
    rw [hm.received_eq]
    exact hq
  | closed b' evs hq hh hm =>
    refine .batcher _ evs hm rfl ?_ rfl rfl (fun _ => ⟨hq, hh⟩) fun r h => by cases h
    rw [hm.received_eq]
    rfl
  | dispatch b' evs hm =>
    refine .batcher _ evs hm rfl ?_ rfl rfl (fun h => by cases h) fun r h => by cases h
    rw [hm.received_eq]
    rfl
  | reply r b' evs hr hm =>
    refine .batcher _ evs hm rfl ?_ rfl rfl (fun h => by cases h) fun r' h => ?_
    · rw [hm.received_eq]
      rfl
    · obtain rfl := BatcherAction.reply.inj h
      exact hr
  | turn t b' evs hm =>
    refine .batcher _ evs hm rfl ?_ rfl rfl (fun h => by cases h) fun r h => by cases h
    rw [hm.received_eq]
    rfl
  | worker w a t r ht hm => exact .quiet _ rfl hm.quiet rfl rfl
  | discard cmd rest hq hg => exact .dropped cmd rfl hg rfl hq

/-- The log only grows. -/
lemma Step.log_grows (h : Step S s a s') : s.log <+: s'.log := by
  cases h.effect with
  | batcher l evs _ log => exact log ▸ List.prefix_append _ _
  | accepted cmd _ _ log => exact log ▸ List.prefix_append _ _
  | dropped cmd _ _ log => exact log ▸ List.prefix_append _ _
  | quiet evs _ _ log => exact log ▸ List.prefix_append _ _

/-- Along a run the log only grows. -/
theorem log_grows (h : (server S).Reaches s s') : s.log <+: s'.log :=
  h.induct (P := fun t => s.log <+: t.log) (List.prefix_refl _)
    fun _ _ _ _ hu hs => hu.trans (server_step hs).log_grows

end OrtSuperserve

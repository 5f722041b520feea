import OrtSuperserve.History

/-!
# Traffic

Runs that exist whatever the configuration: calls bring commands into the queue (`exists_queued`), the
batcher collects a full batch from it (`exists_full`), and takes a batch whose items can be batched up
to its dispatch (`exists_dispatching`).  All this leaves the workers alone (`Untouched`).
-/

namespace OrtSuperserve

open Lib

variable {I P O F : Type} {S : Setup I P O F} {s u v : State I P O F}

/-- Between the two states nothing was dispatched and no worker and no handle did anything. -/
structure Untouched (s v : State I P O F) : Prop where
  workers : v.workers = s.workers
  handles : v.handles = s.handles
  dispatches : dispatches v.log = dispatches s.log

lemma Untouched.refl (s : State I P O F) : Untouched s s := ⟨rfl, rfl, rfl⟩

lemma Untouched.trans (h₁ : Untouched s u) (h₂ : Untouched u v) : Untouched s v := by
  refine ⟨?_, ?_, ?_⟩
  · rw [h₂.workers, h₁.workers]
  · rw [h₂.handles, h₁.handles]
  · rw [h₂.dispatches, h₁.dispatches]

/-- Some run leads from `s` to `v` that leaves the workers alone. -/
def Leads (S : Setup I P O F) (s v : State I P O F) : Prop := (server S).Reaches s v ∧ Untouched s v

lemma Leads.refl (s : State I P O F) : Leads S s s := ⟨.refl s, .refl s⟩

lemma Leads.trans (h₁ : Leads S s u) (h₂ : Leads S u v) : Leads S s v :=
  ⟨h₁.1.trans h₂.1, h₁.2.trans h₂.2⟩

/-- One step that logs no dispatch. -/
lemma Leads.single {a : Action I} (evs : List (Event I P O F)) (h : (server S).step s a = some v)
    (hw : v.workers = s.workers) (hh : v.handles = s.handles) (hlog : v.log = s.log ++ evs)
    (hd : dispatches evs = []) : Leads S s v := by
  refine ⟨.single h, hw, hh, ?_⟩
  rw [hlog, dispatches_append, hd, List.append_nil]

/-! ### Commands -/

/-- A call on a handle that is alive brings a command into the queue, if its input can be
preprocessed. -/
lemma exists_sent (hh : s.handles[0]? = some true) (hg : s.batcher.gone = false) (input : I)
    (hpre : ∀ c, ∃ p, S.user.preprocess c input = .ok p) :
    ∃ v, ∃ cmd : Command I P, Leads S s v ∧ v.batcher = s.batcher ∧
      v.commandQueue = s.commandQueue ++ [cmd] ∧ (cmd.item S.user).isSome := by
  set c := s.calls.length with hc
  obtain ⟨p, hp⟩ := hpre c
  obtain ⟨cmd, evs, hcmd, hd, hitem⟩ : ∃ (cmd : Command I P) (evs : List (Event I P O F)),
      prepare S c input = (.sending cmd, evs) ∧ dispatches evs = [] ∧ (cmd.item S.user).isSome := by
    by_cases hc : S.preprocessOnInfer c
    · exact ⟨.newPreprocessed p c, [.preprocess c], by simp [prepare, hc, hp], rfl, rfl⟩
    · exact ⟨.newRaw c input c, [], by simp [prepare, hc], rfl,
        by simp [Command.newRaw, Command.item, hp, Outcome.toOption]⟩
  have hget : ∀ x, (s.calls ++ [x])[c]? = some x := fun x => by simp [hc]
  have hset : ∀ x y, (s.calls ++ [x]).set c y = s.calls ++ [y] := fun x y => by simp [hc]
  set s₁ : State I P O F := { s with calls := s.calls ++ [⟨0, input, .starting⟩] } with hs₁
  have hinfer : (server S).step s (.client (.infer 0 input)) = some s₁ := by
    simp [server, State.step, State.clientStep, hh, hs₁]
  set s₂ : State I P O F :=
    { s with calls := s.calls ++ [⟨0, input, .sending cmd⟩], log := s.log ++ evs } with hs₂
  have hprepare : (server S).step s₁ (.client (.prepare c)) = some s₂ := by
    simp [server, State.step, State.clientStep, State.setCall, hget, hset, hcmd, hs₁, hs₂]
  set s₃ : State I P O F :=
    { s with
      calls := s.calls ++ [⟨0, input, .waiting⟩]
      commandQueue := s.commandQueue ++ [cmd]
      log := s.log ++ evs ++ [.accepted cmd] } with hs₃
  have hsend : (server S).step s₂ (.client (.send c)) = some s₃ := by
    simp [server, State.step, State.clientStep, State.setCall, hget, hset, hg, hs₂, hs₃]
  have h₁ : Leads S s s₁ := .single [] hinfer rfl rfl (List.append_nil _).symm rfl
  have h₂ : Leads S s₁ s₂ := .single evs hprepare rfl rfl rfl hd
  have h₃ : Leads S s₂ s₃ := .single [.accepted cmd] hsend rfl rfl rfl rfl
  exact ⟨s₃, cmd, (h₁.trans h₂).trans h₃, rfl, rfl, hitem⟩

/-- So any number of commands can come to be queued. -/
lemma exists_queued (hh : s.handles[0]? = some true) (hg : s.batcher.gone = false) (input : I)
    (hpre : ∀ c, ∃ p, S.user.preprocess c input = .ok p) (n : ℕ) :
    ∃ v, ∃ cmds : List (Command I P), Leads S s v ∧ v.batcher = s.batcher ∧ cmds.length = n ∧
      v.commandQueue = s.commandQueue ++ cmds ∧ ∀ cmd ∈ cmds, (cmd.item S.user).isSome := by
  induction n with
  | zero => exact ⟨s, [], .refl s, rfl, rfl, by simp, by simp⟩
  | succ n ih =>
    obtain ⟨u, cmds, hu, hb, hlen, hq, hitems⟩ := ih
    have hhu : u.handles[0]? = some true := by rw [hu.2.handles]; exact hh
    have hgu : u.batcher.gone = false := by rw [hb]; exact hg
    obtain ⟨v, cmd, hv, hb', hq', hitem⟩ := exists_sent hhu hgu input hpre
    refine ⟨v, cmds ++ [cmd], hu.trans hv, hb'.trans hb, ?_, ?_, ?_⟩
    · rw [List.length_append, hlen]
      rfl
    · rw [hq', hq, List.append_assoc]
    · intro x hx
      rcases List.mem_append.1 hx with hx | hx
      · exact hitems x hx
      · rw [List.mem_singleton.1 hx]
        exact hitem

/-- If its buffer can be allocated, the batcher comes to the top of its loop, with any number of
commands queued and no worker initialised. -/
lemma exists_waiting
    (hfit : ¬ S.target.capacityOverflow S.target.commandSize S.config.maxBatchSize) (input : I)
    (hpre : ∀ c, ∃ p, S.user.preprocess c input = .ok p) (n : ℕ) :
    ∃ s, (server S).Reachable s ∧ s.batcher.phase = .head ∧ s.commandQueue.length = n ∧
      (∀ cmd ∈ s.commandQueue, (cmd.item S.user).isSome) ∧
      s.workers = List.replicate S.config.numSessions ⟨[], .initializing⟩ := by
  set s₀ := State.start S with hs₀
  have hstart : s₀.batcher.step S (.turn .start) = some ({ s₀.batcher with phase := .head }, []) := by
    simp only [hs₀, State.start, Batcher.step, Batcher.init, Batcher.start]
    rw [if_neg hfit]
  have hs := Machine.Reachable.start.tail (m := server S) (step_turn hstart)
  obtain ⟨v, cmds, hv, hb, hlen, hq, hitems⟩ := exists_queued (S := S) (s := { s₀ with
      batcher := { s₀.batcher with phase := .head }, log := s₀.log ++ [] }) rfl rfl input hpre n
  have hq : v.commandQueue = cmds := hq
  refine ⟨v, hs.trans hv.1, by rw [hb], by rw [hq, hlen], ?_, hv.2.workers⟩
  rw [hq]
  exact hitems

/-! ### Collection -/

/-- With commands enough in the queue, the collection loop can be run until it is full. -/
lemma exists_collected (hp : u.batcher.phase = .collecting) (hpos : 1 ≤ u.batcher.batchBuffer.length)
    (hle : u.batcher.batchBuffer.length ≤ S.config.roundSize)
    (hq : S.config.roundSize ≤ (u.batcher.batchBuffer ++ u.commandQueue).length) :
    ∃ v, Leads S u v ∧ v.batcher.phase = .collected ∧
      v.batcher.batchBuffer = (u.batcher.batchBuffer ++ u.commandQueue).take S.config.roundSize ∧
      v.commandQueue = (u.batcher.batchBuffer ++ u.commandQueue).drop S.config.roundSize := by
  have hmax : S.config.maxBatchSize ≤ S.config.roundSize := le_max_right _ _
  generalize hn : S.config.roundSize - u.batcher.batchBuffer.length = n
  induction n generalizing u with
  | zero =>
    have hlen : u.batcher.batchBuffer.length = S.config.roundSize := by omega
    have hst : u.batcher.step S (.turn .full) = some u.batcher.leave := by
      simp only [Batcher.step, hp]
      rw [if_neg (by omega)]
    refine ⟨_, .single [.collected u.batcher.batchBuffer] (step_turn hst) rfl rfl rfl rfl,
      rfl, ?_, ?_⟩
    · rw [← hlen]
      exact List.take_left.symm
    · rw [← hlen]
      exact List.drop_left.symm
  | succ n ih =>
    rw [List.length_append] at hq
    obtain ⟨cmd, rest, hcons⟩ : ∃ cmd rest, u.commandQueue = cmd :: rest :=
      List.exists_cons_of_length_pos (by omega)
    -- a round with room for more than one command is bounded by `max_batch_size`
    have hround : S.config.roundSize = S.config.maxBatchSize := by
      have : S.config.roundSize = max 1 S.config.maxBatchSize := rfl
      omega
    have hlt : u.batcher.batchBuffer.length < S.config.maxBatchSize := by omega
    have hrecv : u.batcher.step S (.recv cmd) =
        some ({ u.batcher with batchBuffer := u.batcher.batchBuffer ++ [cmd] }, [.received cmd]) := by
      simp only [Batcher.step, hp, if_pos hlt]
    have hst := step_recv hcons hrecv
    obtain ⟨v, hv, hpv, hbuf, hqv⟩ := ih (u := { u with
        batcher := { u.batcher with batchBuffer := u.batcher.batchBuffer ++ [cmd] }
        commandQueue := rest
        log := u.log ++ [.received cmd] }) hp (by simp) (by simp; omega)
      (by rw [hcons] at hq; simp at hq ⊢; omega) (by simp; omega)
    refine ⟨v, (Leads.single [.received cmd] hst rfl rfl rfl rfl).trans hv, hpv, ?_, ?_⟩
    · rw [hbuf, hcons]
      simp
    · rw [hqv, hcons]
      simp

/-- From the top of the loop the batcher can collect a full batch. -/
lemma exists_full (hs : (server S).Reachable s) (hp : s.batcher.phase = .head)
    (hq : S.config.roundSize ≤ s.commandQueue.length) :
    ∃ v, Leads S s v ∧ v.batcher.phase = .collected ∧
      v.batcher.batchBuffer = s.commandQueue.take S.config.roundSize ∧
      v.commandQueue = s.commandQueue.drop S.config.roundSize := by
  have hpos := S.config.one_le_roundSize
  have hbuf : s.batcher.batchBuffer = [] := by
    simpa only [Batcher.Fits, hp] using (stream hs).fits
  obtain ⟨cmd, rest, hcons⟩ : ∃ cmd rest, s.commandQueue = cmd :: rest :=
    List.exists_cons_of_length_pos (by omega)
  have hrecv : s.batcher.step S (.recv cmd) =
      some ({ s.batcher with batchBuffer := s.batcher.batchBuffer ++ [cmd], phase := .collecting },
        [.received cmd]) := by
    simp only [Batcher.step, hp]
  have hst := step_recv hcons hrecv
  obtain ⟨v, hv, hpv, hbufv, hqv⟩ := exists_collected (S := S) (u := { s with
      batcher := { s.batcher with
        batchBuffer := s.batcher.batchBuffer ++ [cmd], phase := .collecting }
      commandQueue := rest
      log := s.log ++ [.received cmd] }) rfl (by simp) (by simp [hbuf]; omega)
    (by rw [hcons] at hq; simpa [hbuf, Nat.add_comm] using hq)
  refine ⟨v, (Leads.single [.received cmd] hst rfl rfl rfl rfl).trans hv, hpv, ?_, ?_⟩
  · rw [hbufv, hbuf, hcons]
    rfl
  · rw [hqv, hbuf, hcons]
    rfl

/-- What was collected last is in the buffer. -/
lemma currentBatch_collected (hs : (server S).Reachable s) (hp : s.batcher.phase = .collected) :
    currentBatch [] s.log = s.batcher.batchBuffer := by
  have hfits := (stream hs).fits
  simp only [Batcher.Fits, hp] at hfits
  exact hfits.1.symm

/-! ### A batch on its way -/

/-- What is still to come of a batch that will be dispatched. -/
structure Goes (S : Setup I P O F) (batch : List (Command I P)) : Prop where
  min : S.config.minBatchSize ≤ batch.length
  nonempty : survivors S.user batch ≠ []
  batch : ∀ r, ∃ t, S.user.batch r ((survivors S.user batch).map Prod.snd) = .ok t

/-- A batch whose items are all there goes, if it is large enough and can be batched. -/
lemma Goes.of_items {batch : List (Command I P)} (hmin : S.config.minBatchSize ≤ batch.length)
    (hpos : 1 ≤ batch.length) (hitems : ∀ cmd ∈ batch, (cmd.item S.user).isSome)
    (hbatch : ∀ r, ∃ t, S.user.batch r ((survivors S.user batch).map Prod.snd) = .ok t) :
    Goes S batch := by
  refine ⟨hmin, ?_, hbatch⟩
  have hsurv := survivors_length_of_items hitems
  exact List.ne_nil_of_length_pos (by omega)

namespace Batcher

variable {b b' : Batcher I P F} {t : Turn} {evs : List (Event I P O F)}

/-- The round has not come to its dispatch. -/
def beforeDispatch (b : Batcher I P F) : Bool :=
  match b.phase with
  | .collected | .preprocessing _ | .batching _ _ => true
  | _ => false

/-- A batch that goes stays on its way. -/
lemma Move.onTheWay {V : WorkerMessage F → Reply F → Prop} {batch : List (Command I P)}
    (h : Move S b (.turn t) b' evs) (hf : b.Fits S V batch) (hg : Goes S batch)
    (hb : b.beforeDispatch = true) :
    b'.beforeDispatch = true ∨ ∃ t rs, b'.phase = .dispatching t rs := by
  cases h with
  | leave _ hp => simp [beforeDispatch, hp] at hb
  | empty hp hnil =>
    simp only [Fits, hp] at hf
    obtain ⟨rfl, hpos, -⟩ := hf
    rw [hnil] at hpos
    cases hpos
  | short hp hne hlt =>
    simp only [Fits, hp] at hf
    obtain ⟨rfl, -, -⟩ := hf
    exact absurd hg.min (not_le.2 hlt)
  | spawn hp => exact .inl rfl
  | joinOk => exact .inl rfl
  | joinErr => exact .inl rfl
  | joinPanic => exact .inl rfl
  | filterNone j keys hp ht hk hnil =>
    simp only [Fits, hp] at hf
    obtain ⟨-, -, hj⟩ := hf
    rw [hj.items ht, List.map_eq_nil_iff] at hnil
    exact absurd hnil hg.nonempty
  | filterSome => exact .inl rfl
  | batchOk items rs t hp => exact .inr ⟨_, _, rfl⟩
  | batchErr items rs e hp h =>
    simp only [Fits, hp] at hf
    obtain ⟨-, -, -, rfl, -⟩ := hf
    obtain ⟨t, ht⟩ := hg.batch b.round
    rw [ht] at h
    cases h
  | batchPanic items rs hp h =>
    simp only [Fits, hp] at hf
    obtain ⟨-, -, -, rfl, -⟩ := hf
    obtain ⟨t, ht⟩ := hg.batch b.round
    rw [ht] at h
    cases h
  | _ => simp [beforeDispatch, *] at hb

/-- A turn is no dispatch. -/
lemma Move.dispatches_turn (h : Move S b (.turn t) b' evs) : dispatches evs = [] := by
  cases h with
  | spawn => exact filterMap_spawnPreprocess (fun _ => rfl) b
  | _ => simp

end Batcher

/-- **A collected batch that goes is dispatched.** -/
lemma exists_dispatching (hs : (server S).Reachable u) (hg : Goes S (currentBatch [] u.log))
    (hb : u.batcher.beforeDispatch = true) :
    ∃ v t rs, Leads S u v ∧ v.batcher.phase = .dispatching t rs ∧
      v.commandQueue = u.commandQueue := by
  generalize hn : u.batcher.work S.config.roundSize = n
  induction n using Nat.strong_induction_on generalizing u with
  | _ n ih =>
    have hin : u.batcher.inRound = true := by
      unfold Batcher.beforeDispatch at hb
      unfold Batcher.inRound
      split at hb <;> simp_all
    obtain ⟨t, b', evs, hst⟩ := Batcher.exists_turn (S := S) hin
      (fun t rs hp => by simp [Batcher.beforeDispatch, hp] at hb)
      fun msg rs hp => by simp [Batcher.beforeDispatch, hp] at hb
    have hm := Batcher.step_move hst
    have hcol := hm.collected_eq hin
    have hlead : Leads S u { u with batcher := b', log := u.log ++ evs } :=
      .single _ (step_turn hst) rfl rfl rfl hm.dispatches_turn
    have hlt := hm.work_lt (stream hs).fits hcol
    rcases hm.onTheWay (stream hs).fits hg hb with hb' | ⟨t, rs, hp⟩
    · obtain ⟨v, t, rs, hv, hp, hq⟩ := ih _ (by rw [← hn]; dsimp only; omega)
        (hs.tail (step_turn hst)) (by rw [← currentBatch_append, currentBatch, hcol]; exact hg) hb' rfl
      exact ⟨v, t, rs, hlead.trans hv, hp, hq⟩
    · exact ⟨_, t, rs, hlead, hp, rfl⟩

/-- From the top of the loop a queue whose first batch goes comes to a dispatch. -/
lemma exists_dispatch (hs : (server S).Reachable s) (hp : s.batcher.phase = .head)
    (hq : S.config.roundSize ≤ s.commandQueue.length)
    (hg : Goes S (s.commandQueue.take S.config.roundSize)) :
    ∃ v t rs, Leads S s v ∧ v.batcher.phase = .dispatching t rs ∧
      v.commandQueue = s.commandQueue.drop S.config.roundSize := by
  obtain ⟨u, hu, hpu, hbuf, hqu⟩ := exists_full hs hp hq
  have hsu := hs.trans hu.1
  have hbatch : currentBatch [] u.log = s.commandQueue.take S.config.roundSize := by
    rw [currentBatch_collected hsu hpu, hbuf]
  obtain ⟨v, t, rs, hv, hpv, hqv⟩ := exists_dispatching hsu (hbatch ▸ hg)
    (by simp [Batcher.beforeDispatch, hpu])
  exact ⟨v, t, rs, hu.trans hv, hpv, hqv.trans hqu⟩

/-! ### A server for every configuration -/

/-- User code to which everything is fine. -/
def obligingUser : UserCode Unit Unit Unit Unit where
  preprocess _ _ := .ok ()
  batch _ _ := .ok ⟨[0], [], rfl⟩
  postprocess _ _ := .ok ()

/-- It runs under any configuration, on any target. -/
def obliging (config : ServerConfig) (target : Target) : Setup Unit Unit Unit Unit where
  config := config
  target := target
  user := obligingUser
  session := identitySession
  inputName := "input"
  outputName := "output"

section Obliging

variable {config : ServerConfig} {target : Target}

lemma goes_obliging {batch : List (Command Unit Unit)} (hmin : config.minBatchSize ≤ batch.length)
    (hpos : 1 ≤ batch.length) (hitems : ∀ cmd ∈ batch, (cmd.item obligingUser).isSome) :
    Goes (obliging config target) batch :=
  .of_items hmin hpos hitems fun _ => ⟨_, rfl⟩

/-- If its buffer can be allocated, it comes to the top of its loop, with any number of commands
queued. -/
lemma exists_obliging (hfit : ¬ target.capacityOverflow target.commandSize config.maxBatchSize)
    (n : ℕ) :
    ∃ s : State Unit Unit Unit Unit, (server (obliging config target)).Reachable s ∧
      s.batcher.phase = .head ∧ s.commandQueue.length = n ∧
      ∀ cmd ∈ s.commandQueue, (cmd.item obligingUser).isSome := by
  obtain ⟨s, hs, hp, hlen, hitems, -⟩ :=
    exists_waiting (S := obliging config target) hfit () (fun _ => ⟨(), rfl⟩) n
  exact ⟨s, hs, hp, hlen, hitems⟩

end Obliging

end OrtSuperserve

import OrtSuperserve.Once
import OrtSuperserve.Serving
import OrtSuperserve.Unserved
import OrtSuperserve.Waiting

/-!
# Configurations that serve

`from_file` takes any numbers.  Whether what it starts can answer anybody with an output is up to them:
there must be a session, the buffer must be one that can be allocated, and a round must be able to
collect `min_batch_size` commands.  Each of the three is needed in every run, whatever the user's code
and the model, and with them there is a run that serves (`servable_iff`).
-/

namespace OrtSuperserve

open Lib

/-- Some server of the configuration answers a call with an output, in some run. -/
def Servable (config : ServerConfig) (target : Target) : Prop :=
  ∃ (I P O F : Type) (S : Setup I P O F) (s : State I P O F), S.config = config ∧
    S.target = target ∧ (S.preprocessOnInfer = fun _ => config.preprocessOnInfer) ∧
    (server S).Reachable s ∧ ∃ c o, (c, .answered (.ok o)) ∈ fates s.log

/-! ### What serving needs -/

section Needs

variable {I P O F : Type} {S : Setup I P O F} {s s' : State I P O F} {a : Action I}

/-- The batcher has not come to a reply. -/
structure Unreplied (s : State I P O F) : Prop where
  awaiting : ∀ msg rs, s.batcher.phase ≠ .awaiting msg rs
  postprocessing : ∀ tasks, s.batcher.phase ≠ .postprocessing tasks
  calls : postprocessCalls s.log = []

/-- Without workers a dispatch leads to no reply. -/
lemma Step.unreplied (h : Step S s a s')
    (hd : ∀ t rs, s.batcher.phase = .dispatching t rs → S.config.numSessions = 0)
    (hs : Unreplied s) : Unreplied s' := by
  have hkeep : ∀ {evs : List (Event I P O F)}, s'.log = s.log ++ evs → postprocessCalls evs = [] →
      postprocessCalls s'.log = [] := by
    intro evs hlog hevs
    rw [hlog, postprocessCalls_append, hs.calls, hevs]
    rfl
  cases h.effect with
  | batcher l evs move log =>
    have hcalls : postprocessCalls evs = [] := by
      apply List.eq_nil_iff_forall_not_mem.2
      rintro ⟨c, row⟩ hx
      obtain ⟨tasks, hp, -⟩ := move.postprocessing hx
      exact hs.postprocessing tasks hp
    refine ⟨?_, ?_, hkeep log hcalls⟩
    · intro msg rs hp
      generalize s'.batcher = b' at move hp
      cases move with
      | sent t rs' hp' hn => exact hn (hd t rs' hp')
      | more cmd hp' => simp [hp'] at hp
      | spawn => simp [Batcher.spawnPreprocess] at hp
      | _ => simp [Batcher.nextRound] at hp
    · intro tasks hp
      generalize s'.batcher = b' at move hp
      cases move with
      | replyOk msg rs outputs hp' => exact hs.awaiting msg rs hp'
      | post tasks' k row c hp' => exact hs.postprocessing tasks' hp'
      | more cmd hp' => simp [hp'] at hp
      | spawn => simp [Batcher.spawnPreprocess] at hp
      | _ => simp [Batcher.nextRound] at hp
  | accepted cmd batcher _ log =>
    exact ⟨by rw [batcher]; exact hs.awaiting, by rw [batcher]; exact hs.postprocessing,
      hkeep log rfl⟩
  | dropped cmd batcher _ log =>
    exact ⟨by rw [batcher]; exact hs.awaiting, by rw [batcher]; exact hs.postprocessing,
      hkeep log rfl⟩
  | quiet evs batcher quiet log =>
    exact ⟨by rw [batcher]; exact hs.awaiting, by rw [batcher]; exact hs.postprocessing,
      hkeep log quiet.postprocessCalls_eq⟩

lemma unreplied (hd : ∀ u, (server S).Reachable u → ∀ t rs, u.batcher.phase = .dispatching t rs →
    S.config.numSessions = 0) (hs : (server S).Reachable s) : Unreplied s := by
  refine hs.invariant (P := Unreplied) ⟨fun _ _ h => (by cases h), fun _ h => (by cases h), rfl⟩ ?_
  intro u a v hu hi hst
  exact (server_step hst).unreplied (hd u hu) hi

/-- An output takes a dispatch to a worker. -/
lemma exists_dispatching_of_ok (hs : (server S).Reachable s) {c : ℕ} {o : O}
    (hm : (c, .answered (.ok o)) ∈ fates s.log) :
    S.config.numSessions ≠ 0 ∧
      ∃ u t rs, (server S).Reachable u ∧ u.batcher.phase = .dispatching t rs := by
  by_contra hcon
  have hnone : ∀ u, (server S).Reachable u → ∀ t rs, u.batcher.phase = .dispatching t rs →
      S.config.numSessions = 0 := by
    intro u hu t rs hp
    by_contra hn
    exact hcon ⟨hn, u, t, rs, hu, hp⟩
  have hin := (outputs hs).answered c o hm
  rw [(unreplied hnone hs).calls] at hin
  cases hin

end Needs

/-! ### What is enough -/

section Enough

variable {I P O F : Type} {S : Setup I P O F} {s : State I P O F}

/-- The dispatch to a worker that waits for a message. -/
lemma exists_delivered {t : ArrayD F} {rs : List ℕ} (hp : s.batcher.phase = .dispatching t rs)
    (hn : S.config.numSessions ≠ 0) (hw : s.workers[s.chosen S]? = some ⟨[], .receiving⟩) :
    ∃ u, (server S).Reaches s u ∧ u.batcher.phase = .awaiting (s.batcher.workerMsg S t) rs ∧
      u.batcher.round = s.batcher.round ∧
      u.workers[s.chosen S]? = some ⟨[s.batcher.workerMsg S t], .receiving⟩ := by
  have hacc : s.accepts S = true := by
    rw [State.accepts, hw]
    rfl
  have hmove := Batcher.Move.sent (S := S) (b := s.batcher) t rs hp hn
  rw [← hacc] at hmove
  refine ⟨_, .single (Step.dispatch _ _ hmove).step_eq, rfl, rfl, ?_⟩
  simp only [State.afterBatcher, List.getElem?_modify_eq, hw]
  rfl

/-- The worker takes the message, and replies. -/
lemma exists_replied {w : ℕ} {msg : WorkerMessage F} {rest : List (WorkerMessage F)}
    (hw : s.workers[w]? = some ⟨msg :: rest, .receiving⟩) {outputs : List (ArrayD F)}
    (hok : processMessage S.target S.session msg = .ok outputs) :
    ∃ u, (server S).Reaches s u ∧ u.batcher = s.batcher ∧
      u.replies.lookup msg.resultTx = some (.ok outputs) := by
  have htake := (Step.worker (S := S) w .take _ _ hw (.take msg rest rfl rfl)).step_eq
  have hlt := (List.getElem?_eq_some_iff.1 hw).1
  have hw' : (s.workers.set w ⟨rest, .processing msg⟩)[w]? = some ⟨rest, .processing msg⟩ :=
    List.getElem?_set_self hlt
  have hmove : WorkerThread.Move (I := I) (P := P) (O := O) S ⟨rest, .processing msg⟩
      s.batcher.gone w .process _ := .served msg outputs rfl hok
  have hserved := (Step.worker (S := S)
    (s := { s with workers := s.workers.set w ⟨rest, .processing msg⟩, log := s.log ++ [] })
    w .process _ _ hw' hmove).step_eq
  exact ⟨_, (Machine.Reaches.single htake).tail hserved, rfl, List.lookup_cons_self⟩

/-- The reply is received, and the first row postprocessed. -/
lemma exists_posted {msg : WorkerMessage F} {rs : List ℕ} (hp : s.batcher.phase = .awaiting msg rs)
    {outputs : List (ArrayD F)} (hr : s.replies.lookup s.batcher.round = some (.ok outputs))
    (hlen : outputs.length = rs.length) {row : ArrayD F} {c : ℕ}
    (hrow : (outputs.zip rs)[0]? = some (row, c)) {o : O} (hpost : S.user.postprocess c row = .ok o) :
    ∃ u, (server S).Reaches s u ∧ (c, .answered (.ok o)) ∈ fates u.log := by
  have hreply := (Step.reply (S := S) _ _ _ hr (.replyOk msg rs outputs hp hlen)).step_eq
  have hmove : Batcher.Move S { s.batcher with phase := .postprocessing (outputs.zip rs) }
      (.turn (.postprocessed 0)) _ _ := .post (outputs.zip rs) 0 row c rfl hrow
  have hturn := (Step.turn (s := { s with
    batcher := { s.batcher with phase := .postprocessing (outputs.zip rs) }
    replies := s.replies.eraseP fun y => y.1 == s.batcher.round
    log := s.log ++ [] }) _ _ _ hmove).step_eq
  refine ⟨_, (Machine.Reaches.single hreply).tail hturn, ?_⟩
  simp [Batcher.postprocessed, hpost]

/-- **From a dispatch to an answer.** -/
lemma exists_answered {t : ArrayD F} {rs : List ℕ} (hp : s.batcher.phase = .dispatching t rs)
    (hn : S.config.numSessions ≠ 0) (hw : s.workers[s.chosen S]? = some ⟨[], .initializing⟩)
    {outputs : List (ArrayD F)}
    (hok : processMessage S.target S.session (s.batcher.workerMsg S t) = .ok outputs)
    (hlen : outputs.length = rs.length) {row : ArrayD F} {c : ℕ}
    (hrow : (outputs.zip rs)[0]? = some (row, c)) {o : O} (hpost : S.user.postprocess c row = .ok o) :
    ∃ u, (server S).Reaches s u ∧ (c, .answered (.ok o)) ∈ fates u.log := by
  have hlt := (List.getElem?_eq_some_iff.1 hw).1
  have hinit := step_init (S := S) hw
  have hw₁ : (s.workers.set (s.chosen S) ⟨[], .receiving⟩)[s.chosen S]? = some ⟨[], .receiving⟩ :=
    List.getElem?_set_self hlt
  obtain ⟨u, hu, hpu, hround, hwu⟩ := exists_delivered (S := S)
    (s := { s with workers := s.workers.set (s.chosen S) ⟨[], .receiving⟩ }) hp hn hw₁
  obtain ⟨v, hv, hb, hr⟩ := exists_replied hwu hok
  rw [← hb] at hpu hround
  have hr : v.replies.lookup v.batcher.round = some (.ok outputs) := by
    rw [hround]
    exact hr
  obtain ⟨x, hx, hans⟩ := exists_posted hpu hr hlen hrow hpost
  exact ⟨x, (((Machine.Reaches.single hinit).trans hu).trans hv).trans hx, hans⟩

end Enough

/-! ### A server that serves -/

/-- An array of `n` units. -/
def units (n : ℕ) : ArrayD Unit := ⟨[n], List.replicate n (), by simp⟩

/-- A server to which everything is fine, and whose batches are as long as they should be. -/
def plain (config : ServerConfig) (target : Target) : Setup Unit Unit Unit Unit where
  config := config
  target := target
  user :=
    { preprocess := fun _ _ => .ok ()
      batch := fun _ items => .ok (units items.length)
      postprocess := fun _ _ => .ok () }
  session :=
    { fromArrayView := fun _ _ => .ok ()
      run := fun _ _ t => .ok [("output", .tensor (t.shape.map Int.ofNat) t.data)] }
  inputName := "input"
  outputName := "output"

section Plain

variable {config : ServerConfig} {target : Target}

/-- Its worker returns as many rows as there were items. -/
lemma processMessage_plain (config : ServerConfig) {n : ℕ} (r : ℕ) (hpos : 1 ≤ n)
    (hsize : 0 < target.arraySize) (hroom : ¬ target.capacityOverflow target.arraySize n) :
    ∃ outputs, processMessage target (plain config target).session ⟨units n, "input", "output", r⟩ =
      .ok outputs ∧ outputs.length = n := by
  have hle : n ≤ isizeMax target.bits :=
    (Nat.le_mul_of_pos_right n hsize).trans (not_lt.1 hroom)
  have hfit : nonzeroSize [n] ≤ isizeMax target.bits := by
    have hne : n ≠ 0 := by omega
    simpa [nonzeroSize, hne] using hle
  refine ⟨(units n).rows, ?_, by rw [ArrayD.length_rows]; rfl⟩
  exact processMessage_of_array rfl rfl List.lookup_cons_self rfl hfit hroom

/-- With a session, a buffer that can be allocated and a minimum within reach, it serves. -/
lemma servable_plain (hmin : config.minBatchSize ≤ config.roundSize) (hn : config.numSessions ≠ 0)
    (hfit : ¬ target.capacityOverflow target.commandSize config.maxBatchSize)
    (hsize : 0 < target.arraySize)
    (hroom : ¬ target.capacityOverflow target.arraySize config.roundSize) :
    Servable config target := by
  set S := plain config target with hS
  obtain ⟨s, hs, hp, hlen, hitems, hworkers⟩ :=
    exists_waiting (S := S) hfit () (fun _ => ⟨(), rfl⟩) config.roundSize
  have hpos := config.one_le_roundSize
  have htake : (s.commandQueue.take S.config.roundSize).length = config.roundSize := by
    rw [List.length_take, hlen]
    exact min_self _
  have hgoes : Goes S (s.commandQueue.take S.config.roundSize) := by
    refine .of_items (by rw [htake]; exact hmin) (by rw [htake]; exact hpos) ?_ fun _ => ⟨_, rfl⟩
    exact fun cmd hm => hitems cmd (List.mem_of_mem_take hm)
  obtain ⟨u, t, rs, hu, hpu, -⟩ := exists_dispatch hs hp hlen.ge hgoes
  have hsu := hs.trans hu.1
  have hfits := (stream hsu).fits
  simp only [Batcher.Fits, hpu] at hfits
  obtain ⟨-, hform, hbatched, rfl⟩ := hfits
  -- the tensor has a row for each survivor
  set l := survivors S.user (currentBatch [] u.log) with hl
  obtain rfl : units (l.map Prod.snd).length = t := Outcome.ok.inj hbatched.batch
  have hl1 : 1 ≤ l.length := List.length_pos_iff.2 hbatched.nonempty
  have hle : l.length ≤ config.roundSize := (survivors_length_le S.user _).trans hform.max
  have hroom' : ¬ target.capacityOverflow target.arraySize (l.map Prod.snd).length := by
    rw [List.length_map]
    exact not_lt.2 ((Nat.mul_le_mul_right _ hle).trans (not_lt.1 hroom))
  obtain ⟨outputs, hok, hlen'⟩ := processMessage_plain config u.batcher.round
    (by simpa using hl1) hsize hroom'
  rw [List.length_map] at hlen'
  obtain ⟨row, outputs', rfl⟩ : ∃ row outputs', outputs = row :: outputs' :=
    List.exists_cons_of_length_pos (by omega)
  obtain ⟨⟨c, p⟩, l', hcons⟩ : ∃ x l', l = x :: l' := List.exists_cons_of_length_pos hl1
  have hw : u.workers[u.chosen S]? = some ⟨[], .initializing⟩ := by
    rw [hu.2.workers, hworkers, List.getElem?_replicate]
    exact if_pos (Nat.mod_lt _ (Nat.pos_of_ne_zero hn))
  have hrow : ((row :: outputs').zip (l.map Prod.fst))[0]? = some (row, c) := by
    rw [hcons]
    rfl
  obtain ⟨v, hv, hans⟩ := exists_answered hpu hn hw hok (by simpa using hlen') hrow (o := ()) rfl
  exact ⟨_, _, _, _, S, v, rfl, rfl, rfl, hsu.trans hv, c, (), hans⟩

end Plain

/-- Whether `from_file` succeeds is not up to what the batcher reads. -/
lemma isOk_fromFile {H L C M I P O F : Type} (E : Environment H L C M I P O F) (host : Host L C M)
    (path : String) (c : StartConfig L C) (config : ServerConfig) :
    (E.fromFile host path { c with toServerConfig := config }).isOk =
      (E.fromFile host path c).isOk := by
  show (E.openSession host path c >>= _).isOk = (E.openSession host path c >>= _).isOk
  cases E.openSession host path c with
  | error e => rfl
  | ok session =>
    show (tensorName c.inputName _ _ >>= _).isOk = (tensorName c.inputName _ _ >>= _).isOk
    cases tensorName c.inputName (E.inputs session) "Model has no inputs" with
    | error e => rfl
    | ok inputName =>
      show (tensorName c.outputName _ _ >>= _).isOk = (tensorName c.outputName _ _ >>= _).isOk
      cases tensorName c.outputName (E.outputs session) "Model has no outputs" <;> rfl

/-- **Which configurations serve.**  `from_file` accepts them all alike.  On a target with room for an
array for each command of a full round, there is a server of the configuration that answers some call
with an output in some run, if and only if a round can collect `min_batch_size` commands, there is a
session, and the batcher can allocate its buffer. -/
theorem servable_iff {H L C M I P O F : Type} (config : ServerConfig) (target : Target)
    (hsize : 0 < target.arraySize)
    (hroom : ¬ target.capacityOverflow target.arraySize config.roundSize) :
    (∀ (E : Environment H L C M I P O F) (host : Host L C M) (path : String) (c : StartConfig L C),
      (E.fromFile host path { c with toServerConfig := config }).isOk =
        (E.fromFile host path c).isOk) ∧
    (Servable config target ↔
      config.minBatchSize ≤ config.roundSize ∧ config.numSessions ≠ 0 ∧
        ¬ target.capacityOverflow target.commandSize config.maxBatchSize) := by
  refine ⟨fun E host path c => isOk_fromFile E host path c config, ?_, ?_⟩
  · rintro ⟨I, P, O, F, S, s, rfl, rfl, -, hs, c, o, hm⟩
    obtain ⟨hn, u, t, rs, hu, hp⟩ := exists_dispatching_of_ok hs hm
    refine ⟨?_, hn, ?_⟩
    · have hfits := (stream hu).fits
      simp only [Batcher.Fits, hp] at hfits
      exact hfits.2.1.min.trans hfits.2.1.max
    · intro hover
      rcases neverStarted hu hover with hp' | hp'
      · rw [hp] at hp'
        cases hp'
      · rw [hp] at hp'
        cases hp'
  · rintro ⟨hmin, hn, hfit⟩
    exact servable_plain hmin hn hfit hsize hroom

/-- The default configuration serves.  Batches of one, of which two are asked for, are accepted and do
not. -/
theorem servable_iff_sample : Servable {} {} ∧ ¬ Servable greedyConfig {} ∧
    (sampleEnvironment.fromFile (sampleHost true) "model.onnx"
      { sampleConfig with toServerConfig := greedyConfig }).isOk = true := by
  have hroom : ∀ n ≤ 8, ¬ Target.capacityOverflow {} 112 n := by decide
  obtain ⟨-, hdefault⟩ := servable_iff (H := Bool) (L := Unit) (C := Unit) (M := String) (I := ℕ)
    (P := ℕ) (O := ℕ) (F := ℕ) {} {} (by decide) (hroom 8 le_rfl)
  obtain ⟨hok, hgreedy⟩ := servable_iff greedyConfig {} (by decide) (hroom 1 (by decide))
  refine ⟨hdefault.2 (by decide), fun h => absurd (hgreedy.1 h).1 (by decide), ?_⟩
  rw [hok sampleEnvironment]
  rfl

end OrtSuperserve

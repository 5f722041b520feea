import OrtSuperserve.Shutdown
import OrtSuperserve.Dispatch
import OrtSuperserve.Lib.BatchQueue

/-!
# What the server is for

The specification of the server, as a batching service of the library: its requests are the commands,
its batches are at most `max 1 max_batch_size` long, and `Answer` says what the caller of a command can
be answered in a round, going by its batch and the user's code alone.  The service is degraded once a
worker has panicked, and has crashed when the batcher has.

`server_refines`: every run of the server is one of the specification, with the commands accepted, the
batches collected and what was sent on the responders as its history.
-/

namespace OrtSuperserve

open Lib

variable {I P O F : Type}

/-! ### The specification -/

/-- The message of the round `r` with the tensor `t`. -/
def Setup.message (S : Setup I P O F) (r : ℕ) (t : ArrayD F) : WorkerMessage F :=
  ⟨t, S.inputName, S.outputName, r⟩

/-- What the caller `c` can get from its batch in the round `r`.  The caller of a command whose
preprocessing failed gets that error, and the others get the error of the batching, of the worker or of
the count check, or what their own postprocessing makes of their row. -/
inductive Answer (S : Setup I P O F) (degraded : Bool) (r : ℕ) (batch : List (Command I P)) (c : ℕ) :
    Fate O → Prop where
  | short (h : batch.length < S.config.minBatchSize) (hc : c ∈ batch.map Command.responder) :
      Answer S degraded r batch c (.answered (.error .insufficientBatchSize))
  | failed (hf : Formed S.config batch) (hc : c ∈ failures S.user batch) :
      Answer S degraded r batch c (.answered (.error .preprocessingFailed))
  | batching (hf : Formed S.config batch) (hc : c ∈ (survivors S.user batch).map Prod.fst) (e : String)
      (h : S.user.batch r ((survivors S.user batch).map Prod.snd) = .err e) :
      Answer S degraded r batch c (.answered (.error (.batchingFailed e)))
  | unavailable (hf : Formed S.config batch) (hc : c ∈ (survivors S.user batch).map Prod.fst)
      (t : ArrayD F) (ht : Batched S.user r batch t) (hd : degraded = true) :
      Answer S degraded r batch c (.answered (.error .workerUnavailable))
  | inference (hf : Formed S.config batch) (hc : c ∈ (survivors S.user batch).map Prod.fst)
      (t : ArrayD F) (ht : Batched S.user r batch t) (e : String)
      (h : processMessage S.target S.session (S.message r t) = .err e) :
      Answer S degraded r batch c (.answered (.error (.inferenceFailed e)))
  | closed (hf : Formed S.config batch) (hc : c ∈ (survivors S.user batch).map Prod.fst)
      (t : ArrayD F) (ht : Batched S.user r batch t) (hd : degraded = true) :
      Answer S degraded r batch c (.answered (.error .workerChannelClosed))
  | mismatch (hf : Formed S.config batch) (hc : c ∈ (survivors S.user batch).map Prod.fst)
      (t : ArrayD F) (ht : Batched S.user r batch t) (outputs : List (ArrayD F))
      (h : processMessage S.target S.session (S.message r t) = .ok outputs)
      (hl : outputs.length ≠ (survivors S.user batch).length) :
      Answer S degraded r batch c (.answered (.error .outputCountMismatch))
  | post (hf : Formed S.config batch) (row : ArrayD F) (h : RowOf S (Reply.For S) r batch c row) :
      Answer S degraded r batch c (postFate S c row)

lemma Answer.mono {S : Setup I P O F} {r : ℕ} {batch : List (Command I P)} {c : ℕ} {x : Fate O}
    (h : Answer S false r batch c x) : Answer S true r batch c x := by
  cases h with
  | short h hc => exact .short h hc
  | failed hf hc => exact .failed hf hc
  | batching hf hc e h => exact .batching hf hc e h
  | unavailable hf hc t ht => exact .unavailable hf hc t ht rfl
  | inference hf hc t ht e h => exact .inference hf hc t ht e h
  | closed hf hc t ht => exact .closed hf hc t ht rfl
  | mismatch hf hc t ht outputs h hl => exact .mismatch hf hc t ht outputs h hl
  | post hf row h => exact .post hf row h

lemma mem_batch_of_survivors {user : UserCode I P O F} {batch : List (Command I P)} {c : ℕ}
    (h : c ∈ (survivors user batch).map Prod.fst) : c ∈ batch.map Command.responder :=
  (survivors_perm user batch).subset (List.mem_append_right _ h)

lemma fst_mem_of_rowOf {S : Setup I P O F} {V : WorkerMessage F → Reply F → Prop} {r c : ℕ}
    {batch : List (Command I P)} {row : ArrayD F} (h : RowOf S V r batch c row) :
    c ∈ (survivors S.user batch).map Prod.fst := by
  obtain ⟨t, outputs, k, p, -, -, -, hk, -⟩ := h
  exact List.mem_map.2 ⟨(c, p), List.mem_of_getElem? hk, rfl⟩

/-- The answers of a batch go to its callers. -/
lemma Answer.mem {S : Setup I P O F} {degraded : Bool} {r : ℕ} {batch : List (Command I P)} {c : ℕ}
    {x : Fate O} (h : Answer S degraded r batch c x) : c ∈ batch.map Command.responder := by
  cases h with
  | short h hc => exact hc
  | failed hf hc => exact (survivors_perm S.user batch).subset (List.mem_append_left _ hc)
  | batching hf hc => exact mem_batch_of_survivors hc
  | unavailable hf hc => exact mem_batch_of_survivors hc
  | inference hf hc => exact mem_batch_of_survivors hc
  | closed hf hc => exact mem_batch_of_survivors hc
  | mismatch hf hc => exact mem_batch_of_survivors hc
  | post hf row h => exact mem_batch_of_survivors (fst_mem_of_rowOf h)

/-- The rules of the service. -/
def batching (S : Setup I P O F) : BatchQueue.Rules (Command I P) ℕ (Fate O) where
  key := Command.responder
  maxSize := S.config.roundSize
  answer := Answer S
  mono := Answer.mono
  lost := .dropped

/-- The panic of a worker. -/
def Event.workerPanic : Event I P O F → Bool
  | .panic (.worker _) => true
  | _ => false

/-- The batcher task has unwound. -/
def Batcher.unwound (b : Batcher I P F) : Bool :=
  match b.phase with
  | .panicked => true
  | _ => false

/-- **The abstraction**: a server as the service sees it. -/
def State.service (s : State I P O F) : BatchQueue.Service (Command I P) ℕ (Fate O) where
  submitted := accepted s.log
  taken := collected s.log
  answers := fates s.log
  degraded := s.log.any Event.workerPanic
  crashed := s.batcher.unwound

lemma Batcher.unwound_iff {b : Batcher I P F} : b.unwound = true ↔ b.phase = .panicked := by
  unfold Batcher.unwound
  split <;> simp_all

/-! ### The answers of one step of the batcher -/

namespace Batcher

variable {S : Setup I P O F} {batch : List (Command I P)} {b b' : Batcher I P F}
  {a : BatcherAction I P F} {evs : List (Event I P O F)} {degraded : Bool}

/-- **What a step sends, the specification allows**, as long as the batcher does not unwind. -/
theorem Move.answers (h : Move S b a b' evs) (hf : b.Fits S (Reply.For S) batch)
    (hp' : b'.phase ≠ .panicked)
    (hr : ∀ msg rs r, b.phase = .awaiting msg rs → a = .reply r → Reply.For S msg r)
    (hu : a = .sent false → S.config.numSessions ≠ 0 → degraded = true)
    (hc : a = .reply .closed → degraded = true) {c : ℕ} {x : Fate O} (hm : (c, x) ∈ fates evs) :
    Answer S degraded b.round batch c x := by
  have hsend : ∀ {e : Error} {cs : List ℕ}, (c, x) ∈ fates (sendErr e cs : List (Event I P O F)) →
      c ∈ cs ∧ x = .answered (.error e) := by
    intro e cs hm
    rw [fates_sendErr, List.mem_map] at hm
    obtain ⟨d, hd, heq⟩ := hm
    obtain ⟨rfl, rfl⟩ := Prod.mk.inj heq
    exact ⟨hd, rfl⟩
  cases h with
  | short hp hne hlt =>
    simp only [Fits, hp] at hf
    obtain ⟨hc, rfl⟩ := hsend hm
    obtain ⟨rfl, -⟩ := hf
    exact .short hlt hc
  | spawn => rw [fates_spawnPreprocess] at hm; cases hm
  | filterNone j keys hp ht hk h =>
    simp only [Fits, hp] at hf
    obtain ⟨-, hform, hj⟩ := hf
    have hnil : survivors S.user batch = [] := by
      rw [hj.items ht] at h
      exact List.map_eq_nil_iff.1 h
    rw [hj.kept ht hk, hnil, hj.failed ht hk, fates_append, List.mem_append] at hm
    rcases hm with hm | hm
    · obtain ⟨hc, rfl⟩ := hsend hm
      exact .failed hform hc
    · cases hm
  | filterSome j keys hp ht hk h =>
    simp only [Fits, hp] at hf
    obtain ⟨-, hform, hj⟩ := hf
    rw [hj.failed ht hk] at hm
    obtain ⟨hc, rfl⟩ := hsend hm
    exact .failed hform hc
  | batchErr items rs e hp h =>
    obtain ⟨hc, rfl⟩ := hsend (e := .batchingFailed e) (by simpa using hm)
    simp only [Fits, hp] at hf
    obtain ⟨-, hform, -, rfl, rfl⟩ := hf
    exact .batching hform hc e h
  | batchPanic => exact absurd rfl hp'
  | divZero => exact absurd rfl hp'
  | refused t rs hp hn =>
    obtain ⟨hc, rfl⟩ := hsend (e := .workerUnavailable) (by simpa using hm)
    simp only [Fits, hp] at hf
    obtain ⟨-, hform, ht, rfl⟩ := hf
    exact .unavailable hform hc t ht (hu rfl hn)
  | replyFailed msg rs r e hp h =>
    have hfor := hr msg rs r hp rfl
    simp only [Fits, hp] at hf
    obtain ⟨-, hform, ⟨t, ht, rfl⟩, rfl⟩ := hf
    obtain ⟨hmem, rfl⟩ := hsend hm
    cases r with
    | ok outputs =>
      obtain ⟨hl, rfl⟩ := h
      exact .mismatch hform hmem t ht outputs hfor (by rwa [List.length_map] at hl)
    | err e' =>
      obtain rfl : e = .inferenceFailed e' := h
      exact .inference hform hmem t ht e' hfor
    | closed =>
      obtain rfl : e = .workerChannelClosed := h
      exact .closed hform hmem t ht (hc rfl)
  | post tasks k rawOutput d hp hk =>
    have hrow := hf.rowOf hp (List.mem_of_getElem? hk)
    simp only [Fits, hp] at hf
    rw [fates_postprocessed, List.mem_singleton] at hm
    obtain ⟨rfl, rfl⟩ := Prod.mk.inj hm
    exact .post hf.2.1 rawOutput hrow
  | _ => simp at hm

/-- A batcher that unwinds drops the callers of its batch. -/
lemma Move.lost (h : Move S b a b' evs) (hf : b.Fits S (Reply.For S) batch)
    (hp' : b'.phase = .panicked) :
    ∃ cs : List ℕ, fates evs = cs.map (fun c => (c, .dropped)) ∧
      ∀ c ∈ cs, c ∈ batch.map Command.responder := by
  have hdrop : ∀ {cs : List ℕ}, fates evs = fates (dropAll cs : List (Event I P O F)) →
      cs = (survivors S.user batch).map Prod.fst →
      ∃ cs : List ℕ, fates evs = cs.map (fun c => (c, .dropped)) ∧
        ∀ c ∈ cs, c ∈ batch.map Command.responder := by
    rintro cs he rfl
    exact ⟨_, he.trans (fates_dropAll _), fun c hc => mem_batch_of_survivors hc⟩
  cases h with
  | overflow => exact ⟨[], rfl, by simp⟩
  | batchPanic items rs hp =>
    simp only [Fits, hp] at hf
    exact hdrop rfl hf.2.2.2.2
  | divZero t rs accepted hp =>
    simp only [Fits, hp] at hf
    exact hdrop rfl hf.2.2.2
  | more cmd hp => simp [hp] at hp'
  | spawn => simp [spawnPreprocess] at hp'
  | _ => simp [nextRound] at hp'

/-- The batcher does not report the panics of workers. -/
lemma Move.workerPanic_eq (h : Move S b a b' evs) : evs.any Event.workerPanic = false := by
  have hpost : ∀ row c, (postprocessed S row c).any Event.workerPanic = false := by
    intro row c
    unfold postprocessed
    cases S.user.postprocess c row <;> rfl
  cases h with
  | spawn => simp [spawnPreprocess, Event.workerPanic]
  | post tasks k rawOutput c => exact hpost rawOutput c
  | _ => simp [sendErr, dropAll, Event.workerPanic]

end Batcher

/-! ### The simulation -/

section Simulation

variable {S : Setup I P O F} {s s' : State I P O F} {a : Action I}

/-- While the batcher collects, everything it collected before is answered. -/
lemma settled_of_collecting (hs : (server S).Reachable s) (hp : s.batcher.phase = .collecting) :
    s.service.Settled (batching S) := by
  intro cmd hm
  have hst := stream hs
  have hcalls := calls hs
  have hne : s.batcher.phase ≠ .panicked := by simp [hp]
  have hpend : s.batcher.pending = s.batcher.batchBuffer := by simp only [Batcher.pending, hp]
  have hrec : cmd ∈ received s.log := by
    rw [hst.taken]
    exact List.mem_append_left _ hm
  have hacc : cmd ∈ accepted s.log := by
    rw [hst.accepted_eq hne]
    exact List.mem_append_left _ hrec
  have hone : s.responders.count cmd.responder = 1 :=
    List.count_eq_one_of_mem hcalls.nodup (List.mem_map_of_mem hacc)
  have hbuf : s.inBuffer cmd.responder = 0 := by
    have hnd := hcalls.nodup
    rw [State.responders, hst.accepted_eq hne, hst.taken, hpend, List.map_append, List.map_append,
      List.nodup_append', List.nodup_append'] at hnd
    exact List.count_eq_zero.2 fun hb => hnd.1.2.2 (List.mem_map_of_mem hm) hb
  have hled := ledger hs cmd.responder
  have hnone : s.inBatch cmd.responder = 0 ∧ s.inTasks cmd.responder = 0 := by
    simp [State.inBatch, State.inTasks, hp, Phase.batchResponders, Phase.taskResponders]
  rw [hone, inQueue_of_received hcalls hst hne hrec, hbuf, hnone.1, hnone.2] at hled
  obtain ⟨x, hx⟩ := used_of_answers (s := s) (c := cmd.responder) (by omega)
  exact List.mem_map.2 ⟨_, hx, rfl⟩

/-- A batcher that sends something on a responder works on a batch, or unwinds. -/
lemma Batcher.Move.inRound_of_fates {b b' : Batcher I P F} {l : BatcherAction I P F}
    {evs : List (Event I P O F)} (h : Batcher.Move S b l b' evs) (hne : fates evs ≠ []) :
    b.inRound = true := by
  cases h with
  | overflow => simp at hne
  | start => simp at hne
  | first => simp at hne
  | stop => simp at hne
  | more => simp at hne
  | leave => simp at hne
  | _ => simp [Batcher.inRound, *]

/-- What a step collects is the buffer of the collection loop. -/
lemma Batcher.Move.of_collected {b b' : Batcher I P F} {l : BatcherAction I P F}
    {evs : List (Event I P O F)} (h : Batcher.Move S b l b' evs) (hne : collected evs ≠ []) :
    b.phase = .collecting ∧ evs = [.collected b.batchBuffer] ∧ b' = { b with phase := .collected } := by
  cases h with
  | spawn => exact absurd (collected_spawnPreprocess b) hne
  | leave a hp => exact ⟨hp, rfl, rfl⟩
  | _ => simp at hne

section Batcher

variable {l : BatcherAction I P F} {evs : List (Event I P O F)}

/-- The state of the service after a step of the batcher. -/
lemma service_batcher (hm : Batcher.Move S s.batcher l s'.batcher evs) (hlog : s'.log = s.log ++ evs) :
    s'.service =
      { s.service with
        taken := collected s.log ++ collected evs
        answers := fates s.log ++ fates evs
        crashed := s'.batcher.unwound } := by
  simp only [State.service, hlog, accepted_append, hm.accepted_eq, List.append_nil, collected_append,
    fates_append, List.any_append, hm.workerPanic_eq, Bool.or_false]

lemma unwound_of_move (hm : Batcher.Move S s.batcher l s'.batcher evs) :
    s.batcher.unwound = false := by
  have halive := hm.alive
  have hne := Batcher.ne_panicked halive
  by_contra h
  exact hne (Batcher.unwound_iff.1 (by simpa using h))

/-- The collection loop ends by taking a batch off the queue. -/
lemma reaches_take (hs : (server S).Reachable s) (hs' : (server S).Reachable s')
    (hm : Batcher.Move S s.batcher l s'.batcher evs) (hlog : s'.log = s.log ++ evs)
    (hne : collected evs ≠ []) :
    (BatchQueue.machine (batching S)).Reaches s.service s'.service := by
  have hserv := service_batcher hm hlog
  have halive := unwound_of_move hm
  obtain ⟨hp, rfl, hb'⟩ := hm.of_collected hne
  have hst := stream hs
  have hpend : s.batcher.pending = s.batcher.batchBuffer := by simp only [Batcher.pending, hp]
  have hwait : s.service.waiting = s.batcher.batchBuffer ++ s.commandQueue := by
    have horder := hst.accepted_eq (by simp [hp])
    rw [hst.taken, hpend, List.append_assoc] at horder
    rw [BatchQueue.Service.waiting, State.service]
    simp only
    rw [horder, List.drop_left]
  have hsize := (stream hs').sizes s.batcher.batchBuffer (by rw [hlog]; simp)
  have hallows : s.service.Allows (batching S) (.take s.batcher.batchBuffer.length) := by
    refine ⟨halive, settled_of_collecting hs hp, hsize.1, hsize.2, ?_⟩
    rw [hwait, List.length_append]
    exact Nat.le_add_right _ _
  have hnext := BatchQueue.reaches_of_allows hallows
  have hunw : s'.batcher.unwound = false := by rw [hb']; rfl
  have heq : s.service.next (batching S) (.take s.batcher.batchBuffer.length) = s'.service := by
    rw [hserv, hunw, BatchQueue.Service.next, hwait, List.take_left]
    simp [State.service, halive]
  rw [heq] at hnext
  exact hnext

/-- During a round the answers are given one after the other. -/
lemma reaches_answered (hs : (server S).Reachable s) (hs' : (server S).Reachable s')
    (hm : Batcher.Move S s.batcher l s'.batcher evs) (hlog : s'.log = s.log ++ evs)
    (hcol : collected evs = []) (hp' : s'.batcher.phase ≠ .panicked)
    (hr : ∀ r, l = .reply r → s.replies.lookup s.batcher.round = some r)
    (hu : l = .sent false → S.config.numSessions ≠ 0 → s.log.any Event.workerPanic = true)
    (hc : l = .reply .closed → s.log.any Event.workerPanic = true) :
    (BatchQueue.machine (batching S)).Reaches s.service s'.service := by
  have hserv := service_batcher hm hlog
  have halive := unwound_of_move hm
  have hunw : s'.batcher.unwound = false := by
    by_contra h
    exact hp' (Batcher.unwound_iff.1 (by simpa using h))
  have heq : s'.service = { s.service with answers := s.service.answers ++ fates evs } := by
    rw [hserv, hunw, hcol, List.append_nil]
    simp [State.service, halive]
  rw [heq]
  by_cases hnil : fates evs = []
  · rw [hnil, List.append_nil]
    exact Machine.Reaches.refl _
  have hst := stream hs
  have hround := hm.inRound_of_fates hnil
  have hindex := hst.index (Batcher.ne_panicked hm.alive)
  rw [hround, Bool.toNat_true] at hindex
  have hans : ∀ x ∈ fates evs, Answer S (s.log.any Event.workerPanic) (s.service.taken.length - 1)
      s.service.batch x.1 x.2 := by
    intro x hx
    have hround' : s.service.taken.length - 1 = s.batcher.round := by
      simp only [State.service]
      omega
    rw [hround']
    exact hm.answers hst.fits hp'
      (fun msg rs r hp hl => (inFlight hs).reply_for hp (hr r hl)) hu hc hx
  refine BatchQueue.reaches_answers halive (fun x hx => (hans x hx).mem) hans ?_
  have hnd := fates_nodup hs'
  rw [hlog, fates_append, List.map_append] at hnd
  exact hnd

/-- A batcher that unwinds takes its batch with it. -/
lemma reaches_crashed (hs : (server S).Reachable s) (hs' : (server S).Reachable s')
    (hm : Batcher.Move S s.batcher l s'.batcher evs) (hlog : s'.log = s.log ++ evs)
    (hp' : s'.batcher.phase = .panicked) :
    (BatchQueue.machine (batching S)).Reaches s.service s'.service := by
  have hserv := service_batcher hm hlog
  have hcol : collected evs = [] := by
    by_contra hne
    obtain ⟨-, -, hb'⟩ := hm.of_collected hne
    rw [hb'] at hp'
    cases hp'
  obtain ⟨cs, hcs, hmem⟩ := hm.lost (stream hs).fits hp'
  have hcrash := BatchQueue.reaches_of_allows (R := batching S) (s := s.service) (a := .crash) trivial
  refine hcrash.trans ?_
  have hlost := BatchQueue.reaches_lost (R := batching S) (s := s.service.next (batching S) .crash)
    (l := cs) rfl ?_ ?_
  · have heq : s'.service = { s.service.next (batching S) .crash with
        answers := (s.service.next (batching S) .crash).answers ++ cs.map fun c => (c, .dropped) } := by
      rw [hserv, hcol, List.append_nil, hcs, Batcher.unwound_iff.2 hp']
      rfl
    rw [heq]
    exact hlost
  · intro c hc
    obtain ⟨cmd, hcmd, rfl⟩ := List.mem_map.1 (hmem c hc)
    refine List.mem_map_of_mem ((collected_prefix_accepted (stream hs)).subset ?_)
    have hcur : currentBatch [] s.log ∈ collected s.log ∨ currentBatch [] s.log = [] := by
      rw [currentBatch, List.getLastD_eq_getLast?]
      cases h : (collected s.log).getLast? with
      | none => exact .inr rfl
      | some b => exact .inl (List.mem_of_getLast? h)
    rcases hcur with hcur | hcur
    · exact List.mem_flatten.2 ⟨_, hcur, hcmd⟩
    · rw [hcur] at hcmd
      cases hcmd
  · have hnd := fates_nodup hs'
    rw [hlog, fates_append, List.map_append, hcs, List.map_map] at hnd
    have hids : cs.map (Prod.fst ∘ fun c => (c, (Fate.dropped : Fate O))) = cs := List.map_id cs
    rw [hids] at hnd
    exact hnd

/-- A step of the batcher is a run of the service. -/
lemma reaches_batcher (hs : (server S).Reachable s) (hs' : (server S).Reachable s')
    (hm : Batcher.Move S s.batcher l s'.batcher evs) (hlog : s'.log = s.log ++ evs)
    (hr : ∀ r, l = .reply r → s.replies.lookup s.batcher.round = some r)
    (hu : l = .sent false → S.config.numSessions ≠ 0 → s.log.any Event.workerPanic = true)
    (hc : l = .reply .closed → s.log.any Event.workerPanic = true) :
    (BatchQueue.machine (batching S)).Reaches s.service s'.service := by
  by_cases hp' : s'.batcher.phase = .panicked
  · exact reaches_crashed hs hs' hm hlog hp'
  · by_cases hcol : collected evs = []
    · exact reaches_answered hs hs' hm hlog hcol hp' hr hu hc
    · exact reaches_take hs hs' hm hlog hcol

end Batcher

/-! ### The other steps -/

lemma workerPanic_of_mem {w : ℕ} (h : .panic (.worker w) ∈ s.log) :
    s.log.any Event.workerPanic = true := List.any_eq_true.2 ⟨_, h, rfl⟩

/-- A dispatch is refused by a worker that died. -/
lemma workerPanic_of_refused (hs : (server S).Reachable s) (hg : s.batcher.gone = false)
    (hn : S.config.numSessions ≠ 0) (h : s.accepts S = false) :
    s.log.any Event.workerPanic = true := by
  have hlt : s.chosen S < s.workers.length := by
    rw [(rota hs).workers]
    exact Nat.mod_lt _ (Nat.pos_of_ne_zero hn)
  have hget := List.getElem?_eq_getElem hlt
  have halive : (s.workers[s.chosen S]).alive = false := by
    simpa [State.accepts, hget] using h
  have hmem : s.workers[s.chosen S] ∈ s.workers := List.getElem_mem hlt
  cases hst : (s.workers[s.chosen S]).state with
  | ended =>
    have := (worker_ended hs _ hmem hst).1
    rw [hg] at this
    cases this
  | dead =>
    obtain ⟨w, hw⟩ := panic_of_dead hs _ hmem hst
    exact workerPanic_of_mem hw
  | _ => simp [WorkerThread.alive, hst] at halive

/-- A reply channel is dropped by a worker that died. -/
def State.ClosedByPanic (s : State I P O F) : Prop :=
  ∀ x ∈ s.replies, x.2 = .closed → s.log.any Event.workerPanic = true

lemma Step.closedByPanic (h : Step S s a s') (hs : (server S).Reachable s) (hc : s.ClosedByPanic) :
    s'.ClosedByPanic := by
  have hold : ∀ x ∈ s.replies, x.2 = .closed → s'.log.any Event.workerPanic = true := by
    intro x hx he
    obtain ⟨e, hm, hp⟩ := List.any_eq_true.1 (hc x hx he)
    exact List.any_eq_true.2 ⟨e, h.log_grows.subset hm, hp⟩
  cases h with
  | client a _ hm => cases hm <;> exact hold
  | reply r b' evs hr hm => exact fun x hx => hold x (List.mem_of_mem_eraseP hx)
  | worker w b t r ht hm =>
    intro x hx he
    rcases List.mem_append.1 hx with hx | hx
    · cases hm with
      | panicked msg => exact workerPanic_of_mem (w := w) (by simp)
      | dieBusy msg => exact workerPanic_of_mem (w := w) (by simp)
      | discard msg rest hd =>
        obtain ⟨v, hv⟩ := panic_of_dead hs t (List.mem_of_getElem? ht) hd
        exact workerPanic_of_mem (w := v) (by simpa using hv)
      | served msg outputs =>
        obtain rfl := List.mem_singleton.1 hx
        cases he
      | failed msg e =>
        obtain rfl := List.mem_singleton.1 hx
        cases he
      | _ => cases hx
    · exact hold x hx he
  | _ => exact hold

lemma closed_by_panic (hs : (server S).Reachable s) : s.ClosedByPanic := by
  refine hs.invariant (P := State.ClosedByPanic) ?_ ?_
  · intro x hx
    cases hx
  · intro u a v hu hc hst
    exact (server_step hst).closedByPanic hu hc

/-- A step that leaves only quiet events may degrade the service. -/
lemma reaches_quiet {evs : List (Event I P O F)} (hb : s'.batcher = s.batcher) (hq : Quiet evs)
    (hlog : s'.log = s.log ++ evs) :
    (BatchQueue.machine (batching S)).Reaches s.service s'.service := by
  have hserv : s'.service = { s.service with degraded := s'.log.any Event.workerPanic } := by
    have hacc : accepted evs = [] := hq.accepted_eq
    have hcol : collected evs = [] := hq.collected_eq
    have hfates : fates evs = [] := hq.fates_eq
    simp only [State.service, hlog, hb, accepted_append, collected_append, fates_append, hacc, hcol,
      hfates, List.append_nil]
  rw [hserv, hlog, List.any_append]
  cases hd : evs.any Event.workerPanic with
  | false =>
    rw [Bool.or_false]
    exact Machine.Reaches.refl _
  | true =>
    rw [Bool.or_true]
    exact BatchQueue.reaches_of_allows (R := batching S) (s := s.service) (a := .degrade) trivial

/-- A command sent is a request submitted. -/
lemma reaches_submit (hs : (server S).Reachable s) {c : ℕ} {call : Call I P O} {cmd : Command I P}
    (hst : Step S s (.client (.send c))
      { s.setCall c call .waiting with
        commandQueue := s.commandQueue ++ [cmd]
        log := s.log ++ [.accepted cmd] })
    (hg : s.batcher.gone = false) :
    (BatchQueue.machine (batching S)).Reaches s.service
      (State.service { s.setCall c call .waiting with
        commandQueue := s.commandQueue ++ [cmd]
        log := s.log ++ [.accepted cmd] }) := by
  have hnd := (calls (hs.tail hst.step_eq)).nodup
  have hallows : s.service.Allows (batching S) (.submit cmd) := by
    refine ⟨?_, ?_⟩
    · have hne := Batcher.ne_panicked hg
      by_contra h
      exact hne (Batcher.unwound_iff.1 (by simpa [State.service] using h))
    · rw [State.responders, accepted_append, List.map_append, List.nodup_append'] at hnd
      exact fun hm => hnd.2.2 hm (List.mem_singleton_self _)
  have hnext := BatchQueue.reaches_of_allows hallows
  have heq : s.service.next (batching S) (.submit cmd) =
      State.service { s.setCall c call .waiting with
        commandQueue := s.commandQueue ++ [cmd]
        log := s.log ++ [.accepted cmd] } := by
    simp [BatchQueue.Service.next, State.service, State.setCall, Event.workerPanic]
  rw [heq] at hnext
  exact hnext

/-- A command discarded is a request lost. -/
lemma reaches_lose (hs : (server S).Reachable s) {cmd : Command I P} {rest : List (Command I P)}
    (hst : Step S s .discard
      { s with commandQueue := rest, log := s.log ++ [.drop cmd.responder] })
    (hq : s.commandQueue = cmd :: rest) (hg : s.batcher.gone = true) :
    (BatchQueue.machine (batching S)).Reaches s.service
      (State.service { s with commandQueue := rest, log := s.log ++ [.drop cmd.responder] }) := by
  -- a batcher that has stopped has left no command behind
  have hphase : s.batcher.phase = .panicked := by
    unfold Batcher.gone at hg
    split at hg
    · rename_i hp
      rw [(stream hs).stopped hp] at hq
      cases hq
    · assumption
    · cases hg
  have hnd := fates_nodup (hs.tail hst.step_eq)
  have hallows : s.service.Allows (batching S) (.lose cmd.responder) := by
    refine ⟨Batcher.unwound_iff.2 hphase, ?_, ?_⟩
    · obtain ⟨lost, hacc, -⟩ := (stream hs).order
      have hmem : cmd ∈ accepted s.log := by
        rw [hacc, hq]
        simp
      exact List.mem_map_of_mem hmem
    · rw [fates_append, List.map_append, List.nodup_append'] at hnd
      exact fun hm => hnd.2.2 hm (by simp)
  have hnext := BatchQueue.reaches_of_allows hallows
  have heq : s.service.next (batching S) (.lose cmd.responder) =
      State.service { s with commandQueue := rest, log := s.log ++ [.drop cmd.responder] } := by
    simp [BatchQueue.Service.next, State.service, Event.workerPanic, batching]
  rw [heq] at hnext
  exact hnext

/-- A step of the server is a run of the service. -/
lemma reaches_of_step {a : Action I} (hs : (server S).Reachable s)
    (hst : (server S).step s a = some s') :
    (BatchQueue.machine (batching S)).Reaches s.service s'.service := by
  have hs' := hs.tail hst
  have hnone : ∀ {l : BatcherAction I P F}, (∀ b, l ≠ .sent b) →
      (l = .sent false → S.config.numSessions ≠ 0 → s.log.any Event.workerPanic = true) :=
    fun h he => absurd he (h false)
  cases server_step hst with
  | client a _ hm =>
    cases hm with
    | prepare c call => exact reaches_quiet (S := S) rfl (quiet_prepare S c call.input) rfl
    | send c call cmd hc hsc hg => exact reaches_submit hs (server_step hst) hg
    | _ => exact reaches_quiet (S := S) rfl Quiet.nil (List.append_nil _).symm
  | recv cmd rest b' evs hq hm =>
    exact reaches_batcher hs hs' hm rfl (fun r h => by cases h) (hnone (by simp)) (by simp)
  | closed b' evs hq hh hm =>
    exact reaches_batcher hs hs' hm rfl (fun r h => by cases h) (hnone (by simp)) (by simp)
  | dispatch b' evs hm =>
    refine reaches_batcher hs hs' hm rfl (fun r h => by cases h) ?_ (by simp)
    intro hl hn
    exact workerPanic_of_refused hs hm.alive hn (BatcherAction.sent.inj hl)
  | reply r b' evs hr hm =>
    refine reaches_batcher hs hs' hm rfl (fun r' h => ?_) (hnone (by simp)) ?_
    · obtain rfl := BatcherAction.reply.inj h
      exact hr
    · intro h
      obtain rfl := BatcherAction.reply.inj h
      exact closed_by_panic hs (s.batcher.round, .closed)
        (by rw [((inFlight hs).of_lookup hr).2]; simp) rfl
  | turn t b' evs hm =>
    exact reaches_batcher hs hs' hm rfl (fun r h => by cases h) (hnone (by simp)) (by simp)
  | worker w b t r ht hm => exact reaches_quiet (S := S) rfl hm.quiet rfl
  | discard cmd rest hq hg => exact reaches_lose hs (server_step hst) hq hg

end Simulation

/-- **The server refines the service.**  Each step of the server, from any state it can reach, is a run
of the batching service between the states they abstract to: the requests accepted, the batches taken
and the answers given are those of the service, and each answer is one its batch allows. -/
theorem server_refines (S : Setup I P O F) :
    Machine.Simulation (server S) (BatchQueue.machine (batching S)) fun s t => t = s.service :=
  Machine.Simulation.of_map rfl fun _ _ _ hs hst => reaches_of_step hs hst

end OrtSuperserve

import OrtSuperserve.History

/-!
# The calls of `infer` and their commands

What holds between the calls, the commands accepted and the responders used up (`Calls`): a call
sends at most one command, the one `prepare` makes of its input; a call that waits has sent its
command; and a response that is returned is explained by the log, by the batcher being gone, or by
`preprocess` in the call itself.
-/

namespace OrtSuperserve

open Lib

variable {I P O F : Type}

/-- The command is not sent yet. -/
def CallState.fresh : CallState I P O → Bool
  | .starting | .sending _ => true
  | _ => false

section Prepare

variable {S : Setup I P O F} {c : ℕ} {input : I} {cmd : Command I P}

lemma prepare_cases (S : Setup I P O F) (c : ℕ) (input : I) :
    (∃ cmd, (prepare S c input).1 = .sending cmd) ∨
      (∃ e, S.preprocessOnInfer c = true ∧ S.user.preprocess c input = .err e ∧
        (prepare S c input).1 = .returned (.error (.userError e))) ∨
      (prepare S c input).1 = .panicked := by
  unfold prepare
  split
  · split
    · exact .inl ⟨_, rfl⟩
    · exact .inr (.inl ⟨_, ‹_›, ‹_›, rfl⟩)
    · exact .inr (.inr rfl)
  · exact .inl ⟨_, rfl⟩

/-- The command of a call carries its own responder. -/
lemma responder_of_prepare (h : (prepare S c input).1 = .sending cmd) : cmd.responder = c := by
  unfold prepare at h
  split at h
  · split at h
    · obtain rfl := CallState.sending.inj h
      rfl
    · cases h
    · cases h
  · obtain rfl := CallState.sending.inj h
    rfl

/-- The item of a command is the preprocessed input of its call. -/
lemma item_of_prepare (h : (prepare S c input).1 = .sending cmd) {p : P} :
    cmd.item S.user = some p ↔ S.user.preprocess c input = .ok p := by
  unfold prepare at h
  split at h
  · split at h
    · rename_i q hq
      obtain rfl := CallState.sending.inj h
      rw [hq]
      exact ⟨fun hp => by rw [Option.some.inj hp], fun hp => by rw [Outcome.ok.inj hp]; rfl⟩
    · cases h
    · cases h
  · obtain rfl := CallState.sending.inj h
    exact Outcome.toOption_eq_some

end Prepare

/-- Where the response of call `c` comes from. -/
def Explained (S : Setup I P O F) (s : State I P O F) (c : ℕ) (input : I) (r : Response O) : Prop :=
  (∃ fate, (c, fate) ∈ fates s.log ∧ r = fate.response) ∨
  (s.batcher.gone = true ∧ r = .error .serverChannelClosed) ∨
  ∃ e, S.preprocessOnInfer c = true ∧ S.user.preprocess c input = .err e ∧
    r = .error (.userError e)

/-- The responders of the commands accepted. -/
def State.responders (s : State I P O F) : List ℕ := (accepted s.log).map Command.responder

/-- What a call may look like. -/
structure CallOk (S : Setup I P O F) (s : State I P O F) (c : ℕ) (call : Call I P O) : Prop where
  sending : ∀ cmd, call.state = .sending cmd → (prepare S c call.input).1 = .sending cmd
  waiting : call.state = .waiting → c ∈ s.responders
  returned : ∀ r, call.state = .returned r → Explained S s c call.input r

structure Calls (S : Setup I P O F) (s : State I P O F) : Prop where
  nodup : s.responders.Nodup
  sent : ∀ cmd ∈ accepted s.log, ∃ call, s.calls[cmd.responder]? = some call ∧
    call.state.fresh = false ∧ (prepare S cmd.responder call.input).1 = .sending cmd
  calls : ∀ c call, s.calls[c]? = some call → CallOk S s c call

variable {S : Setup I P O F} {s s' : State I P O F} {a : Action I}

lemma CallOk.starting {c : ℕ} {call : Call I P O} (h : call.state = .starting) : CallOk S s c call := by
  refine ⟨?_, ?_, ?_⟩ <;> simp [h]

lemma CallOk.cancelled {c : ℕ} {call : Call I P O} (h : call.state = .cancelled) :
    CallOk S s c call := by
  refine ⟨?_, ?_, ?_⟩ <;> simp [h]

lemma CallOk.of_returned {c : ℕ} {call : Call I P O} {r : Response O} (h : call.state = .returned r)
    (he : Explained S s c call.input r) : CallOk S s c call := by
  refine ⟨by simp [h], by simp [h], ?_⟩
  intro r' hr
  rw [h] at hr
  obtain rfl := CallState.returned.inj hr
  exact he

lemma Calls.start (S : Setup I P O F) : Calls S (State.start S) := by
  refine ⟨?_, ?_, ?_⟩ <;> simp [State.start, State.responders]

/-- A step that keeps the calls and the commands accepted. -/
lemma CallOk.mono {c : ℕ} {call : Call I P O} (h : CallOk S s c call)
    (hresp : ∀ c ∈ s.responders, c ∈ s'.responders) (hlog : s.log <+: s'.log)
    (hgone : s.batcher.gone = true → s'.batcher.gone = true) : CallOk S s' c call := by
  refine ⟨h.sending, fun hw => hresp c (h.waiting hw), ?_⟩
  intro r hr
  rcases h.returned r hr with ⟨fate, hf, he⟩ | ⟨hg, he⟩ | he
  · exact .inl ⟨fate, (hlog.filterMap Event.fate?).subset hf, he⟩
  · exact .inr (.inl ⟨hgone hg, he⟩)
  · exact .inr (.inr he)

/-- A batcher that is gone stays gone. -/
lemma Step.gone_mono (hs : Step S s a s') (hg : s.batcher.gone = true) : s'.batcher.gone = true := by
  cases hs.effect with
  | batcher l evs move => rw [move.alive] at hg; cases hg
  | accepted cmd batcher => rw [batcher]; exact hg
  | dropped cmd batcher => rw [batcher]; exact hg
  | quiet evs batcher => rw [batcher]; exact hg

lemma Calls.keep (h : Calls S s) (hs : Step S s a s') (hcalls : s'.calls = s.calls)
    (hacc : accepted s'.log = accepted s.log) : Calls S s' := by
  have hresp : s'.responders = s.responders := by rw [State.responders, hacc, State.responders]
  refine ⟨hresp ▸ h.nodup, ?_, ?_⟩
  · rw [hacc, hcalls]
    exact h.sent
  · intro c call hc
    rw [hcalls] at hc
    exact (h.calls c call hc).mono (by rw [hresp]; exact fun c hc => hc) hs.log_grows hs.gone_mono

/-- The calls after one of them has gone on. -/
lemma getElem?_setCall {c : ℕ} {call : Call I P O} (hc : s.calls[c]? = some call)
    (st : CallState I P O) (i : ℕ) :
    (s.setCall c call st).calls[i]? =
      if i = c then some { call with state := st } else s.calls[i]? := by
  have hlt := (List.getElem?_eq_some_iff.1 hc).1
  by_cases h : i = c
  · rw [if_pos h, h]
    exact List.getElem?_set_self hlt
  · rw [if_neg h]
    exact List.getElem?_set_ne (Ne.symm h)

/-- A step in which call `c` goes on and sends nothing. -/
lemma Calls.update (h : Calls S s) (hs : Step S s a s') {c : ℕ} {call : Call I P O}
    {st : CallState I P O} (hc : s.calls[c]? = some call)
    (hcalls : s'.calls = (s.setCall c call st).calls) (hacc : accepted s'.log = accepted s.log)
    (hfresh : call.state.fresh = false → st.fresh = false)
    (hok : CallOk S s' c { call with state := st }) : Calls S s' := by
  have hresp : s'.responders = s.responders := by rw [State.responders, hacc, State.responders]
  refine ⟨hresp ▸ h.nodup, ?_, ?_⟩
  · intro cmd hm
    rw [hacc] at hm
    obtain ⟨call', hc', hf', hp'⟩ := h.sent cmd hm
    rw [hcalls, getElem?_setCall hc]
    split
    · rename_i hi
      rw [hi, hc] at hc'
      obtain rfl := Option.some.inj hc'
      exact ⟨_, rfl, hfresh hf', hp'⟩
    · exact ⟨call', hc', hf', hp'⟩
  · intro i call' hi
    rw [hcalls, getElem?_setCall hc] at hi
    split at hi
    · rename_i he
      obtain rfl := Option.some.inj hi
      exact he ▸ hok
    · exact (h.calls i call' hi).mono (by rw [hresp]; exact fun c hc => hc) hs.log_grows hs.gone_mono

/-- The step in which call `c` sends its command. -/
lemma Calls.send (h : Calls S s) (hs : Step S s a s') {c : ℕ} {call : Call I P O} {cmd : Command I P}
    (hc : s.calls[c]? = some call) (hst : call.state = .sending cmd)
    (hcalls : s'.calls = (s.setCall c call .waiting).calls)
    (hacc : accepted s'.log = accepted s.log ++ [cmd]) : Calls S s' := by
  have hprep := (h.calls c call hc).sending cmd hst
  obtain rfl := responder_of_prepare hprep
  have hresp : s'.responders = s.responders ++ [cmd.responder] := by
    rw [State.responders, hacc, List.map_append, State.responders]
    rfl
  have hnew : cmd.responder ∉ s.responders := by
    intro hm
    obtain ⟨cmd', hm', he⟩ := List.mem_map.1 hm
    obtain ⟨call', hc', hf', -⟩ := h.sent cmd' hm'
    rw [he, hc] at hc'
    obtain rfl := Option.some.inj hc'
    rw [hst] at hf'
    cases hf'
  refine ⟨?_, ?_, ?_⟩
  · rw [hresp]
    exact List.nodup_append'.2 ⟨h.nodup, List.nodup_singleton _, by simpa using hnew⟩
  · intro cmd' hm
    rw [hcalls, getElem?_setCall hc]
    rw [hacc, List.mem_append, List.mem_singleton] at hm
    split
    · rename_i hi
      rcases hm with hm | rfl
      · exact absurd (hi ▸ List.mem_map_of_mem hm) hnew
      · exact ⟨_, rfl, rfl, hprep⟩
    · rcases hm with hm | rfl
      · exact h.sent cmd' hm
      · exact absurd rfl ‹_›
  · intro i call' hi
    rw [hcalls, getElem?_setCall hc] at hi
    split at hi
    · rename_i he
      obtain rfl := Option.some.inj hi
      refine ⟨?_, ?_, ?_⟩
      · simp
      · intro _
        rw [hresp, he]
        simp
      · simp
    · refine (h.calls i call' hi).mono (fun c hc => ?_) hs.log_grows hs.gone_mono
      rw [hresp]
      exact List.mem_append_left _ hc

lemma Calls.step (h : Calls S s) (hs : Step S s a s') : Calls S s' := by
  cases hs with
  | client a _ hm =>
    have hstep : Step S s (.client a) s' := .client a s' hm
    cases hm with
    | clone => exact h.keep hstep rfl rfl
    | shutdown => exact h.keep hstep rfl rfl
    | infer hd input hh =>
      refine ⟨h.nodup, ?_, ?_⟩
      · intro cmd hm
        obtain ⟨call, hc, hf, hp⟩ := h.sent cmd hm
        refine ⟨call, ?_, hf, hp⟩
        rw [List.getElem?_append_left (List.getElem?_eq_some_iff.1 hc).1]
        exact hc
      · intro i call hi
        rw [List.getElem?_append] at hi
        split at hi
        · exact (h.calls i call hi).mono (fun c hc => hc) (List.prefix_refl _) fun hg => hg
        · obtain rfl := List.mem_singleton.1 (List.mem_of_getElem? hi)
          exact .starting rfl
    | prepare c call hc hst =>
      have hq : accepted (prepare S c call.input).2 = [] :=
        (quiet_prepare S c call.input).accepted_eq
      refine h.update hstep hc rfl (by rw [accepted_append, hq, List.append_nil])
        (fun hf => by rw [hst] at hf; cases hf) ?_
      rcases prepare_cases S c call.input with ⟨cmd, he⟩ | ⟨e, hon, hpre, he⟩ | he
      · exact ⟨fun cmd' h => h, by simp [he], by simp [he]⟩
      · exact .of_returned he (.inr (.inr ⟨e, hon, hpre, rfl⟩))
      · refine ⟨?_, ?_, ?_⟩ <;> simp [he]
    | refused c call cmd hc hst hg =>
      exact h.update hstep hc rfl rfl (fun _ => rfl) (.of_returned rfl (.inr (.inl ⟨hg, rfl⟩)))
    | receive c call fate hc hst hf =>
      obtain ⟨l₁, l₂, hl, -⟩ := List.lookup_eq_some_iff.1 hf
      refine h.update hstep hc rfl rfl (fun _ => rfl) (.of_returned rfl (.inl ⟨fate, ?_, rfl⟩))
      simp only [State.setCall]
      rw [hl]
      simp
    | cancel c call hc hst => exact h.update hstep hc rfl rfl (fun _ => rfl) (.cancelled rfl)
    | send c call cmd hc hst hg =>
      exact h.send hstep hc hst rfl (by simp)
  | recv cmd rest b' evs hq hm =>
    exact h.keep (.recv cmd rest b' evs hq hm) rfl (hm.accepted_log _)
  | closed b' evs hq hh hm => exact h.keep (.closed b' evs hq hh hm) rfl (hm.accepted_log _)
  | dispatch b' evs hm => exact h.keep (.dispatch b' evs hm) rfl (hm.accepted_log _)
  | reply r b' evs hr hm => exact h.keep (.reply r b' evs hr hm) rfl (hm.accepted_log _)
  | turn t b' evs hm => exact h.keep (.turn t b' evs hm) rfl (hm.accepted_log _)
  | worker w a t r ht hm =>
    have hacc : accepted (s.log ++ r.events) = accepted s.log := by
      rw [accepted_append, hm.quiet.accepted_eq, List.append_nil]
    exact h.keep (.worker w a t r ht hm) rfl hacc
  | discard cmd rest hq hg => exact h.keep (.discard cmd rest hq hg) rfl (by simp)

/-- **The invariant of the calls.** -/
theorem calls (hs : (server S).Reachable s) : Calls S s :=
  hs.invariant (Calls.start S) fun _ _ _ _ hu hstep => hu.step (server_step hstep)

end OrtSuperserve

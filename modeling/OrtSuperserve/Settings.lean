import OrtSuperserve.Deployment
import OrtSuperserve.Lib.Indexed

/-!
# From the builder methods to the sessions

A configuration is made by calls of the `with_*` methods on the default one, in any order and any number
of times.  Where a method sets a field, its last call is the one that counts, and
`with_execution_provider` adds to the list of the default, which has `Cpu` in it.

`launched_as_configured` follows the calls through `from_file` to the sessions the workers open.
`started_iff` says when there is a server at all: the first provider whose feature was not compiled in
ends the launch, whatever other providers were asked for.
-/

namespace OrtSuperserve

open Lib

variable {H L C M I P O F : Type}

/-! ### The builder methods -/

/-- `ServerConfig::new`, where `level3` is `GraphOptimizationLevel::Level3`. -/
def StartConfig.new (level3 : L) : StartConfig L C := { optimizationLevel := level3 }

/-- A call of a builder method. -/
inductive ConfigCall (L C : Type) where
  | withNumSessions (num : ℕ)
  | withThreadsPerSession (threads : ℕ)
  | withMaxBatchSize (size : ℕ)
  | withMinBatchSize (size : ℕ)
  | withMaxWaitTime (duration : ℕ)
  | withExecutionProvider (provider : ExecutionProvider C)
  | withOptimizationLevel (level : L)
  | withInputName (name : String)
  | withOutputName (name : String)
  | withPreprocessOnInfer (enabled : Bool)

namespace ConfigCall

def apply (config : StartConfig L C) : ConfigCall L C → StartConfig L C
  | withNumSessions num =>
    { config with toServerConfig := config.toServerConfig.withNumSessions num }
  | withThreadsPerSession threads =>
    { config with toSessionConfig := config.toSessionConfig.withThreadsPerSession threads }
  | withMaxBatchSize size =>
    { config with toServerConfig := config.toServerConfig.withMaxBatchSize size }
  | withMinBatchSize size =>
    { config with toServerConfig := config.toServerConfig.withMinBatchSize size }
  | withMaxWaitTime duration =>
    { config with toServerConfig := config.toServerConfig.withMaxWaitTime duration }
  | withExecutionProvider provider =>
    { config with toSessionConfig := config.toSessionConfig.withExecutionProvider provider }
  | withOptimizationLevel level =>
    { config with toSessionConfig := config.toSessionConfig.withOptimizationLevel level }
  | withInputName name => config.withInputName name
  | withOutputName name => config.withOutputName name
  | withPreprocessOnInfer enabled =>
    { config with toServerConfig := config.toServerConfig.withPreprocessOnInfer enabled }

/-! What a call sets. -/

def numSessions : ConfigCall L C → Option ℕ
  | withNumSessions num => some num
  | _ => none

def threadsPerSession : ConfigCall L C → Option ℕ
  | withThreadsPerSession threads => some threads
  | _ => none

def maxBatchSize : ConfigCall L C → Option ℕ
  | withMaxBatchSize size => some size
  | _ => none

def minBatchSize : ConfigCall L C → Option ℕ
  | withMinBatchSize size => some size
  | _ => none

def maxWaitTime : ConfigCall L C → Option ℕ
  | withMaxWaitTime duration => some duration
  | _ => none

def executionProvider : ConfigCall L C → Option (ExecutionProvider C)
  | withExecutionProvider provider => some provider
  | _ => none

def optimizationLevel : ConfigCall L C → Option L
  | withOptimizationLevel level => some level
  | _ => none

def inputName : ConfigCall L C → Option String
  | withInputName name => some name
  | _ => none

def outputName : ConfigCall L C → Option String
  | withOutputName name => some name
  | _ => none

def preprocessOnInfer : ConfigCall L C → Option Bool
  | withPreprocessOnInfer enabled => some enabled
  | _ => none

end ConfigCall

/-- The configuration some calls make, one after the other. -/
def configured (level3 : L) (calls : List (ConfigCall L C)) : StartConfig L C :=
  calls.foldl ConfigCall.apply (.new level3)

section Configured

variable {level3 : L} {calls : List (ConfigCall L C)}

/-- A field that one of the methods sets. -/
lemma configured_field {β : Type} (g : StartConfig L C → β) (f : ConfigCall L C → Option β)
    (h : ∀ config call, g (ConfigCall.apply config call) = (f call).getD (g config)) :
    g (configured level3 calls) = (lastOf f calls).getD (g (.new level3)) := foldl_last h calls _

/-- A name that one of the methods sets. -/
lemma configured_name (g : StartConfig L C → Option String) (f : ConfigCall L C → Option String)
    (hnew : g (.new level3) = none)
    (h : ∀ config call, g (ConfigCall.apply config call) = (f call).or (g config)) :
    g (configured level3 calls) = lastOf f calls := foldl_last_some h calls hnew

lemma configured_executionProviders : (configured level3 calls).executionProviders =
    .cpu :: calls.filterMap ConfigCall.executionProvider := by
  apply foldl_append (g := fun config : StartConfig L C => config.executionProviders)
  intro config call
  cases call with
  | withExecutionProvider provider => rfl
  | _ => exact (List.append_nil _).symm

/-- **The configuration that some calls make.** -/
theorem configured_eq : configured level3 calls =
    { optimizationLevel := (lastOf ConfigCall.optimizationLevel calls).getD level3
      threadsPerSession := (lastOf ConfigCall.threadsPerSession calls).getD 1
      executionProviders := .cpu :: calls.filterMap ConfigCall.executionProvider
      numSessions := (lastOf ConfigCall.numSessions calls).getD 1
      maxBatchSize := (lastOf ConfigCall.maxBatchSize calls).getD 8
      minBatchSize := (lastOf ConfigCall.minBatchSize calls).getD 1
      maxWaitTime := (lastOf ConfigCall.maxWaitTime calls).getD 10000000
      preprocessOnInfer := (lastOf ConfigCall.preprocessOnInfer calls).getD false
      inputName := lastOf ConfigCall.inputName calls
      outputName := lastOf ConfigCall.outputName calls } := by
  apply StartConfig.ext
  · exact configured_field (fun config => config.optimizationLevel) _
      fun _ call => by cases call <;> rfl
  · exact configured_field (fun config => config.threadsPerSession) _
      fun _ call => by cases call <;> rfl
  · exact configured_executionProviders
  · exact configured_field (fun config => config.numSessions) _ fun _ call => by cases call <;> rfl
  · exact configured_field (fun config => config.maxBatchSize) _ fun _ call => by cases call <;> rfl
  · exact configured_field (fun config => config.minBatchSize) _ fun _ call => by cases call <;> rfl
  · exact configured_field (fun config => config.maxWaitTime) _ fun _ call => by cases call <;> rfl
  · exact configured_field (fun config => config.preprocessOnInfer) _
      fun _ call => by cases call <;> rfl
  · exact configured_name (fun config => config.inputName) _ rfl fun _ call => by cases call <;> rfl
  · exact configured_name (fun config => config.outputName) _ rfl fun _ call => by cases call <;> rfl

end Configured

/-! ### The sessions of a launch -/

section Launched

variable {E : Environment H L C M I P O F} {l : Launch L C} {host : Host L C M} {path : String}

/-- As many workers as configured, and each session of theirs opened from the path and configuration of
the launch. -/
structure AsLaunched (E : Environment H L C M I P O F) (l : Launch L C)
    (d : Deployment L C M I P O F) : Prop where
  workers : d.server.workers.length = l.config.numSessions
  opened : ∀ p, some p ∈ d.sessions → ∃ h, E.openSession (E.host h) l.modelPath l.config = .ok p

lemma asLaunched {d : Deployment L C M I P O F} (hd : (deployment E l).Reachable d) :
    AsLaunched E l d := by
  apply hd.invariant (P := AsLaunched E l)
  · refine ⟨by simp [deployment, Deployment.start, State.start, Launch.setup], ?_⟩
    intro p hp
    cases List.eq_of_mem_replicate hp
  · intro d a d' _ hi hst
    cases deployment_step hst with
    | opened w h queue session ht ho =>
      refine ⟨by simp [hi.workers], ?_⟩
      intro p hp
      rcases List.mem_or_eq_of_mem_set hp with hp | hp
      · exact hi.opened p hp
      · cases hp
        exact ⟨h, ho⟩
    | failed => exact ⟨hi.workers, hi.opened⟩
    | server a s' ha hs => exact ⟨(server_step hs).length_workers.trans hi.workers, hi.opened⟩

lemma tensorName_or {configured : Option String} {names : List String} {name : String}
    (h : configured = some name ∨ configured = none ∧ names.head? = some name) :
    configured.or names.head? = some name := by
  rcases h with rfl | ⟨rfl, h⟩
  · exact Option.some_or
  · exact h

/-- **What the calls of the builder methods come to.**  When `from_file` succeeds on the configuration
they make, the batcher and the clients are given, of each setting, the last value or the default one;
the tensors have the names given last or those of the first tensors of the session; and in every run
there are as many workers as asked for last, and each session one of them opens, whenever it does, is
built from the file by the last level and number of threads, one thread between the operators, no
parallel execution, and then one step for each provider that was added, in order. -/
theorem launched_as_configured {level3 : L} {calls : List (ConfigCall L C)}
    (h : E.fromFile host path (configured level3 calls) = .ok l) :
    l.config.toServerConfig =
      { numSessions := (lastOf ConfigCall.numSessions calls).getD 1
        maxBatchSize := (lastOf ConfigCall.maxBatchSize calls).getD 8
        minBatchSize := (lastOf ConfigCall.minBatchSize calls).getD 1
        maxWaitTime := (lastOf ConfigCall.maxWaitTime calls).getD 10000000
        preprocessOnInfer := (lastOf ConfigCall.preprocessOnInfer calls).getD false } ∧
    (∃ session, E.openSession host path l.config = .ok session ∧
      (lastOf ConfigCall.inputName calls).or (E.inputs session).head? = some l.inputName ∧
      (lastOf ConfigCall.outputName calls).or (E.outputs session).head? = some l.outputName) ∧
    ∀ d, (deployment E l).Reachable d →
      d.server.workers.length = (lastOf ConfigCall.numSessions calls).getD 1 ∧
      ∀ session, some session ∈ d.sessions → ∃ h, session.model = (E.host h).file path ∧
        session.built = ⟨
          [.withOptimizationLevel ((lastOf ConfigCall.optimizationLevel calls).getD level3),
            .withIntraThreads ((lastOf ConfigCall.threadsPerSession calls).getD 1),
            .withInterThreads 1, .withParallelExecution false] ++
          ((calls.filterMap ConfigCall.executionProvider).filterMap ExecutionProvider.kind).map
            (ProviderKind.step (E.host h).ort), path⟩ := by
  obtain ⟨session, hopen, hpath, hconfig, hin, hout⟩ := fromFile_ok h
  rw [← hconfig] at hopen
  rw [configured_eq] at hconfig hin hout
  refine ⟨by rw [hconfig], ⟨session, hopen, tensorName_or hin, tensorName_or hout⟩, ?_⟩
  intro d hd
  obtain ⟨hworkers, hopened⟩ := asLaunched hd
  refine ⟨by rw [hworkers, hconfig], ?_⟩
  intro p hp
  obtain ⟨k, hk⟩ := hopened p hp
  obtain ⟨hbuild, hmodel⟩ := openSession_ok hk
  rw [hpath] at hbuild hmodel
  refine ⟨k, hmodel, ?_⟩
  rw [(build_ok hbuild).2, hconfig]
  rfl

end Launched

/-- Two of the calls are overruled by later ones. -/
def sampleCalls : List (ConfigCall Unit Unit) :=
  [.withNumSessions 3, .withMaxBatchSize 16, .withExecutionProvider .xnnpack,
    .withThreadsPerSession 4, .withNumSessions 2, .withInputName "pixels",
    .withExecutionProvider (.cuda 1), .withThreadsPerSession 2]

theorem launched_as_configured_sample :
    ∃ l : Launch Unit Unit, sampleEnvironment.fromFile (sampleHost true) "model.onnx"
        (configured () sampleCalls) = .ok l ∧
      l.inputName = "pixels" ∧ l.outputName = "output" ∧
      ∀ d, (deployment sampleEnvironment l).Reachable d → d.server.workers.length = 2 ∧
        ∀ session, some session ∈ d.sessions → session.built =
          ⟨[.withOptimizationLevel (), .withIntraThreads 2, .withInterThreads 1,
            .withParallelExecution false, .withExecutionProviders [.xnnpack],
            .withExecutionProviders [.cuda 0]], "model.onnx"⟩ := by
  obtain ⟨l, hl⟩ : ∃ l, sampleEnvironment.fromFile (sampleHost true) "model.onnx"
      (configured () sampleCalls) = .ok l := ⟨_, rfl⟩
  obtain ⟨-, ⟨session, -, hin, hout⟩, hruns⟩ := launched_as_configured hl
  refine ⟨l, hl, (Option.some.inj hin).symm, (Option.some.inj hout).symm, ?_⟩
  intro d hd
  obtain ⟨hworkers, hsessions⟩ := hruns d hd
  refine ⟨hworkers, ?_⟩
  intro p hp
  obtain ⟨k, -, hbuilt⟩ := hsessions p hp
  cases k <;> exact hbuilt

/-! ### A provider that is not compiled in -/

namespace ExecutionProvider

/-- The error on a provider whose feature was not compiled in; the others need none. -/
def missing : ExecutionProvider C → String
  | .cuda _ => "CUDA execution provider requested but not compiled with cuda feature"
  | .tensorRT _ _ => "TensorRT execution provider requested but not compiled with tensorrt feature"
  | .xnnpack => "XNNPACK execution provider requested but not compiled with xnnpack feature"
  | .coreML => "CoreML execution provider requested but not compiled with coreml feature"
  | _ => ""

end ExecutionProvider

/-- The builder of `ort` takes every call. -/
structure Ort.Accepting (ort : Ort L C) : Prop where
  builder : ort.builder = .ok ()
  accept : ∀ b c, ort.accept b c = .ok ()

section Missing

variable {ort : Ort L C} {features : Features} {b : List (BuilderCall L C)}

open SessionBuilder

lemma Ort.Accepting.call (hort : ort.Accepting) (c : BuilderCall L C) :
    ort.call b c = .ok (b ++ [c]) := by
  rw [Ort.call, hort.accept]
  rfl

lemma applyExecutionProvider_missing {provider : ExecutionProvider C}
    (h : ¬ provider.Compiled features) :
    applyExecutionProvider ort features b provider = .error provider.missing := by
  cases provider with
  | cpu => exact absurd trivial h
  | custom c => exact absurd trivial h
  | _ => exact if_neg h

lemma applyExecutionProvider_compiled (hort : ort.Accepting) {provider : ExecutionProvider C}
    (h : provider.Compiled features) :
    ∃ b', applyExecutionProvider ort features b provider = .ok b' := by
  cases provider with
  | cpu => exact ⟨_, rfl⟩
  | custom c => exact ⟨_, hort.call _⟩
  | _ => exact ⟨_, (if_pos h).trans (hort.call _)⟩

/-- The first provider that is missing ends the loop. -/
lemma foldlM_applyExecutionProvider_missing (hort : ort.Accepting)
    {before after : List (ExecutionProvider C)} {provider : ExecutionProvider C}
    (hbefore : ∀ q ∈ before, q.Compiled features) (h : ¬ provider.Compiled features) :
    (before ++ provider :: after).foldlM (applyExecutionProvider ort features) b =
      .error provider.missing := by
  induction before generalizing b with
  | nil =>
    rw [List.nil_append, List.foldlM_cons, applyExecutionProvider_missing h]
    rfl
  | cons q before ih =>
    obtain ⟨hq, hbefore⟩ := List.forall_mem_cons.1 hbefore
    obtain ⟨b', hb'⟩ := applyExecutionProvider_compiled (b := b) hort hq
    rw [List.cons_append, List.foldlM_cons, hb']
    exact ih hbefore

lemma build_missing (hort : ort.Accepting) {config : SessionConfig L C} {path : String}
    {before after : List (ExecutionProvider C)} {provider : ExecutionProvider C}
    (hproviders : config.executionProviders = before ++ provider :: after)
    (hbefore : ∀ q ∈ before, q.Compiled features) (h : ¬ provider.Compiled features) :
    build ort features path config = .error provider.missing := by
  simp only [build, hort.builder, hort.call, hproviders]
  show ((before ++ provider :: after).foldlM (applyExecutionProvider ort features) _ >>= _) = _
  rw [foldlM_applyExecutionProvider_missing hort hbefore h]
  rfl

end Missing

variable {E : Environment H L C M I P O F} {config : StartConfig L C}

/-- **Several providers are no choice between them.**  If the feature of one of the providers was not
compiled in, there is no server, whatever the host and the other providers, from a file or from a
download; and when `ort` takes every call, the error is about the first of those in the list, be it that
of `from_file`, or of `from_url` once the model is downloaded and written. -/
theorem missing_feature {before after : List (ExecutionProvider C)} {provider : ExecutionProvider C}
    (hproviders : config.executionProviders = before ++ provider :: after)
    (hbefore : ∀ q ∈ before, q.Compiled E.features) (h : ¬ provider.Compiled E.features) :
    (∀ host path l, E.fromFile host path config ≠ .ok l) ∧
    (∀ net uuid host url l, E.fromUrl net uuid host url config ≠ .ok l) ∧
    (∀ host path, host.ort.Accepting → E.fromFile host path config = .error provider.missing) ∧
    ∀ (net : Network M) uuid host url response bytes, host.ort.Accepting → net.get url = .ok response →
      response.isSuccess = true → response.bytes = .ok bytes →
      net.write (net.modelPath uuid) bytes = .ok () →
      E.fromUrl net uuid host url config = .error provider.missing := by
  have hfile : ∀ host path l, E.fromFile host path config ≠ .ok l := by
    intro host path l hl
    obtain ⟨session, hopen, -⟩ := fromFile_ok hl
    obtain ⟨hcompiled, -⟩ := build_ok (openSession_ok hopen).1
    apply h
    apply hcompiled
    rw [hproviders]
    exact List.mem_append_right _ List.mem_cons_self
  have herror : ∀ host path, host.ort.Accepting →
      E.fromFile host path config = .error provider.missing := by
    intro host path hort
    rw [Environment.fromFile, Environment.openSession, build_missing hort hproviders hbefore h]
    rfl
  refine ⟨hfile, ?_, herror, ?_⟩
  · intro net uuid host url l hl
    obtain ⟨_, _, -, -, -, -, hl⟩ := fromUrl_ok hl
    exact hfile _ _ _ hl
  · intro net uuid host url response bytes hort hget hs hbytes hwrite
    rw [fromUrl_eq hget hs hbytes hwrite]
    exact herror _ _ hort

/-- A crate with CUDA and no other feature. -/
def cudaOnly : Environment Bool Unit Unit String ℕ ℕ ℕ ℕ :=
  { sampleEnvironment with features := ⟨true, false, false, false⟩ }

/-- TensorRT is asked for first, and CUDA does not stand in for it. -/
theorem missing_feature_sample :
    cudaOnly.fromFile (sampleHost true) "model.onnx"
        (configured () [.withExecutionProvider (.tensorRT 0 false),
          .withExecutionProvider (.cuda 0)]) =
      .error "TensorRT execution provider requested but not compiled with tensorrt feature" ∧
    cudaOnly.fromUrl sampleNetwork "0" bareHost "models/identity.onnx"
        (configured () [.withExecutionProvider (.tensorRT 0 false),
          .withExecutionProvider (.cuda 0)]) =
      .error "TensorRT execution provider requested but not compiled with tensorrt feature" := by
  have hort : (sampleHost true).ort.Accepting := ⟨rfl, fun _ _ => rfl⟩
  have hmissing : ¬ (ExecutionProvider.tensorRT 0 false : ExecutionProvider Unit).Compiled
      cudaOnly.features := by
    intro h
    cases h
  have hbefore : ∀ q ∈ [(.cpu : ExecutionProvider Unit)], q.Compiled cudaOnly.features :=
    List.forall_mem_singleton.2 trivial
  have hproviders : (configured () [.withExecutionProvider (.tensorRT 0 false),
      .withExecutionProvider (.cuda 0)] : StartConfig Unit Unit).executionProviders =
      [.cpu] ++ .tensorRT 0 false :: [.cuda 0] := rfl
  obtain ⟨-, -, hfile, hurl⟩ := missing_feature hproviders hbefore hmissing
  exact ⟨hfile _ _ hort, hurl sampleNetwork "0" bareHost _ ⟨200, "200 OK", .ok "identity"⟩ "identity"
    hort rfl rfl rfl rfl⟩

end OrtSuperserve

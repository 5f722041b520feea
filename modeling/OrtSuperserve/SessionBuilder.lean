import Mathlib.Tactic

/-!
# `session/builder.rs`: the calls made on the builder of `ort`

`build` creates a builder, gives it four settings, lets `apply_execution_provider` give it the
execution providers of the configuration one after the other, and commits it with the model file.
The match in `apply_execution_provider` throws the fields of `Cuda` and of `TensorRT` away
(`device_id: _`, `fp16: _`) and registers what `default()` returns, so a session is registered as it
was configured just when the configuration asks for the defaults (`execution_providers_iff`).

The crate `ort` is outside the repository.  Its builder is the list of the calls it has taken; which
of them fail, and with what error, is a parameter, and so are the values of its `default()`s.
-/

namespace OrtSuperserve

-- `L` is the type of the optimization levels, `C` the one of the callbacks
variable {L C : Type}

/-! ### The configuration of a session -/

inductive ExecutionProvider (C : Type) where
  | cpu
  | cuda (deviceId : ℕ)
  | tensorRT (deviceId : ℕ) (fp16 : Bool)
  | xnnpack
  | coreML
  | custom (callback : C)
deriving DecidableEq

/-- The fields of `ServerConfig` that `build` reads, with their defaults. -/
structure SessionConfig (L C : Type) where
  optimizationLevel : L
  threadsPerSession : ℕ := 1
  executionProviders : List (ExecutionProvider C) := [.cpu]

def SessionConfig.withOptimizationLevel (config : SessionConfig L C) (level : L) :
    SessionConfig L C :=
  { config with optimizationLevel := level }

def SessionConfig.withThreadsPerSession (config : SessionConfig L C) (threads : ℕ) :
    SessionConfig L C :=
  { config with threadsPerSession := threads }

/-- `with_execution_provider`, which adds to the list. -/
def SessionConfig.withExecutionProvider (config : SessionConfig L C)
    (provider : ExecutionProvider C) : SessionConfig L C :=
  { config with executionProviders := config.executionProviders ++ [provider] }

/-- The features the crate was compiled with. -/
structure Features where
  cuda : Bool
  tensorrt : Bool
  xnnpack : Bool
  coreml : Bool

/-! ### The builder of `ort` -/

/-- A provider of `ort` with its options. -/
inductive OrtProvider where
  | cuda (deviceId : ℕ)
  | tensorRT (deviceId : ℕ) (fp16 : Bool)
  | xnnpack
  | coreML
deriving DecidableEq

inductive BuilderCall (L C : Type) where
  | withOptimizationLevel (level : L)
  | withIntraThreads (n : ℕ)
  | withInterThreads (n : ℕ)
  | withParallelExecution (enabled : Bool)
  | withExecutionProviders (providers : List OrtProvider)
  | callback (callback : C)
deriving DecidableEq

/-- What `ort` makes of the calls: `accept` says whether a builder that has taken some calls takes
one more. -/
structure Ort (L C : Type) where
  builder : Except String Unit
  accept : List (BuilderCall L C) → BuilderCall L C → Except String Unit
  commitFromFile : List (BuilderCall L C) → String → Except String Unit
  cudaDefault : ℕ
  tensorRTDefault : ℕ × Bool

/-- A session knows what its builder has taken and the model. -/
structure BuiltSession (L C : Type) where
  builder : List (BuilderCall L C)
  modelPath : String
deriving DecidableEq

def Ort.call (ort : Ort L C) (builder : List (BuilderCall L C)) (c : BuilderCall L C) :
    Except String (List (BuilderCall L C)) := do
  ort.accept builder c
  return builder ++ [c]

namespace SessionBuilder

variable (ort : Ort L C) (features : Features)

def applyExecutionProvider (builder : List (BuilderCall L C)) :
    ExecutionProvider C → Except String (List (BuilderCall L C))
  | .cpu => .ok builder
  | .cuda _ =>
    if features.cuda then
      ort.call builder (.withExecutionProviders [.cuda ort.cudaDefault])
    else .error "CUDA execution provider requested but not compiled with cuda feature"
  | .tensorRT _ _ =>
    if features.tensorrt then
      ort.call builder
        (.withExecutionProviders [.tensorRT ort.tensorRTDefault.1 ort.tensorRTDefault.2])
    else .error "TensorRT execution provider requested but not compiled with tensorrt feature"
  | .xnnpack =>
    if features.xnnpack then
      ort.call builder (.withExecutionProviders [.xnnpack])
    else .error "XNNPACK execution provider requested but not compiled with xnnpack feature"
  | .coreML =>
    if features.coreml then
      ort.call builder (.withExecutionProviders [.coreML])
    else .error "CoreML execution provider requested but not compiled with coreml feature"
  | .custom c => ort.call builder (.callback c)

def build (modelPath : String) (config : SessionConfig L C) :
    Except String (BuiltSession L C) := do
  ort.builder
  let builder ← ort.call [] (.withOptimizationLevel config.optimizationLevel)
  let builder ← ort.call builder (.withIntraThreads config.threadsPerSession)
  let builder ← ort.call builder (.withInterThreads 1)
  let builder ← ort.call builder (.withParallelExecution false)
  let builder ← config.executionProviders.foldlM (applyExecutionProvider ort features) builder
  ort.commitFromFile builder modelPath
  return ⟨builder, modelPath⟩

end SessionBuilder

/-! ### What was asked for -/

/-- The calls that concern execution providers. -/
def BuilderCall.isStep : BuilderCall L C → Bool
  | .withExecutionProviders _ => true
  | .callback _ => true
  | _ => false

/-- The registrations and callbacks a session was built with, in order. -/
def BuiltSession.steps (session : BuiltSession L C) : List (BuilderCall L C) :=
  session.builder.filter BuilderCall.isStep

/-- An execution provider without its options. -/
inductive ProviderKind (C : Type) where
  | cuda
  | tensorRT
  | xnnpack
  | coreML
  | custom (callback : C)
deriving DecidableEq

namespace ExecutionProvider

/-- The step an entry asks for: `Cpu` asks for none, the others for a registration with their own
device and precision, or for their callback. -/
def asked : ExecutionProvider C → Option (BuilderCall L C)
  | .cpu => none
  | .cuda d => some (.withExecutionProviders [.cuda d])
  | .tensorRT d fp16 => some (.withExecutionProviders [.tensorRT d fp16])
  | .xnnpack => some (.withExecutionProviders [.xnnpack])
  | .coreML => some (.withExecutionProviders [.coreML])
  | .custom c => some (.callback c)

/-- The kind of an entry other than `Cpu`. -/
def kind : ExecutionProvider C → Option (ProviderKind C)
  | .cpu => none
  | .cuda _ => some .cuda
  | .tensorRT _ _ => some .tensorRT
  | .xnnpack => some .xnnpack
  | .coreML => some .coreML
  | .custom c => some (.custom c)

/-- The options of an entry are the ones of `ort`'s `default()`s. -/
def IsDefault (ort : Ort L C) : ExecutionProvider C → Prop
  | .cuda d => d = ort.cudaDefault
  | .tensorRT d fp16 => d = ort.tensorRTDefault.1 ∧ fp16 = ort.tensorRTDefault.2
  | _ => True

instance (ort : Ort L C) (provider : ExecutionProvider C) : Decidable (provider.IsDefault ort) := by
  cases provider <;> unfold IsDefault <;> infer_instance

/-- The features an entry needs. -/
def Compiled (features : Features) : ExecutionProvider C → Prop
  | .cuda _ => features.cuda
  | .tensorRT _ _ => features.tensorrt
  | .xnnpack => features.xnnpack
  | .coreML => features.coreml
  | _ => True

end ExecutionProvider

/-- The step taken for a kind of entry. -/
def ProviderKind.step (ort : Ort L C) : ProviderKind C → BuilderCall L C
  | .cuda => .withExecutionProviders [.cuda ort.cudaDefault]
  | .tensorRT =>
    .withExecutionProviders [.tensorRT ort.tensorRTDefault.1 ort.tensorRTDefault.2]
  | .xnnpack => .withExecutionProviders [.xnnpack]
  | .coreML => .withExecutionProviders [.coreML]
  | .custom c => .callback c

lemma ProviderKind.step_inj {ort : Ort L C} (k k' : ProviderKind C) (h : k.step ort = k'.step ort) :
    k = k' := by
  cases k <;> cases k' <;> simp_all [ProviderKind.step]

/-! ### What a build does -/

section Build

variable {ort : Ort L C} {features : Features} {modelPath : String} {config : SessionConfig L C}
  {session : BuiltSession L C} {b b' : List (BuilderCall L C)}

open SessionBuilder

lemma bind_eq_ok {ε α β : Type} {x : Except ε α} {f : α → Except ε β} {y : β} :
    x >>= f = .ok y ↔ ∃ a, x = .ok a ∧ f a = .ok y := by
  cases x with
  | error e => exact ⟨fun h => (by cases h), fun ⟨_, h, _⟩ => (by cases h)⟩
  | ok a =>
    constructor
    · intro h
      exact ⟨a, rfl, h⟩
    · rintro ⟨a', ha, h⟩
      cases ha
      exact h

lemma Ort.call_ok {c : BuilderCall L C} (h : ort.call b c = .ok b') : b' = b ++ [c] := by
  obtain ⟨-, -, h⟩ := bind_eq_ok.1 h
  cases h
  rfl

/-- A call behind a feature gate. -/
lemma gate_ok {feature : Bool} {e : String} {c : BuilderCall L C}
    (h : (if feature then ort.call b c else .error e) = .ok b') : feature ∧ b' = b ++ [c] := by
  cases feature with
  | true => exact ⟨rfl, Ort.call_ok h⟩
  | false => cases h

/-- One entry: its feature is compiled in, and the step of its kind is taken. -/
lemma applyExecutionProvider_ok {provider : ExecutionProvider C}
    (h : applyExecutionProvider ort features b provider = .ok b') :
    provider.Compiled features ∧ b' = b ++ (provider.kind.map (ProviderKind.step ort)).toList := by
  cases provider with
  | cpu =>
    cases h
    exact ⟨trivial, (List.append_nil _).symm⟩
  | cuda d => exact gate_ok h
  | tensorRT d fp16 => exact gate_ok h
  | xnnpack => exact gate_ok h
  | coreML => exact gate_ok h
  | custom c => exact ⟨trivial, Ort.call_ok h⟩

/-- All entries, in the order of the list. -/
lemma foldlM_applyExecutionProvider_ok {providers : List (ExecutionProvider C)}
    (h : providers.foldlM (applyExecutionProvider ort features) b = .ok b') :
    (∀ provider ∈ providers, provider.Compiled features) ∧
      b' = b ++ (providers.filterMap ExecutionProvider.kind).map (ProviderKind.step ort) := by
  induction providers generalizing b with
  | nil =>
    cases h
    exact ⟨by simp, (List.append_nil _).symm⟩
  | cons provider providers ih =>
    rw [List.foldlM_cons] at h
    obtain ⟨b₁, h₁, h⟩ := bind_eq_ok.1 h
    obtain ⟨hf, rfl⟩ := applyExecutionProvider_ok h₁
    obtain ⟨hfs, rfl⟩ := ih h
    refine ⟨List.forall_mem_cons.2 ⟨hf, hfs⟩, ?_⟩
    cases hk : provider.kind with
    | none => simp [hk]
    | some k => simp [hk]

/-- The settings every builder gets before its execution providers. -/
def SessionConfig.settings (config : SessionConfig L C) : List (BuilderCall L C) :=
  [.withOptimizationLevel config.optimizationLevel, .withIntraThreads config.threadsPerSession,
    .withInterThreads 1, .withParallelExecution false]

/-- A build that succeeds: every feature that is needed is compiled in, and the builder has taken
the settings and then a step for each entry other than `Cpu`. -/
theorem build_ok (h : build ort features modelPath config = .ok session) :
    (∀ provider ∈ config.executionProviders, provider.Compiled features) ∧
      session = ⟨config.settings ++
        (config.executionProviders.filterMap ExecutionProvider.kind).map (ProviderKind.step ort),
        modelPath⟩ := by
  unfold build at h
  obtain ⟨-, -, h⟩ := bind_eq_ok.1 h
  obtain ⟨b₁, h₁, h⟩ := bind_eq_ok.1 h
  obtain ⟨b₂, h₂, h⟩ := bind_eq_ok.1 h
  obtain ⟨b₃, h₃, h⟩ := bind_eq_ok.1 h
  obtain ⟨b₄, h₄, h⟩ := bind_eq_ok.1 h
  obtain ⟨b₅, h₅, h⟩ := bind_eq_ok.1 h
  obtain ⟨-, -, h⟩ := bind_eq_ok.1 h
  obtain rfl := Ort.call_ok h₁
  obtain rfl := Ort.call_ok h₂
  obtain rfl := Ort.call_ok h₃
  obtain rfl := Ort.call_ok h₄
  obtain ⟨hf, rfl⟩ := foldlM_applyExecutionProvider_ok h₅
  cases h
  exact ⟨hf, rfl⟩

/-- So the steps depend on the kinds of the entries and on nothing else. -/
lemma steps_of_build (h : build ort features modelPath config = .ok session) :
    session.steps =
      (config.executionProviders.filterMap ExecutionProvider.kind).map (ProviderKind.step ort) := by
  obtain ⟨-, rfl⟩ := build_ok h
  have hsettings : (config.settings).filter BuilderCall.isStep = [] := rfl
  rw [BuiltSession.steps, List.filter_append, hsettings, List.nil_append, List.filter_eq_self]
  intro c hc
  obtain ⟨k, -, rfl⟩ := List.mem_map.1 hc
  cases k <;> rfl

/-- The steps of the kinds are the steps asked for just when all options are the defaults. -/
lemma map_step_eq_asked_iff (providers : List (ExecutionProvider C)) :
    (providers.filterMap ExecutionProvider.kind).map (ProviderKind.step ort) =
        providers.filterMap ExecutionProvider.asked ↔
      ∀ provider ∈ providers, provider.IsDefault ort := by
  induction providers with
  | nil => simp
  | cons provider providers ih =>
    rw [List.forall_mem_cons, ← ih, List.filterMap_cons, List.filterMap_cons]
    cases provider with
    | cpu => simp [ExecutionProvider.kind, ExecutionProvider.asked, ExecutionProvider.IsDefault]
    | cuda d =>
      simp [ExecutionProvider.kind, ExecutionProvider.asked, ExecutionProvider.IsDefault,
        ProviderKind.step, eq_comm (b := d)]
    | tensorRT d fp16 =>
      simp [ExecutionProvider.kind, ExecutionProvider.asked, ExecutionProvider.IsDefault,
        ProviderKind.step, eq_comm (b := d), eq_comm (b := fp16)]
    | _ =>
      simp [ExecutionProvider.kind, ExecutionProvider.asked, ExecutionProvider.IsDefault,
        ProviderKind.step]

/-- **A session is registered as configured just when it is configured as by default.**  Whatever
`ort` does, the features and the configuration: when the build succeeds, its steps are the ones the
entries ask for, in order, if and only if every entry asks for the options of `ort`'s `default()`;
and two builds take the same steps if and only if their lists agree in kind, whatever their devices
and precisions. -/
theorem execution_providers_iff (h : build ort features modelPath config = .ok session) :
    (session.steps = config.executionProviders.filterMap ExecutionProvider.asked ↔
      ∀ provider ∈ config.executionProviders, provider.IsDefault ort) ∧
    ∀ modelPath' config' session', build ort features modelPath' config' = .ok session' →
      (session.steps = session'.steps ↔
        config.executionProviders.filterMap ExecutionProvider.kind =
          config'.executionProviders.filterMap ExecutionProvider.kind) := by
  refine ⟨?_, ?_⟩
  · rw [steps_of_build h]
    exact map_step_eq_asked_iff _
  · intro modelPath' config' session' h'
    rw [steps_of_build h, steps_of_build h']
    exact List.map_inj_right ProviderKind.step_inj

end Build

/-! ### Two devices -/

/-- An `ort` that takes every call, with the defaults it documents. -/
def acceptingOrt : Ort Unit Unit where
  builder := .ok ()
  accept _ _ := .ok ()
  commitFromFile _ _ := .ok ()
  cudaDefault := 0
  tensorRTDefault := (0, false)

def allFeatures : Features := ⟨true, true, true, true⟩

/-- The default configuration with one GPU added to it. -/
def onDevice (d : ℕ) : SessionConfig Unit Unit :=
  SessionConfig.withExecutionProvider { optimizationLevel := () } (.cuda d)

/-- On the first device the steps are the ones asked for. -/
theorem execution_providers_first : ∃ session : BuiltSession Unit Unit,
    SessionBuilder.build acceptingOrt allFeatures "model.onnx" (onDevice 0) = .ok session ∧
    session.steps = (onDevice 0).executionProviders.filterMap ExecutionProvider.asked := by
  refine ⟨⟨(onDevice 0).settings ++ [.withExecutionProviders [.cuda 0]], "model.onnx"⟩, rfl, ?_⟩
  have hbuild : SessionBuilder.build acceptingOrt allFeatures "model.onnx" (onDevice 0) =
      .ok ⟨(onDevice 0).settings ++ [.withExecutionProviders [.cuda 0]], "model.onnx"⟩ := rfl
  exact (execution_providers_iff hbuild).1.2 (by decide)

/-- On the second they are those of the first. -/
theorem not_execution_providers : ¬ ∀ (ort : Ort Unit Unit) (features : Features)
    (modelPath : String) (config config' : SessionConfig Unit Unit)
    (session session' : BuiltSession Unit Unit),
    SessionBuilder.build ort features modelPath config = .ok session →
    SessionBuilder.build ort features modelPath config' = .ok session' →
    session.steps = config.executionProviders.filterMap ExecutionProvider.asked ∧
      (config.executionProviders.map ExecutionProvider.kind =
          config'.executionProviders.map ExecutionProvider.kind →
        config.executionProviders ≠ config'.executionProviders →
        session.steps ≠ session'.steps) := by
  intro h
  exact (h acceptingOrt allFeatures "model.onnx" (onDevice 0) (onDevice 1)
    ⟨(onDevice 0).settings ++ [.withExecutionProviders [.cuda 0]], "model.onnx"⟩
    ⟨(onDevice 1).settings ++ [.withExecutionProviders [.cuda 0]], "model.onnx"⟩ rfl rfl).2
    rfl (by decide) rfl

end OrtSuperserve

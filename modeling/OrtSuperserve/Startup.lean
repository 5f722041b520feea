import OrtSuperserve.Server
import OrtSuperserve.SessionBuilder

/-!
# `server.rs`: from a model to the arguments of `start`

`from_file` opens a session on the model to see that it can be opened, takes the names of the input and
output tensors from the configuration or, where it has none, from the session, and drops the session;
`from_url` does the same with a file it has downloaded.  The result is what `start` is called with, or
the text of the error.

Files and `ort` may change while the server runs, so what is outside is the `Host` of one moment; all
hosts that an attempt to open a session may meet are indexed by `H`.
-/

namespace OrtSuperserve

variable {H L C M I P O F : Type}

/-! ### The configuration -/

/-- `ServerConfig`: what a session is built from, what the batcher reads, and the two names. -/
@[ext]
structure StartConfig (L C : Type) extends SessionConfig L C, ServerConfig where
  inputName : Option String := none
  outputName : Option String := none

namespace StartConfig

def withInputName (config : StartConfig L C) (name : String) : StartConfig L C :=
  { config with inputName := some name }

def withOutputName (config : StartConfig L C) (name : String) : StartConfig L C :=
  { config with outputName := some name }

end StartConfig

/-! ### What is outside -/

/-- `ort` and the files at one moment: `file` has the model a commit finds at a path. -/
structure Host (L C M : Type) where
  ort : Ort L C
  file : String → M

/-- A session, with the calls it was built by and the model in it. -/
structure OpenSession (L C M : Type) where
  built : BuiltSession L C
  model : M
deriving DecidableEq

/-- The features of the crate, the hosts, the names and runs of a session, the target and the user's
code. -/
structure Environment (H L C M I P O F : Type) where
  features : Features
  host : H → Host L C M
  inputs : OpenSession L C M → List String
  outputs : OpenSession L C M → List String
  session : OpenSession L C M → Session F
  target : Target
  user : UserCode I P O F

/-- The arguments of `start`. -/
structure Launch (L C : Type) where
  modelPath : String
  config : StartConfig L C
  inputName : String
  outputName : String

/-- What the tasks that `start` spawns are given, with the session of a worker. -/
def Launch.setup (l : Launch L C) (E : Environment H L C M I P O F) (session : Session F) :
    Setup I P O F where
  config := l.config.toServerConfig
  target := E.target
  user := E.user
  session := session
  inputName := l.inputName
  outputName := l.outputName

/-! ### `from_file` -/

/-- The configured name, or that of the first tensor. -/
def tensorName (configured : Option String) (names : List String) (e : String) :
    Except String String :=
  match configured, names with
  | some name, _ => .ok name
  | none, name :: _ => .ok name
  | none, [] => .error e

namespace Environment

variable (E : Environment H L C M I P O F)

/-- One call of `SessionBuilder::build`. -/
def openSession (host : Host L C M) (modelPath : String) (config : StartConfig L C) :
    Except String (OpenSession L C M) := do
  let built ← SessionBuilder.build host.ort E.features modelPath config.toSessionConfig
  return ⟨built, host.file modelPath⟩

def fromFile (host : Host L C M) (path : String) (config : StartConfig L C) :
    Except String (Launch L C) := do
  let session ← E.openSession host path config
  let inputName ← tensorName config.inputName (E.inputs session) "Model has no inputs"
  let outputName ← tensorName config.outputName (E.outputs session) "Model has no outputs"
  return ⟨path, config, inputName, outputName⟩

end Environment

/-! ### `from_url` -/

structure HttpResponse (M : Type) where
  status : ℕ
  statusText : String
  bytes : Except String M

def HttpResponse.isSuccess (response : HttpResponse M) : Bool :=
  200 ≤ response.status && response.status < 300

/-- The paths in the temporary directory, `reqwest::get` and `std::fs::write`. -/
structure Network (M : Type) where
  tempFile : String → String
  get : String → Except String (HttpResponse M)
  write : String → M → Except String Unit

/-- Where a download goes, which has a name of its own. -/
def Network.modelPath (net : Network M) (uuid : String) : String :=
  net.tempFile ("ort-superserve-model-" ++ uuid ++ ".onnx")

/-- The host with a file written. -/
def Host.store (host : Host L C M) (path : String) (bytes : M) : Host L C M :=
  { host with file := Function.update host.file path bytes }

@[simp] lemma Host.file_store (host : Host L C M) (path : String) (bytes : M) :
    (host.store path bytes).file path = bytes := Function.update_self _ _ _

/-- `anyhow`'s `context`: the text is the outermost one. -/
def context {α : Type} (x : Except String α) (text : String) : Except String α :=
  match x with
  | .ok a => .ok a
  | .error _ => .error text

def Environment.fromUrl (E : Environment H L C M I P O F) (net : Network M) (uuid : String)
    (host : Host L C M) (url : String) (config : StartConfig L C) : Except String (Launch L C) := do
  let modelPath := net.modelPath uuid
  let response ← context (net.get url) ("Failed to download model from " ++ url)
  if response.isSuccess = false then
    throw ("Failed to download model: HTTP " ++ response.statusText)
  let bytes ← context response.bytes "Failed to read model bytes"
  context (net.write modelPath bytes) ("Failed to write model to " ++ modelPath)
  E.fromFile (host.store modelPath bytes) modelPath config

/-! ### What a launch has behind it -/

section Results

variable {E : Environment H L C M I P O F} {host : Host L C M} {path : String}
  {config : StartConfig L C} {l : Launch L C}

/-- A name that came out of the configuration or of the session. -/
lemma tensorName_ok {configured : Option String} {names : List String} {e name : String}
    (h : tensorName configured names e = .ok name) :
    configured = some name ∨ configured = none ∧ names.head? = some name := by
  unfold tensorName at h
  split at h
  · cases h
    exact .inl rfl
  · cases h
    exact .inr ⟨rfl, rfl⟩
  · cases h

/-- There is a name if one is configured or there is a tensor to name. -/
lemma exists_tensorName {configured : Option String} {names : List String} {e : String} :
    (∃ name, tensorName configured names e = .ok name) ↔ configured ≠ none ∨ names ≠ [] := by
  cases configured with
  | some name => exact ⟨fun _ => .inl (by simp), fun _ => ⟨name, rfl⟩⟩
  | none =>
    cases names with
    | cons name names => exact ⟨fun _ => .inr (by simp), fun _ => ⟨name, rfl⟩⟩
    | nil => simp [tensorName]

/-- An open session is built as the configuration says, from the file. -/
lemma openSession_ok {session : OpenSession L C M}
    (h : E.openSession host path config = .ok session) :
    SessionBuilder.build host.ort E.features path config.toSessionConfig = .ok session.built ∧
      session.model = host.file path := by
  obtain ⟨built, hbuild, h⟩ := bind_eq_ok.1 h
  cases h
  exact ⟨hbuild, rfl⟩

/-- **`from_file` has opened a session**, and has its names from there or from the configuration. -/
theorem fromFile_ok (h : E.fromFile host path config = .ok l) :
    ∃ session, E.openSession host path config = .ok session ∧
      l.modelPath = path ∧ l.config = config ∧
      (config.inputName = some l.inputName ∨
        config.inputName = none ∧ (E.inputs session).head? = some l.inputName) ∧
      (config.outputName = some l.outputName ∨
        config.outputName = none ∧ (E.outputs session).head? = some l.outputName) := by
  obtain ⟨session, hopen, h⟩ := bind_eq_ok.1 h
  obtain ⟨inputName, hin, h⟩ := bind_eq_ok.1 h
  obtain ⟨outputName, hout, h⟩ := bind_eq_ok.1 h
  cases h
  exact ⟨session, hopen, rfl, rfl, tensorName_ok hin, tensorName_ok hout⟩

/-- **Once a session is open `from_file` looks no name up**: it asks for one where none is configured,
and that is all. -/
theorem exists_fromFile {session : OpenSession L C M}
    (hopen : E.openSession host path config = .ok session) :
    (∃ l, E.fromFile host path config = .ok l) ↔
      (config.inputName ≠ none ∨ E.inputs session ≠ []) ∧
        (config.outputName ≠ none ∨ E.outputs session ≠ []) := by
  rw [← exists_tensorName (e := "Model has no inputs"),
    ← exists_tensorName (e := "Model has no outputs")]
  constructor
  · rintro ⟨l, h⟩
    obtain ⟨session', hopen', h⟩ := bind_eq_ok.1 h
    obtain rfl : session = session' := Except.ok.inj (hopen.symm.trans hopen')
    obtain ⟨inputName, hin, h⟩ := bind_eq_ok.1 h
    obtain ⟨outputName, hout, -⟩ := bind_eq_ok.1 h
    exact ⟨⟨inputName, hin⟩, outputName, hout⟩
  · rintro ⟨⟨inputName, hin⟩, outputName, hout⟩
    refine ⟨⟨path, config, inputName, outputName⟩, bind_eq_ok.2 ⟨session, hopen, ?_⟩⟩
    exact bind_eq_ok.2 ⟨inputName, hin, bind_eq_ok.2 ⟨outputName, hout, rfl⟩⟩

lemma context_ok {α : Type} {x : Except String α} {text : String} {a : α}
    (h : context x text = .ok a) : x = .ok a := by
  cases x with
  | ok b => exact h
  | error e => cases h

/-- What is downloaded and written goes on to `from_file`. -/
lemma fromUrl_eq {net : Network M} {uuid url : String} {response : HttpResponse M} {bytes : M}
    (hget : net.get url = .ok response) (hs : response.isSuccess = true)
    (hbytes : response.bytes = .ok bytes) (hwrite : net.write (net.modelPath uuid) bytes = .ok ()) :
    E.fromUrl net uuid host url config =
      E.fromFile (host.store (net.modelPath uuid) bytes) (net.modelPath uuid) config := by
  unfold Environment.fromUrl
  rw [hget]
  show (if response.isSuccess = false then _ else _) = _
  rw [if_neg (by simp [hs])]
  show (context response.bytes _ >>= _) = _
  rw [hbytes]
  show (context (net.write (net.modelPath uuid) bytes) _ >>= _) = _
  rw [hwrite]
  rfl

/-- **`from_url` is `from_file` on what it has downloaded.** -/
theorem fromUrl_ok {net : Network M} {uuid url : String}
    (h : E.fromUrl net uuid host url config = .ok l) :
    ∃ response bytes, net.get url = .ok response ∧ response.isSuccess = true ∧
      response.bytes = .ok bytes ∧ net.write l.modelPath bytes = .ok () ∧
      E.fromFile (host.store l.modelPath bytes) l.modelPath config = .ok l := by
  obtain ⟨response, hget, h⟩ := bind_eq_ok.1 h
  cases hs : response.isSuccess with
  | false =>
    rw [hs] at h
    cases h
  | true =>
    rw [hs] at h
    obtain ⟨bytes, hbytes, h⟩ := bind_eq_ok.1 h
    obtain ⟨u, hwrite, h⟩ := bind_eq_ok.1 h
    obtain ⟨-, -, hpath, -⟩ := fromFile_ok h
    rw [← hpath] at h hwrite
    exact ⟨response, bytes, context_ok hget, hs, context_ok hbytes, context_ok hwrite, h⟩

end Results

end OrtSuperserve

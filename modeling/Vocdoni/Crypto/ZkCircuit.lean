import Mathlib.Data.List.Basic

/-!
# Loading the circuit artifacts

`LoadZkCircuit` fills a `ZkCircuit` with its three artifacts: the proving key,
the verification key and the wasm. It tries the local files first and keeps them if
they pass `VerifiedCircuitArtifacts`; else it downloads the three artifacts, stores
them, and checks them again.

The file system, the network and `sha256` are the environment `Env`; each of its
operations is a function of its arguments, so a theorem over every `Env` holds for
every content of the file system and every HTTP response. A Go byte slice is
`GoBytes`, `none` standing for nil, which `checkHash` rejects.

* `loadZkCircuit_verified` — a circuit `LoadZkCircuit` returns with a nil error
  carries the config it was given, and each of its artifacts is non-nil and hashes
  to the config's non-nil expected hash;
* `loadZkCircuit_of_remote` — when the server returns the three artifacts with the
  expected hashes and they can be stored, `LoadZkCircuit` succeeds, whatever the
  local files hold.
-/

namespace Vocdoni.Circuit

/-- A Go `[]byte`: `none` is nil. -/
abbrev GoBytes := Option (List UInt8)

/-- `ZkCircuitConfig`, without `Parameters` and `Levels`, which loading does not read. -/
structure ZkCircuitConfig where
  uri : String
  circuitPath : String
  localDir : String
  wasmHash : GoBytes
  provingKeyHash : GoBytes
  verificationKeyHash : GoBytes
  deriving DecidableEq, Repr

/-- `ZkCircuit`: the artifacts' contents and the config. -/
structure ZkCircuit where
  provingKey : GoBytes
  verificationKey : GoBytes
  wasm : GoBytes
  config : ZkCircuitConfig
  deriving DecidableEq, Repr

/-- The file system, the network and the hash function. -/
structure Env where
  /-- `os.ReadFile`: the data read (nil, or partial, on an error) and the error. -/
  readFile : String → GoBytes × Option String
  /-- The error of `os.MkdirAll`. -/
  mkdirAll : String → Option String
  /-- `url.Parse` followed by `String()`. -/
  parseUrl : String → Except String String
  /-- `http.DefaultClient.Do` of a GET: the status code and what `io.ReadAll` reads
  of the body, or the request's error. -/
  get : String → Except String (Nat × Except String (List UInt8))
  /-- Whether `os.Stat` of the path's parent directory succeeds. -/
  parentExists : String → Bool
  /-- The error of `os.Create`. -/
  create : String → Option String
  /-- `fd.Write`: the number of bytes written, or the error. -/
  write : String → List UInt8 → Except String Nat
  /-- `sha256.Sum`. -/
  sha256 : List UInt8 → List UInt8

/-! ## Artifacts -/

/-- The three artifacts, in the order the code handles them. -/
inductive Artifact where
  | provingKey
  | verificationKey
  | wasm
  deriving DecidableEq, Repr

/-- `FilenameProvingKey`, `FilenameVerificationKey`, `FilenameWasm`. -/
def Artifact.filename : Artifact → String
  | .provingKey => "proving_key.zkey"
  | .verificationKey => "verification_key.json"
  | .wasm => "circuit.wasm"

/-- The artifact's name in the error texts. -/
def Artifact.label : Artifact → String
  | .provingKey => "provingKey"
  | .verificationKey => "verificationKey"
  | .wasm => "wasm circuit"

/-- The artifacts in the order `LoadLocal` and `LoadRemote` handle them. -/
def artifacts : List Artifact := [.provingKey, .verificationKey, .wasm]

/-- The config's expected hash for an artifact. -/
def ZkCircuitConfig.expectedHash (config : ZkCircuitConfig) : Artifact → GoBytes
  | .provingKey => config.provingKeyHash
  | .verificationKey => config.verificationKeyHash
  | .wasm => config.wasmHash

/-- The circuit's field for an artifact. -/
def ZkCircuit.artifact (c : ZkCircuit) : Artifact → GoBytes
  | .provingKey => c.provingKey
  | .verificationKey => c.verificationKey
  | .wasm => c.wasm

/-- Assign the circuit's field for an artifact. -/
def ZkCircuit.setArtifact (c : ZkCircuit) : Artifact → GoBytes → ZkCircuit
  | .provingKey, data => { c with provingKey := data }
  | .verificationKey, data => { c with verificationKey := data }
  | .wasm, data => { c with wasm := data }

@[simp] theorem ZkCircuit.setArtifact_config (c : ZkCircuit) (a : Artifact) (data : GoBytes) :
    (c.setArtifact a data).config = c.config := by
  cases a <;> rfl

/-- `filepath.Join` of non-empty elements, without its `Clean`. -/
def joinPath (parts : List String) : String :=
  "/".intercalate (parts.filter fun p => !p.isEmpty)

/-- Handle the artifacts in order, stopping at the first error; the circuit keeps
what the failing step assigned. -/
def ZkCircuit.eachArtifact (step : ZkCircuit → Artifact → ZkCircuit × Option String) :
    List Artifact → ZkCircuit → ZkCircuit × Option String
  | [], c => (c, none)
  | a :: as, c =>
    match step c a with
    | (c, some e) => (c, some e)
    | (c, none) => ZkCircuit.eachArtifact step as c

theorem ZkCircuit.eachArtifact_config {step : ZkCircuit → Artifact → ZkCircuit × Option String}
    (hstep : ∀ c a, (step c a).1.config = c.config) (as : List Artifact) (c : ZkCircuit) :
    (ZkCircuit.eachArtifact step as c).1.config = c.config := by
  induction as generalizing c with
  | nil => rfl
  | cons a as ih =>
    unfold ZkCircuit.eachArtifact
    have hc := hstep c a
    generalize step c a = r at hc ⊢
    obtain ⟨c', _ | e⟩ := r
    · exact (ih c').trans hc
    · exact hc

/-! ## `LoadLocal` -/

/-- One read of `LoadLocal`: `os.ReadFile` of the artifact's local path into its field. -/
def ZkCircuit.readLocal (env : Env) (c : ZkCircuit) (a : Artifact) : ZkCircuit × Option String :=
  let (data, err) := env.readFile (joinPath [c.config.localDir, c.config.circuitPath, a.filename])
  (c.setArtifact a data, err.map fun e => "error reading " ++ a.label ++ " locally: " ++ e)

/-- `LoadLocal`. -/
def ZkCircuit.loadLocal (env : Env) (c : ZkCircuit) : ZkCircuit × Option String :=
  ZkCircuit.eachArtifact (ZkCircuit.readLocal env) artifacts c

/-! ## `LoadRemote` -/

/-- `downloadFile`: the content, nil with the error on a failure. -/
def downloadFile (env : Env) (fileUrl : String) : GoBytes × Option String :=
  match env.parseUrl fileUrl with
  | .error e => (none, some ("error parsing the file URL provided: " ++ e))
  | .ok _ =>
    match env.get fileUrl with
    | .error e => (none, some e)
    | .ok (status, body) =>
      if status ≠ 200 then
        (none, some ("error on download file " ++ fileUrl ++ ": http status: " ++ toString status))
      else
        match body with
        | .error e => (none, some ("error reading the file content from the http response: " ++ e))
        | .ok content => (some content, none)

/-- `storeFile`: the error, if any. -/
def storeFile (env : Env) (content : GoBytes) (dstPath : String) : Option String :=
  match content with
  | none => some "no content provided"
  | some bytes =>
    if !env.parentExists dstPath then some "destination path parent folder does not exist"
    else
      match env.create dstPath with
      | some e => some ("something was wrong creating the artifact file: " ++ e)
      | none =>
        match env.write dstPath bytes with
        | .error e => some ("something was wrong writting the artifact file: " ++ e)
        | .ok n =>
          if bytes.length ≠ n then
            some ("something was wrong writting the artifact file: the length of the " ++
              "provided content does not match with the bytes writted")
          else none

/-- One download block of `LoadRemote`: download the artifact into its field, then
store it under the local path. -/
def ZkCircuit.fetchRemote (env : Env) (remotePath localPath : String) (c : ZkCircuit)
    (a : Artifact) : ZkCircuit × Option String :=
  let (content, err) := downloadFile env (remotePath ++ "/" ++ a.filename)
  let c := c.setArtifact a content
  match err with
  | some e => (c, some ("error downloading " ++ a.label ++ ": " ++ e))
  | none =>
    match storeFile env content (joinPath [localPath, a.filename]) with
    | some e => (c, some ("error storing " ++ a.label ++ ": " ++ e))
    | none => (c, none)

/-- `LoadRemote`. -/
def ZkCircuit.loadRemote (env : Env) (c : ZkCircuit) : ZkCircuit × Option String :=
  match env.parseUrl c.config.uri with
  | .error e => (c, some e)
  | .ok baseUri =>
    let remotePath := baseUri ++ "/" ++ c.config.circuitPath
    let localPath := joinPath [c.config.localDir, c.config.circuitPath]
    match env.mkdirAll localPath with
    | some e => (c, some e)
    | none => ZkCircuit.eachArtifact (ZkCircuit.fetchRemote env remotePath localPath) artifacts c

/-! ## Checking and loading -/

/-- `checkHash`. The `hash.Write` of `crypto/sha256` never fails, so its two error
branches are left out. -/
def checkHash (sha256 : List UInt8 → List UInt8) (content expected : GoBytes) :
    Except String Bool :=
  match content, expected with
  | none, _ => .error "no content provided to check"
  | some _, none => .error "no hash provided to compare"
  | some bytes, some hash => .ok (decide (sha256 bytes = hash))

/-- `VerifiedCircuitArtifacts`. -/
def ZkCircuit.verifiedCircuitArtifacts (sha256 : List UInt8 → List UInt8) (c : ZkCircuit) :
    Except String Bool := do
  let zKeyVerified ← checkHash sha256 c.provingKey c.config.provingKeyHash
  let vKeyVerified ← checkHash sha256 c.verificationKey c.config.verificationKeyHash
  let wasmVerified ← checkHash sha256 c.wasm c.config.wasmHash
  return zKeyVerified && vKeyVerified && wasmVerified

/-- The second half of `LoadZkCircuit`: `LoadRemote`, then the check. -/
def ZkCircuit.loadRemoteVerified (env : Env) (c : ZkCircuit) : Except String ZkCircuit :=
  match c.loadRemote env with
  | (_, some e) => .error e
  | (c, none) =>
    match c.verifiedCircuitArtifacts env.sha256 with
    | .error e => .error e
    | .ok false => .error "download artifacts does not match with the expected ones"
    | .ok true => .ok c

/-- `LoadZkCircuit`. -/
def loadZkCircuit (env : Env) (config : ZkCircuitConfig) : Except String ZkCircuit :=
  match (ZkCircuit.mk none none none config).loadLocal env with
  | (c, none) =>
    match c.verifiedCircuitArtifacts env.sha256 with
    | .ok true => .ok c
    | _ => c.loadRemoteVerified env
  | (c, some _) => c.loadRemoteVerified env

/-! ## What a loaded circuit holds -/

/-- The content is non-nil, and so is the expected hash, which is the content's. -/
def ArtifactMatches (sha256 : List UInt8 → List UInt8) (content expected : GoBytes) : Prop :=
  ∃ bytes, content = some bytes ∧ expected = some (sha256 bytes)

theorem except_bind_eq_ok {ε α β : Type} {x : Except ε α} {f : α → Except ε β} {b : β}
    (h : x >>= f = .ok b) : ∃ a, x = .ok a ∧ f a = .ok b := by
  cases x with
  | error e => cases h
  | ok a => exact ⟨a, rfl, h⟩

theorem checkHash_eq_ok_true {sha256 : List UInt8 → List UInt8} {content expected : GoBytes}
    (h : checkHash sha256 content expected = .ok true) : ArtifactMatches sha256 content expected := by
  cases content with
  | none => cases h
  | some bytes =>
    cases expected with
    | none => cases h
    | some hash => exact ⟨bytes, rfl, by simpa [checkHash, eq_comm] using h⟩

/-- `VerifiedCircuitArtifacts` returns true, with no error, only when all three
artifacts match. -/
theorem ZkCircuit.matches_of_verified {sha256 : List UInt8 → List UInt8} {c : ZkCircuit}
    (h : c.verifiedCircuitArtifacts sha256 = .ok true) :
    ArtifactMatches sha256 c.provingKey c.config.provingKeyHash ∧
      ArtifactMatches sha256 c.verificationKey c.config.verificationKeyHash ∧
      ArtifactMatches sha256 c.wasm c.config.wasmHash := by
  obtain ⟨z, hz, h⟩ := except_bind_eq_ok h
  obtain ⟨v, hv, h⟩ := except_bind_eq_ok h
  obtain ⟨w, hw, h⟩ := except_bind_eq_ok h
  have all : (z && v && w) = true := Except.ok.inj h
  simp only [Bool.and_eq_true] at all
  obtain ⟨⟨rfl, rfl⟩, rfl⟩ := all
  exact ⟨checkHash_eq_ok_true hz, checkHash_eq_ok_true hv, checkHash_eq_ok_true hw⟩

theorem ZkCircuit.loadLocal_config (env : Env) (c : ZkCircuit) :
    (c.loadLocal env).1.config = c.config :=
  ZkCircuit.eachArtifact_config (fun c a => by unfold ZkCircuit.readLocal; split; simp) _ c

theorem ZkCircuit.loadRemote_config (env : Env) (c : ZkCircuit) :
    (c.loadRemote env).1.config = c.config := by
  have fetch : ∀ remotePath localPath c a,
      (ZkCircuit.fetchRemote env remotePath localPath c a).1.config = c.config := by
    intro remotePath localPath c a
    unfold ZkCircuit.fetchRemote
    split
    split
    · simp
    · split <;> simp
  unfold ZkCircuit.loadRemote
  split
  · rfl
  · dsimp only
    split
    · rfl
    · exact ZkCircuit.eachArtifact_config (fetch _ _) _ c

/-- What the second half of `LoadZkCircuit` returns is verified and keeps the config. -/
theorem ZkCircuit.loadRemoteVerified_ok {env : Env} {c c' : ZkCircuit}
    (h : c.loadRemoteVerified env = .ok c') :
    c'.config = c.config ∧ c'.verifiedCircuitArtifacts env.sha256 = .ok true := by
  unfold ZkCircuit.loadRemoteVerified at h
  have config := ZkCircuit.loadRemote_config env c
  generalize c.loadRemote env = r at h config
  obtain ⟨c₁, _ | e⟩ := r
  · dsimp only at h config
    split at h <;> cases h
    exact ⟨config, ‹_›⟩
  · cases h

/-- **`LoadZkCircuit` never returns unverified artifacts.** A circuit returned with
a nil error carries the given config, and each of its three artifacts is non-nil and
hashes to the config's expected hash, which is non-nil: a config with a nil
expected hash never loads. -/
theorem loadZkCircuit_verified (env : Env) (config : ZkCircuitConfig) (c : ZkCircuit)
    (h : loadZkCircuit env config = .ok c) :
    c.config = config ∧
      ArtifactMatches env.sha256 c.provingKey config.provingKeyHash ∧
      ArtifactMatches env.sha256 c.verificationKey config.verificationKeyHash ∧
      ArtifactMatches env.sha256 c.wasm config.wasmHash := by
  have verified : c.config = config ∧ c.verifiedCircuitArtifacts env.sha256 = .ok true := by
    unfold loadZkCircuit at h
    have config₁ := ZkCircuit.loadLocal_config env ⟨none, none, none, config⟩
    generalize (ZkCircuit.mk none none none config).loadLocal env = r at h config₁
    obtain ⟨c₁, _ | e⟩ := r
    · dsimp only at h config₁
      split at h
      · cases h
        exact ⟨config₁, ‹_›⟩
      · obtain ⟨hc, hv⟩ := ZkCircuit.loadRemoteVerified_ok h
        exact ⟨hc.trans config₁, hv⟩
    · obtain ⟨hc, hv⟩ := ZkCircuit.loadRemoteVerified_ok h
      exact ⟨hc.trans config₁, hv⟩
  obtain ⟨rfl, hv⟩ := verified
  exact ⟨rfl, ZkCircuit.matches_of_verified hv⟩

/-- Artifacts of one byte, `[1]`, with their expected hashes under the identity hash. -/
def onesConfig : ZkCircuitConfig := ⟨"https://x", "c", "d", some [1], some [1], some [1]⟩

/-- Local files holding `[1]`, no network, the identity as hash. -/
def offlineEnv : Env :=
  ⟨fun _ => (some [1], none), fun _ => none, fun _ => .error "no network",
    fun _ => .error "no network", fun _ => true, fun _ => none, fun _ b => .ok b.length, id⟩

/-- `loadZkCircuit_verified` on the local fast path. -/
theorem loadZkCircuit_verified_offline :
    loadZkCircuit offlineEnv onesConfig = .ok ⟨some [1], some [1], some [1], onesConfig⟩ ∧
      (⟨some [1], some [1], some [1], onesConfig⟩ : ZkCircuit).config = onesConfig ∧
      ArtifactMatches offlineEnv.sha256 (some [1]) onesConfig.provingKeyHash ∧
      ArtifactMatches offlineEnv.sha256 (some [1]) onesConfig.verificationKeyHash ∧
      ArtifactMatches offlineEnv.sha256 (some [1]) onesConfig.wasmHash :=
  ⟨rfl, loadZkCircuit_verified offlineEnv onesConfig _ rfl⟩

/-! ## A correct server suffices -/

theorem ZkCircuit.eachArtifact_of_ok {step : ZkCircuit → Artifact → ZkCircuit × Option String}
    {content : Artifact → GoBytes} (hstep : ∀ c a, step c a = (c.setArtifact a (content a), none))
    (c : ZkCircuit) :
    ZkCircuit.eachArtifact step artifacts c =
      (⟨content .provingKey, content .verificationKey, content .wasm, c.config⟩, none) := by
  simp [ZkCircuit.eachArtifact, artifacts, hstep, ZkCircuit.setArtifact]

section Server

variable {env : Env} {config : ZkCircuitConfig} {baseUri : String} {content : Artifact → List UInt8}

/-- From a correct server, `LoadRemote` and the hash check succeed for any circuit of
the config. -/
theorem ZkCircuit.loadRemoteVerified_of_server (uri : env.parseUrl config.uri = .ok baseUri)
    (dir : env.mkdirAll (joinPath [config.localDir, config.circuitPath]) = none)
    (served : ∀ a, downloadFile env (baseUri ++ "/" ++ config.circuitPath ++ "/" ++ a.filename) =
      (some (content a), none))
    (stored : ∀ a, storeFile env (some (content a))
      (joinPath [joinPath [config.localDir, config.circuitPath], a.filename]) = none)
    (hashes : ∀ a, config.expectedHash a = some (env.sha256 (content a)))
    (c : ZkCircuit) (hc : c.config = config) : ∃ c', c.loadRemoteVerified env = .ok c' := by
  have fetched : ∀ (c' : ZkCircuit) a, c'.fetchRemote env (baseUri ++ "/" ++ config.circuitPath)
      (joinPath [config.localDir, config.circuitPath]) a =
        (c'.setArtifact a (some (content a)), none) := by
    intro c' a
    simp [ZkCircuit.fetchRemote, served, stored]
  have pk : config.provingKeyHash = some (env.sha256 (content .provingKey)) :=
    hashes .provingKey
  have vk : config.verificationKeyHash = some (env.sha256 (content .verificationKey)) :=
    hashes .verificationKey
  have wasm : config.wasmHash = some (env.sha256 (content .wasm)) := hashes .wasm
  simp [ZkCircuit.loadRemoteVerified, ZkCircuit.loadRemote, hc, uri, dir,
    ZkCircuit.eachArtifact_of_ok fetched, ZkCircuit.verifiedCircuitArtifacts, checkHash,
    pk, vk, wasm]
  exact ⟨_, rfl⟩

/-- **A correct server suffices.** When the URI parses, the local directory can be
made, and each artifact downloads, can be stored, and hashes to the config's expected
hash, `LoadZkCircuit` succeeds, whatever the local files hold. -/
theorem loadZkCircuit_of_remote (env : Env) (config : ZkCircuitConfig) (baseUri : String)
    (content : Artifact → List UInt8) (uri : env.parseUrl config.uri = .ok baseUri)
    (dir : env.mkdirAll (joinPath [config.localDir, config.circuitPath]) = none)
    (served : ∀ a, downloadFile env (baseUri ++ "/" ++ config.circuitPath ++ "/" ++ a.filename) =
      (some (content a), none))
    (stored : ∀ a, storeFile env (some (content a))
      (joinPath [joinPath [config.localDir, config.circuitPath], a.filename]) = none)
    (hashes : ∀ a, config.expectedHash a = some (env.sha256 (content a))) :
    ∃ c, loadZkCircuit env config = .ok c := by
  have remote := ZkCircuit.loadRemoteVerified_of_server uri dir served stored hashes
  unfold loadZkCircuit
  have config₁ := ZkCircuit.loadLocal_config env ⟨none, none, none, config⟩
  generalize (ZkCircuit.mk none none none config).loadLocal env = r at config₁ ⊢
  obtain ⟨c₁, _ | e⟩ := r
  · dsimp only
    split
    · exact ⟨_, rfl⟩
    · exact remote c₁ config₁
  · exact remote c₁ config₁

end Server

/-- No local file, and a server that serves `[1]` for every artifact. -/
def serverEnv : Env :=
  ⟨fun _ => (none, some "no such file"), fun _ => none, fun u => .ok u,
    fun _ => .ok (200, .ok [1]), fun _ => true, fun _ => none, fun _ b => .ok b.length, id⟩

/-- `loadZkCircuit_of_remote` with the local files missing. -/
theorem loadZkCircuit_of_remote_server :
    serverEnv.parseUrl onesConfig.uri = .ok "https://x" ∧
      serverEnv.mkdirAll (joinPath [onesConfig.localDir, onesConfig.circuitPath]) = none ∧
      (∀ a : Artifact, downloadFile serverEnv ("https://x" ++ "/" ++ onesConfig.circuitPath ++ "/" ++
        a.filename) = (some [1], none)) ∧
      (∀ a : Artifact, storeFile serverEnv (some [1])
        (joinPath [joinPath [onesConfig.localDir, onesConfig.circuitPath], a.filename]) = none) ∧
      (∀ a, onesConfig.expectedHash a = some (serverEnv.sha256 [1])) ∧
      ∃ c, loadZkCircuit serverEnv onesConfig = .ok c := by
  have served : ∀ a : Artifact, downloadFile serverEnv ("https://x" ++ "/" ++ onesConfig.circuitPath ++ "/" ++
      a.filename) = (some [1], none) := by
    intro a; cases a <;> rfl
  have stored : ∀ a : Artifact, storeFile serverEnv (some [1])
      (joinPath [joinPath [onesConfig.localDir, onesConfig.circuitPath], a.filename]) = none := by
    intro a; cases a <;> rfl
  have hashes : ∀ a, onesConfig.expectedHash a = some (serverEnv.sha256 [1]) := by
    intro a; cases a <;> rfl
  exact ⟨rfl, rfl, served, stored, hashes,
    loadZkCircuit_of_remote serverEnv onesConfig "https://x" (fun _ => [1]) rfl rfl served stored
      hashes⟩

end Vocdoni.Circuit

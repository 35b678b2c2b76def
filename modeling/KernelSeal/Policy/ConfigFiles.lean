import KernelSeal.Policy.Loader

/-!
# Configuration files

This file models `LoadConfig` of `internal/policy.go` with its two loaders.  A
configuration is one file, or a directory with up to three files in the style of
a mounted ConfigMap.  The decoders are parameters: a decoder fills a value that
holds the defaults, and may have filled a part of it when it reports an error.
-/

namespace KernelSeal.ConfigFiles

open KernelSeal.Text
open KernelSeal.Registry
open KernelSeal.Delivery
open KernelSeal.FileProtect
open KernelSeal.Loader

/-! ## Files and decoders -/

/-- `MonitoringConfig`. -/
structure MonitoringConfig where
  enabled : Bool := true
  metricsPort : ℤ := 9090
  logLevel : GoString := str "info"
  auditLog : GoString := str "/var/log/kernelseal/audit.log"

/-- `KernelSealConfig` with all the sections a file has. -/
structure Config extends KernelSealConfig where
  version : GoString := str "v1"
  monitoring : MonitoringConfig := {}

/-- `DefaultConfig`. -/
def defaultConfig : Config := {}

/-- What reading a file meets. -/
inductive Entry where
  | absent (err : GoError)
  | unreadable (err : GoError)
  | content (data : GoString)

/-- `stat` tells whether a path is a directory. -/
structure Files where
  stat : GoString → Except GoError Bool
  file : GoString → Entry
  child : (dir name : GoString) → Entry

/-- `os.ReadFile`, and `os.Open` followed by `io.ReadAll`. -/
def Entry.read : Entry → Except GoError GoString
  | .absent err => .error err
  | .unreadable err => .error err
  | .content data => .ok data

/-- A decoder fills a value from data. -/
abbrev Decode (α : Type) := α → GoString → α × Option GoError

/-- `yaml.Unmarshal` and `json.Unmarshal` at the types they are used with. -/
structure Decoders where
  yamlConfig : Decode Config
  jsonConfig : Decode Config
  yamlPolicy : Decode PolicySpec
  yamlSecrets : Decode (List SecretBinding)
  yamlMonitoring : Decode MonitoringConfig

def dot : Byte := 46

/-- `filepath.Ext`. -/
def ext (path : GoString) : GoString :=
  let last := path.rtakeWhile (· ≠ slash)
  if dot ∈ last then dot :: last.rtakeWhile (· ≠ dot) else []

/-! ## Loading -/

/-- `PolicyManager`.  `delivered` are the policies the update callback was called
with, if there is a callback; the registry may be nil. -/
structure PolicyManager where
  configPath : GoString := []
  config : Config := defaultConfig
  delivered : Option (List PolicyConfig) := none
  registry : Option (List Binding) := none

section Load

variable (unicode : Unicode) (host : Host) (files : Files) (decoders : Decoders)

/-- The result of a decoder that must succeed. -/
def decoded {α : Type} (message : GoString) (result : α × Option GoError) : Except GoError α :=
  match result.2 with
  | some err => .error (message ++ err)
  | none => .ok result.1

/-- The decoding part of `loadConfigFromFile`. -/
def parseConfig (path data : GoString) : Except GoError Config :=
  let extension := toLower unicode (ext path)
  if extension = str ".yaml" ∨ extension = str ".yml" then
    decoded (str "failed to parse YAML config: ") (decoders.yamlConfig defaultConfig data)
  else if extension = str ".json" then
    decoded (str "failed to parse JSON config: ") (decoders.jsonConfig defaultConfig data)
  else .error (str "unsupported config format: " ++ extension)

/-- `loadConfigFromFile`. -/
def loadConfigFromFile (path : GoString) : Except GoError Config :=
  (files.file path).read.bind (parseConfig unicode decoders path)

/-- A file of a directory is decoded if it can be read; an error of the decoder is
only logged. -/
def fill {α : Type} (entry : Entry) (decode : Decode α) (value : α) : α :=
  match entry.read with
  | .error _ => value
  | .ok data => (decode value data).1

/-- The bindings are only taken from a file that was decoded without an error. -/
def fillSecrets (entry : Entry) (secrets : List SecretBinding) : List SecretBinding :=
  match entry.read with
  | .error _ => secrets
  | .ok data =>
      match decoders.yamlSecrets [] data with
      | (_, some _) => secrets
      | (bindings, none) => bindings

/-- `loadConfigFromDir`. -/
def loadConfigFromDir (dir : GoString) : Except GoError Config :=
  let config := defaultConfig
  let policy := fill (files.child dir (str "policy.yaml")) decoders.yamlPolicy config.policy
  let secrets := fillSecrets decoders (files.child dir (str "secrets.yaml")) config.secrets
  let monitoring :=
    fill (files.child dir (str "monitoring.yaml")) decoders.yamlMonitoring config.monitoring
  .ok { config with policy, secrets, monitoring }

/-- The new configuration takes effect: `applyPolicy` calls the callback and
`loadSecrets` replaces the bindings of the registry. -/
def PolicyManager.install (manager : PolicyManager) (path : GoString) (config : Config) :
    PolicyManager where
  configPath := path
  config := config
  delivered := manager.delivered.map (· ++ [getBPFPolicy unicode config.toKernelSealConfig])
  registry := manager.registry.map fun _ => loadSecrets unicode host config.toKernelSealConfig

/-- `(*PolicyManager).LoadConfig`. -/
def loadConfig (manager : PolicyManager) (path : GoString) : PolicyManager × Option GoError :=
  match files.stat path with
  | .error err => (manager, some (str "failed to stat config path: " ++ err))
  | .ok isDir =>
      let loaded :=
        if isDir then loadConfigFromDir files decoders path
        else loadConfigFromFile unicode files decoders path
      match loaded with
      | .error err => (manager, some err)
      | .ok config => (manager.install unicode host path config, none)

/-! ## Defective files -/

/-- The file is there, and reading or parsing it fails. -/
def Entry.Defective (parses : GoString → Bool) : Entry → Prop
  | .absent _ => False
  | .unreadable _ => True
  | .content data => parses data = false

/-- Some file of the configuration is defective. -/
def Defective (path : GoString) : Prop :=
  match files.stat path with
  | .error _ => False
  | .ok false =>
      (files.file path).Defective fun data => (parseConfig unicode decoders path data).isOk
  | .ok true =>
      ((files.child path (str "policy.yaml")).Defective fun data =>
        (decoders.yamlPolicy defaultConfig.policy data).2.isNone) ∨
      ((files.child path (str "secrets.yaml")).Defective fun data =>
        (decoders.yamlSecrets [] data).2.isNone) ∨
      ((files.child path (str "monitoring.yaml")).Defective fun data =>
        (decoders.yamlMonitoring defaultConfig.monitoring data).2.isNone)

end Load

section Result

variable {unicode : Unicode} {files : Files} {decoders : Decoders} {path : GoString}

/-- A defective file is not loaded. -/
theorem loadConfigFromFile_error
    (hdefective : (files.file path).Defective fun data =>
      (parseConfig unicode decoders path data).isOk) :
    ∃ err, loadConfigFromFile unicode files decoders path = .error err := by
  rw [loadConfigFromFile]
  cases hentry : files.file path with
  | absent err =>
      rw [hentry] at hdefective
      exact absurd hdefective id
  | unreadable err => exact ⟨err, rfl⟩
  | content data =>
      rw [hentry] at hdefective
      have hparse : (parseConfig unicode decoders path data).isOk = false := hdefective
      cases hresult : parseConfig unicode decoders path data with
      | error err => exact ⟨err, hresult⟩
      | ok config =>
          rw [hresult] at hparse
          cases hparse

/-- Given a defective file, loading fails and changes nothing exactly when the path
is not a directory. -/
theorem loadConfig_atomic_iff (host : Host) (manager : PolicyManager)
    (hdefective : Defective unicode files decoders path) :
    ((loadConfig unicode host files decoders manager path).2.isSome = true ∧
      (loadConfig unicode host files decoders manager path).1 = manager) ↔
      files.stat path ≠ .ok true := by
  rw [Defective] at hdefective
  rw [loadConfig]
  cases hstat : files.stat path with
  | error err => simp
  | ok isDir =>
      rw [hstat] at hdefective
      cases isDir with
      | true => simp [loadConfigFromDir]
      | false =>
          obtain ⟨err, herr⟩ := loadConfigFromFile_error hdefective
          simp [herr]

end Result

/-! ## A malformed policy -/

/-- A host that no secret is read from. -/
def emptyHost : Host where
  getenv _ := []
  readFile _ := .error (str "no such file or directory")

/-- One binding that names no pod. -/
def psqlBinding : SecretBinding where
  name := str "database"
  selector := { binary := str "psql" }
  secretRefs := [⟨str "PGPASSWORD", { value := str "hunter2" }⟩]

/-- Decoders that know one policy and one list of bindings. -/
def sampleDecoders : Decoders where
  yamlConfig config _ := (config, some (str "did not find expected key"))
  jsonConfig config _ := (config, some (str "unexpected end of JSON input"))
  yamlPolicy spec data :=
    if data = str "podIdentity: required" then
      ({ spec with podIdentity := str "required" }, none)
    else (spec, some (str "did not find expected key"))
  yamlSecrets _ _ := ([psqlBinding], none)
  yamlMonitoring monitoring _ := (monitoring, none)

/-- A path with this policy, be it a file or a directory that also has bindings. -/
def sampleFiles (isDir : Bool) (policy : GoString) : Files where
  stat _ := .ok isDir
  file _ := .content policy
  child _ name :=
    if name = str "policy.yaml" then .content policy
    else if name = str "secrets.yaml" then .content (str "- name: database")
    else .absent (str "no such file or directory")

/-- A manager with a callback and a registry. -/
def sampleManager : PolicyManager where
  delivered := some []
  registry := some []

/-- A file that cannot be parsed is refused. -/
theorem malformed_file_refused :
    Defective Unicode.ascii (sampleFiles false (str "podIdentity: [required")) sampleDecoders
      (str "/etc/kernelseal/config.yaml") ∧
    (loadConfig Unicode.ascii emptyHost (sampleFiles false (str "podIdentity: [required"))
      sampleDecoders sampleManager (str "/etc/kernelseal/config.yaml")).2.isSome = true ∧
    (loadConfig Unicode.ascii emptyHost (sampleFiles false (str "podIdentity: [required"))
      sampleDecoders sampleManager (str "/etc/kernelseal/config.yaml")).1 = sampleManager := by
  have hdefective : Defective Unicode.ascii (sampleFiles false (str "podIdentity: [required"))
      sampleDecoders (str "/etc/kernelseal/config.yaml") := by
    change (parseConfig Unicode.ascii sampleDecoders (str "/etc/kernelseal/config.yaml")
      (str "podIdentity: [required")).isOk = false
    decide +kernel
  exact ⟨hdefective, (loadConfig_atomic_iff emptyHost sampleManager hdefective).2 nofun⟩

/-- In a directory the same mistake loads the bindings under the default, where a
binding that names no pod is served; the intended policy rejects it. -/
theorem malformed_policy_installed :
    Defective Unicode.ascii (sampleFiles true (str "podIdentity: [required")) sampleDecoders
      (str "/etc/kernelseal") ∧
    (loadConfig Unicode.ascii emptyHost (sampleFiles true (str "podIdentity: [required"))
      sampleDecoders sampleManager (str "/etc/kernelseal")).2 = none ∧
    (loadConfig Unicode.ascii emptyHost (sampleFiles true (str "podIdentity: [required"))
      sampleDecoders sampleManager (str "/etc/kernelseal")).1.registry.map
        (List.map Binding.rejected) = some [[]] ∧
    (loadConfig Unicode.ascii emptyHost (sampleFiles true (str "podIdentity: required"))
      sampleDecoders sampleManager (str "/etc/kernelseal")).1.registry.map
        (List.map Binding.rejected) = some [noPodReason] := by
  refine ⟨Or.inl ?_, ?_, ?_, ?_⟩
  · change (sampleDecoders.yamlPolicy defaultConfig.policy
      (str "podIdentity: [required")).2.isNone = false
    decide +kernel
  · decide +kernel
  · decide +kernel
  · decide +kernel

end KernelSeal.ConfigFiles

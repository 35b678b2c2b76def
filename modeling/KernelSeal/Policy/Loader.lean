import KernelSeal.Bpf.FileProtect
import KernelSeal.Server.Delivery

/-!
# From configuration to bindings and server flags

This file models the part of `internal/policy.go` that turns a parsed
configuration into the registry's bindings, and the part of `cmd/main.go` that
derives the server's flags from the same configuration.  The environment and
the file system that secret sources are read from are a parameter (`Host`).
-/

namespace KernelSeal.Loader

open KernelSeal.Text
open KernelSeal.Registry
open KernelSeal.Delivery
open KernelSeal.FileProtect

/-! ## Configuration -/

/-- `PodIdentityMode`. -/
inductive PodIdentityMode where
  | preferred
  | required
  | disabled
  deriving DecidableEq

/-- `SecretKeyRef`; its namespace is never read. -/
structure SecretKeyRef where
  name : GoString
  key : GoString

/-- `VaultRef`. -/
structure VaultRef where
  path : GoString
  key : GoString

/-- `SecretSource`. -/
structure SecretSource where
  value : GoString := []
  secretKeyRef : Option SecretKeyRef := none
  fileRef : GoString := []
  envRef : GoString := []
  vaultRef : Option VaultRef := none

/-- `SecretRef`. -/
structure SecretRef where
  name : GoString
  source : SecretSource

/-- `ProcessSelector`. -/
structure ProcessSelector where
  binary : GoString := []
  container : GoString := []
  labels : StringMap := ∅
  namespaceName : GoString := []
  cgroupPath : GoString := []

/-- `SecretBinding`. -/
structure SecretBinding where
  name : GoString := []
  selector : ProcessSelector
  secretRefs : List SecretRef := []

/-- `PolicySpec`, without the switch for the exec filter. -/
structure PolicySpec where
  mode : GoString := str "enforce"
  blockEnviron : Bool := true
  blockMem : Bool := true
  blockMaps : Bool := false
  blockPtrace : Bool := true
  allowSelfRead : Bool := true
  auditAll : Bool := false
  podIdentity : GoString := str "preferred"

/-- `KernelSealConfig`, without the monitoring section.  The defaults are those
of `DefaultConfig`. -/
structure KernelSealConfig where
  policy : PolicySpec := {}
  secrets : List SecretBinding := []

/-- What secret sources are read from: `os.Getenv` and `os.ReadFile`. -/
structure Host where
  getenv : GoString → GoString
  readFile : GoString → Except GoError GoString

/-- `parsePodIdentity`: an unrecognized value selects `required`. -/
def parsePodIdentity (unicode : Unicode) (configured : GoString) :
    PodIdentityMode × Option GoError :=
  let spelled := toLower unicode (trimSpace configured)
  if spelled = [] ∨ spelled = str "preferred" then (.preferred, none)
  else if spelled = str "required" then (.required, none)
  else if spelled = str "disabled" then (.disabled, none)
  else (.required, some (str "unknown podIdentity " ++ quote unicode configured ++
    str "; want required, preferred or disabled"))

/-- `(*PolicyManager).PodIdentityMode`. -/
def podIdentityMode (unicode : Unicode) (config : KernelSealConfig) : PodIdentityMode :=
  (parsePodIdentity unicode config.policy.podIdentity).1

/-! ## Building the registry -/

/-- `resolveSecretValue`. -/
def resolveSecretValue (host : Host) (source : SecretSource) : Except GoError GoString :=
  if source.value ≠ [] then .ok source.value
  else if source.envRef ≠ [] then
    let value := host.getenv source.envRef
    if value = [] then
      .error (str "environment variable " ++ source.envRef ++ str " not set")
    else .ok value
  else if source.fileRef ≠ [] then
    match host.readFile source.fileRef with
    | .error err => .error (str "failed to read file " ++ source.fileRef ++ str ": " ++ err)
    | .ok content => .ok (trimSpace content)
  else
    match source.secretKeyRef with
    | some ref =>
        let mountPath := str "/var/run/secrets/kernelseal/" ++ ref.name ++ str "/" ++ ref.key
        let altPath := str "/var/run/secrets/kubernetes.io/serviceaccount/" ++ ref.key
        match host.readFile mountPath with
        | .ok content => .ok (trimSpace content)
        | .error _ =>
            match host.readFile altPath with
            | .ok content => .ok (trimSpace content)
            | .error _ =>
                .error (str "kubernetes secret " ++ ref.name ++ str "/" ++ ref.key ++
                  str " not found")
    | none =>
        match source.vaultRef with
        | some _ => .error (str "vault integration not yet implemented")
        | none => .error (str "no valid secret source specified")

def matchesNothingReason : GoString :=
  str "the selector names neither a binary nor a pod, so it matches nothing"

def rootCgroupReason : GoString :=
  str "cgroupPath selects the root cgroup, which every process on the host is under; " ++
    str "name the pod's own cgroup, or select on namespace and labels instead"

def noPodReason : GoString :=
  str "policy.podIdentity is required, but this selector names no pod; " ++
    str "add namespace, labels, container or cgroupPath so the binding cannot be " ++
    str "claimed by any pod that reaches the socket"

def podSelectorReason : GoString :=
  str "policy.podIdentity is disabled, so pod selectors cannot be evaluated " ++
    str "and this binding would never match; set podIdentity to preferred or required"

def binaryOnlyReason : GoString :=
  str "policy.podIdentity is disabled, so only the binary selector is usable"

/-- `rejectionFor`: why a binding cannot serve anyone under the active mode, or
the empty string when it can. -/
def rejectionFor (selector : Selector) (mode : PodIdentityMode) : GoString :=
  if selector.binary = [] ∧ ¬ selector.IsPodScoped then matchesNothingReason
  else if selector.cgroupPath ≠ [] ∧
      trimSuffix (trimSpace selector.cgroupPath) (str "/") = [] then rootCgroupReason
  else
    match mode with
    | .required => if ¬ selector.IsPodScoped then noPodReason else []
    | .disabled =>
        if selector.IsPodScoped then podSelectorReason
        else if selector.binary = [] then binaryOnlyReason
        else []
    | .preferred => []

/-- The registry's copy of a configured selector. -/
def ProcessSelector.toSelector (selector : ProcessSelector) : Selector where
  binary := selector.binary
  container := selector.container
  namespaceName := selector.namespaceName
  labels := selector.labels
  cgroupPath := selector.cgroupPath

/-- The body of the inner loop of `loadSecrets`. -/
def addSecret (host : Host) (out : Binding) (ref : SecretRef) : Binding :=
  match resolveSecretValue host ref.source with
  | .error _ => { out with unresolved := out.unresolved ++ [ref.name] }
  | .ok value => { out with secrets := out.secrets ++ [⟨ref.name, value⟩] }

/-- The body of the outer loop of `loadSecrets`. -/
def loadBinding (host : Host) (mode : PodIdentityMode) (index : ℕ) (binding : SecretBinding) :
    Binding :=
  let name := if binding.name = [] then str "secrets[" ++ decimal index ++ str "]"
    else binding.name
  let selector := binding.selector.toSelector
  let out := binding.secretRefs.foldl (addSecret host) { name := name, selector := selector }
  { out with rejected := rejectionFor selector mode }

/-- `(*PolicyManager).loadSecrets`: the bindings handed to the registry. -/
def loadSecrets (unicode : Unicode) (host : Host) (config : KernelSealConfig) : List Binding :=
  config.secrets.mapIdx (loadBinding host (podIdentityMode unicode config))

/-! ## The policy and the server -/

/-- `boolToUint8`. -/
def boolToUint8 (flag : Bool) : UInt8 := if flag then 1 else 0

/-- `(*PolicyManager).GetBPFPolicy`: an unrecognized mode enforces. -/
def getBPFPolicy (unicode : Unicode) (config : KernelSealConfig) : PolicyConfig where
  enforceMode :=
    let spelled := toLower unicode config.policy.mode
    if spelled = str "disabled" then modeDisabled
    else if spelled = str "audit" then modeAudit
    else modeEnforce
  blockEnviron := boolToUint8 config.policy.blockEnviron
  blockMem := boolToUint8 config.policy.blockMem
  blockMaps := boolToUint8 config.policy.blockMaps
  blockPtrace := boolToUint8 config.policy.blockPtrace
  allowSelfRead := boolToUint8 config.policy.allowSelfRead
  auditAll := boolToUint8 config.policy.auditAll

/-- The server `main` builds from a loaded configuration. -/
def mainServer (unicode : Unicode) (host : Host) (config : KernelSealConfig) : Server where
  cfg :=
    { requireProtection := (getBPFPolicy unicode config).enforceMode = modeEnforce
      identifyCallers := podIdentityMode unicode config ≠ .disabled
      requirePodIdentity := podIdentityMode unicode config = .required }
  bindings := loadSecrets unicode host config

/-! ## What the loader produces -/

section Loaded

variable {unicode : Unicode} {host : Host} {config : KernelSealConfig}

theorem foldl_addSecret_selector (refs : List SecretRef) (out : Binding) :
    (refs.foldl (addSecret host) out).selector = out.selector := by
  induction refs generalizing out with
  | nil => rfl
  | cons ref refs ih =>
      rw [List.foldl_cons, ih, addSecret]
      cases resolveSecretValue host ref.source <;> rfl

@[simp]
theorem loadBinding_selector (mode : PodIdentityMode) (index : ℕ) (binding : SecretBinding) :
    (loadBinding host mode index binding).selector = binding.selector.toSelector :=
  foldl_addSecret_selector binding.secretRefs _

@[simp]
theorem loadBinding_rejected (mode : PodIdentityMode) (index : ℕ) (binding : SecretBinding) :
    (loadBinding host mode index binding).rejected =
      rejectionFor binding.selector.toSelector mode := rfl

/-- Each reference ends up either among the secrets or among the unresolved
names. -/
theorem foldl_addSecret_count (refs : List SecretRef) (out : Binding) :
    (refs.foldl (addSecret host) out).secrets.length +
        (refs.foldl (addSecret host) out).unresolved.length =
      out.secrets.length + out.unresolved.length + refs.length := by
  induction refs generalizing out with
  | nil => rfl
  | cons ref refs ih =>
      rw [List.foldl_cons, ih, addSecret]
      cases resolveSecretValue host ref.source <;> simp <;> omega

variable (host) in
theorem loadBinding_count (mode : PodIdentityMode) (index : ℕ) (binding : SecretBinding) :
    (loadBinding host mode index binding).secrets.length +
        (loadBinding host mode index binding).unresolved.length =
      binding.secretRefs.length := by
  refine (foldl_addSecret_count binding.secretRefs _).trans ?_
  simp

/-- Every loaded binding comes from a configured one. -/
theorem exists_of_mem_loadSecrets {binding : Binding}
    (hbinding : binding ∈ loadSecrets unicode host config) :
    ∃ index, ∃ configured ∈ config.secrets,
      binding = loadBinding host (podIdentityMode unicode config) index configured := by
  obtain ⟨index, hindex, rfl⟩ := List.mem_mapIdx.1 hbinding
  exact ⟨index, _, List.getElem_mem _, rfl⟩

variable (unicode host) in
/-- Every configured binding is loaded. -/
theorem exists_mem_loadSecrets {configured : SecretBinding}
    (hconfigured : configured ∈ config.secrets) :
    ∃ index, loadBinding host (podIdentityMode unicode config) index configured ∈
      loadSecrets unicode host config := by
  obtain ⟨index, hindex, rfl⟩ := List.mem_iff_getElem.1 hconfigured
  exact ⟨index, List.mem_mapIdx.2 ⟨index, hindex, rfl⟩⟩

end Loaded

end KernelSeal.Loader

import KernelSeal.Cgroup.ParsePod
import KernelSeal.Kube.Cache
import KernelSeal.Server.Delivery

/-!
# Attribution of a process to a pod

This file models `Resolve` of `internal/cgroup` and `Identify` of
`internal/identity`: the cgroup path is read from procfs, the pod UID is parsed
out of it, and the pod is looked up in the cache.  Reading the file and finding
the cgroup's numeric ID are the kernel's business and parameters here.
-/

namespace KernelSeal.Attribution

open KernelSeal.Text
open KernelSeal.Registry
open KernelSeal.Delivery
open KernelSeal.ParsePod
open KernelSeal.Kube

/-! ## The cgroup of a process -/

def newline : Byte := 10

def colon : Byte := 58

/-- `Identity`. -/
structure Identity where
  path : GoString := []
  id : UInt64 := 0
  podUID : GoString := []
  containerID : GoString := []
  relative : Bool := false

/-- `cgroup.Resolver` with what it reads. -/
structure Resolver where
  procRoot : GoString
  readFile : GoString → Except GoError GoString
  idFor : GoString → Except GoError UInt64

/-- An error of `Resolve`; `noID` is one that wraps `ErrNoID`. -/
inductive ResolveError where
  | unplaced (err : GoError)
  | noID (err : GoError)

def ResolveError.text : ResolveError → GoError
  | .unplaced err => err
  | .noID err => err

/-- `isRelative`. -/
def isRelative (cgroupPath : GoString) : Bool := (split cgroupPath slash).any (· = str "..")

/-- The path of a line of a pure v1 host. -/
def controllerPath (line : GoString) : Option GoString :=
  match splitN line colon 3 with
  | [_, _, path] => if path ≠ [] then some path else none
  | _ => none

/-- The part of `pathFor` that reads the membership file. -/
def membershipPath (name data : GoString) : Except GoError GoString :=
  let lines := split (trimSpace data) newline
  match lines.find? fun line => str "0::" <+: line with
  | some line => .ok (line.drop 3)
  | none =>
      match lines.findSome? controllerPath with
      | some path => .ok path
      | none => .error (str "no cgroup membership in " ++ name)

section Resolve

variable (unicode : Unicode) (resolver : Resolver) (pid : UInt32)

/-- `(*Resolver).pathFor`. -/
def pathFor : Except GoError GoString :=
  let name := joinPath [resolver.procRoot, decimal pid.toNat, str "cgroup"]
  match resolver.readFile name with
  | .error err => .error (str "reading " ++ name ++ str ": " ++ err)
  | .ok data => membershipPath name data

/-- What the path alone tells. -/
def placed (path : GoString) : Identity where
  path := path
  podUID := (parsePod unicode path).1
  containerID := (parsePod unicode path).2
  relative := isRelative path

/-- `(*Resolver).Resolve`. -/
def resolve : Identity × Option ResolveError :=
  match pathFor resolver pid with
  | .error err => ({}, some (.unplaced err))
  | .ok path =>
      match resolver.idFor path with
      | .error err =>
          (placed unicode path,
            some (.noID (str "cgroup id unavailable for " ++ path ++ str ": " ++ err)))
      | .ok id => ({ placed unicode path with id }, none)

/-- The caller before its pod is looked up. -/
def Identity.caller (identity : Identity) : Caller where
  cgroupPath := identity.path
  cgroupID := identity.id
  podUID := identity.podUID
  containerID := identity.containerID
  cgroupPathRelative := identity.relative

/-- The lookup at the end of `Identify`. -/
def lookupPod (pods : Option Watcher) (identity : Identity) : Caller × Option GoError :=
  match pods with
  | none => (identity.caller, none)
  | some watcher =>
      if identity.podUID = [] then (identity.caller, none)
      else if watcher.synced = false then
        (identity.caller, some (str "pod cache is not synced, cannot attribute pid " ++
          decimal pid.toNat ++ str " to pod " ++ identity.podUID))
      else
        match watcher.lookup identity.podUID with
        | none =>
            (identity.caller, some (str "pid " ++ decimal pid.toNat ++ str " is in pod " ++
              identity.podUID ++ str ", which is not in this node's pod cache"))
        | some pod => ({ identity.caller with pod := some pod }, none)

/-- `(*Resolver).Identify` of `internal/identity`. -/
def identify (pods : Option Watcher) : Caller × Option GoError :=
  match resolve unicode resolver pid with
  | (identity, some (.unplaced err)) =>
      (identity.caller,
        some (str "resolving cgroup for pid " ++ decimal pid.toNat ++ str ": " ++ err))
  | (identity, _) => lookupPod pid pods identity

end Resolve

/-! ## What an attribution means -/

section Attribution

variable (unicode : Unicode) (resolver : Resolver) (pid : UInt32) (pods : Option Watcher)

/-- Without a path there is an error and no pod. -/
theorem identify_of_no_path {err : GoError} (hpath : pathFor resolver pid = .error err) :
    (identify unicode resolver pid pods).1.pod = none ∧
      (identify unicode resolver pid pods).2.isSome = true := by
  rw [identify, resolve, hpath]
  exact ⟨rfl, rfl⟩

/-- A path places the process, with or without the numeric ID of its cgroup. -/
theorem identify_of_path {path : GoString} (hpath : pathFor resolver pid = .ok path) :
    ∃ identity : Identity, identity.podUID = (parsePod unicode path).1 ∧
      identify unicode resolver pid pods = lookupPod pid pods identity := by
  rw [identify, resolve, hpath]
  cases hid : resolver.idFor path with
  | error err =>
      refine ⟨placed unicode path, rfl, ?_⟩
      simp only [hid]
  | ok id =>
      refine ⟨{ placed unicode path with id }, rfl, ?_⟩
      simp only [hid]

/-- The lookup adds a pod or nothing. -/
theorem exists_lookupPod_eq (identity : Identity) :
    ∃ pod, (lookupPod pid pods identity).1 = { identity.caller with pod := pod } := by
  rw [lookupPod.eq_def]
  cases pods with
  | none => exact ⟨none, rfl⟩
  | some watcher =>
      dsimp only
      split_ifs
      · exact ⟨none, rfl⟩
      · exact ⟨none, rfl⟩
      · cases watcher.lookup identity.podUID with
        | none => exact ⟨none, rfl⟩
        | some pod => exact ⟨some pod, rfl⟩

variable {pid} {watcher : Watcher} {identity : Identity}

/-- A pod comes from a synced cache, without an error. -/
theorem lookupPod_eq_some {pod : Pod}
    (hpod : (lookupPod pid (some watcher) identity).1.pod = some pod) :
    (lookupPod pid (some watcher) identity).2 = none ∧ watcher.synced = true ∧
      (lookupPod pid (some watcher) identity).1.podUID = identity.podUID ∧
      watcher.lookup identity.podUID = some pod := by
  rw [lookupPod] at hpod ⊢
  by_cases huid : identity.podUID = []
  · rw [if_pos huid] at hpod
    cases hpod
  · rw [if_neg huid] at hpod ⊢
    by_cases hsynced : watcher.synced = false
    · rw [if_pos hsynced] at hpod
      cases hpod
    · rw [if_neg hsynced] at hpod ⊢
      cases hlookup : watcher.lookup identity.podUID with
      | none =>
          rw [hlookup] at hpod
          cases hpod
      | some found =>
          rw [hlookup] at hpod
          cases hpod
          exact ⟨rfl, Bool.eq_true_of_not_eq_false hsynced, rfl, rfl⟩

/-- A pod that the cache does not vouch for is an error. -/
theorem lookupPod_error (huid : identity.podUID ≠ [])
    (hunknown : watcher.synced = false ∨ watcher.lookup identity.podUID = none) :
    (lookupPod pid (some watcher) identity).2.isSome = true := by
  rw [lookupPod, if_neg huid]
  by_cases hsynced : watcher.synced = false
  · rw [if_pos hsynced]
    rfl
  · rw [if_neg hsynced, hunknown.resolve_left hsynced]
    rfl

end Attribution

/-- Over every history of the cache: entries stand under their own UID, a pod is
attributed only from a synced cache to the UID parsed from the caller's path, and
a pod path that the cache does not vouch for is an error. -/
theorem attribution_sound (unicode : Unicode) (inputs : List Input) (resolver : Resolver)
    (pid : UInt32) :
    let watcher := inputs.foldl (Watcher.receive unicode) {}
    let result := identify unicode resolver pid (some watcher)
    WellKeyed watcher.byUID ∧
    (∀ pod, result.1.pod = some pod → result.2 = none ∧ watcher.synced = true ∧
      pod.uid = result.1.podUID ∧
      ∃ path, pathFor resolver pid = .ok path ∧ result.1.podUID = (parsePod unicode path).1) ∧
    (result.2.isSome = true → result.1.pod = none) ∧
    (∀ path, pathFor resolver pid = .ok path → (parsePod unicode path).1 ≠ [] →
      watcher.synced = false ∨ watcher.lookup (parsePod unicode path).1 = none →
      result.2.isSome = true) := by
  intro watcher result
  have hkeyed : WellKeyed watcher.byUID := wellKeyed_foldl inputs wellKeyed_empty
  have hpods : ∀ pod, result.1.pod = some pod → result.2 = none ∧ watcher.synced = true ∧
      pod.uid = result.1.podUID ∧
      ∃ path, pathFor resolver pid = .ok path ∧ result.1.podUID = (parsePod unicode path).1 := by
    intro pod hpod
    cases hpath : pathFor resolver pid with
    | error err =>
        rw [(identify_of_no_path unicode resolver pid (some watcher) hpath).1] at hpod
        cases hpod
    | ok path =>
        obtain ⟨identity, huid, hresult⟩ :=
          identify_of_path unicode resolver pid (some watcher) hpath
        have hlookup : result = lookupPod pid (some watcher) identity := hresult
        rw [hlookup] at hpod ⊢
        obtain ⟨hnone, hsynced, hpodUID, hentry⟩ := lookupPod_eq_some hpod
        refine ⟨hnone, hsynced, ?_, path, rfl, hpodUID.trans huid⟩
        rw [hpodUID]
        exact hkeyed.uid_eq _ _ hentry
  refine ⟨hkeyed, hpods, ?_, ?_⟩
  · intro herror
    by_contra hpod
    obtain ⟨pod, hpod⟩ := Option.ne_none_iff_exists'.1 hpod
    rw [(hpods pod hpod).1] at herror
    cases herror
  · intro path hpath huid hunknown
    obtain ⟨identity, hidentity, hresult⟩ :=
      identify_of_path unicode resolver pid (some watcher) hpath
    have hlookup : result = lookupPod pid (some watcher) identity := hresult
    rw [← hidentity] at huid hunknown
    rw [hlookup]
    exact lookupPod_error huid hunknown

/-- A pod with one running container. -/
def checkoutObject : PodObject where
  uid := str "0a1b2c3d-4e5f-6071-8293-a4b5c6d7e8f9"
  name := str "checkout-abc"
  namespaceName := str "payments"
  containerStatuses := [⟨str "app", str "containerd://0123456789AB"⟩]

/-- The cache after `Start` found that pod. -/
def checkoutInputs : List Input := [.listed [checkoutObject], .started]

/-- A process in the pod's container whose cgroup has no ID. -/
def checkoutResolver : Resolver where
  procRoot := str "/proc"
  readFile _ :=
    .ok (str "0::/kubepods/pod0a1b2C3D-4e5f-6071-8293-a4b5c6d7e8f9/0123456789ab\n")
  idFor _ := .error (str "no such file or directory")

theorem checkout_attributed :
    (identify Unicode.ascii checkoutResolver 42
        (some (checkoutInputs.foldl (Watcher.receive Unicode.ascii) {}))).1.pod =
      some (checkoutObject.toPod Unicode.ascii) ∧
    (checkoutObject.toPod Unicode.ascii).uid =
      (identify Unicode.ascii checkoutResolver 42
        (some (checkoutInputs.foldl (Watcher.receive Unicode.ascii) {}))).1.podUID := by
  have hpod : (identify Unicode.ascii checkoutResolver 42
      (some (checkoutInputs.foldl (Watcher.receive Unicode.ascii) {}))).1.pod =
        some (checkoutObject.toPod Unicode.ascii) := by
    decide +kernel
  exact ⟨hpod, ((attribution_sound Unicode.ascii checkoutInputs checkoutResolver 42).2.1 _
    hpod).2.2.1⟩

end KernelSeal.Attribution

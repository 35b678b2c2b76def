import KernelSeal.Cgroup.Attribution

/-!
# Processes outside the kubelet's hierarchy

The kubelet keeps its pods below a directory whose name contains `kubepods`, in
either driver and under any parent slice.  `ParsePod` looks for the pod segment
only.  What stands above that segment never matters, so outside the hierarchy a
process is attributed to a pod as soon as some directory is named like one.
-/

namespace KernelSeal.HostPaths

open KernelSeal.Text
open KernelSeal.Registry
open KernelSeal.ParsePod
open KernelSeal.Attribution
open KernelSeal.Kube

/-- Up to the first pod segment, nothing is named like the kubelet's hierarchy. -/
def OutsideKubepods (segments : List GoString) : Prop :=
  ∀ leading segment below, segments = leading ++ segment :: below →
    (∀ above ∈ leading, ¬ NamesPod above) → NamesPod segment →
    ∀ above ∈ leading ++ [segment], ¬ str "kubepods" <:+: above

theorem outsideKubepods_of_forall {segments : List GoString}
    (hsegments : ∀ segment ∈ segments, ¬ str "kubepods" <:+: segment) :
    OutsideKubepods segments := by
  rintro leading segment below rfl - - above habove
  refine hsegments above ?_
  rw [List.append_cons]
  exact List.mem_append_left below habove

theorem scanSegments_eq_nil_iff (unicode : Unicode) {segments : List GoString} :
    (scanSegments unicode segments).1 = [] ↔ ∀ segment ∈ segments, ¬ NamesPod segment := by
  rw [← not_iff_not, ← Ne, scanSegments_ne_nil_iff]
  push Not
  rfl

section Placement

variable (unicode : Unicode) (resolver : Resolver) (pid : UInt32) (pods : Option Watcher)

/-- The caller's pod UID is the parsed one. -/
theorem podUID_identify {path : GoString} (hpath : pathFor resolver pid = .ok path) :
    (identify unicode resolver pid pods).1.podUID = (parsePod unicode path).1 := by
  obtain ⟨identity, huid, hidentify⟩ := identify_of_path unicode resolver pid pods hpath
  obtain ⟨pod, hcaller⟩ := exists_lookupPod_eq pid pods identity
  rw [hidentify, hcaller]
  exact huid

/-- Without a pod UID no pod is looked up. -/
theorem identify_of_no_pod {path : GoString} (hpath : pathFor resolver pid = .ok path)
    (huid : (parsePod unicode path).1 = []) :
    (identify unicode resolver pid pods).1.pod = none ∧
      (identify unicode resolver pid pods).2 = none := by
  obtain ⟨identity, hidentity, hidentify⟩ := identify_of_path unicode resolver pid pods hpath
  rw [hidentify, lookupPod.eq_def]
  cases pods with
  | none => exact ⟨rfl, rfl⟩
  | some watcher =>
      dsimp only
      rw [if_pos (hidentity.trans huid)]
      exact ⟨rfl, rfl⟩

end Placement

/-- Outside the kubelet's hierarchy a process stays without a pod exactly when no
directory of its path is named like one, and where none above it is, the name of
its own directory decides. -/
theorem outside_unattributed_iff (unicode : Unicode) :
    (∀ path, OutsideKubepods (split path slash) →
      ((parsePod unicode path).1 = [] ↔ ∀ segment ∈ split path slash, ¬ NamesPod segment)) ∧
    (∀ (resolver : Resolver) (pid : UInt32) (pods : Option Watcher) (path : GoString),
      pathFor resolver pid = .ok path → OutsideKubepods (split path slash) →
      (∀ segment ∈ split path slash, ¬ NamesPod segment) →
      (identify unicode resolver pid pods).1.podUID = [] ∧
        (identify unicode resolver pid pods).1.pod = none ∧
        (identify unicode resolver pid pods).2 = none) ∧
    (∀ (subtree : List GoString) (name : GoString),
      (∀ segment ∈ subtree ++ [name], slash ∉ segment ∧ ¬ str "kubepods" <:+: segment) →
      (∀ segment ∈ subtree, ¬ NamesPod segment) →
      ((parsePod unicode (join (subtree ++ [name]) [slash])).1 = [] ↔ ¬ NamesPod name)) := by
  refine ⟨fun path _ => scanSegments_eq_nil_iff unicode, ?_, ?_⟩
  · intro resolver pid pods path hpath _ hsegments
    have huid : (parsePod unicode path).1 = [] := (scanSegments_eq_nil_iff unicode).2 hsegments
    refine ⟨?_, identify_of_no_pod unicode resolver pid pods hpath huid⟩
    rw [podUID_identify unicode resolver pid pods hpath, huid]
  · intro subtree name hsegments hsubtree
    have hsplit : split (join (subtree ++ [name]) [slash]) slash = subtree ++ [name] :=
      split_join (by simp) fun segment hsegment => (hsegments segment hsegment).1
    rw [parsePod, hsplit, scanSegments_append unicode hsubtree, scanSegments_eq_nil_iff]
    simp

/-- A process of a user session. -/
def sessionResolver : Resolver where
  procRoot := str "/proc"
  readFile _ := .ok (str "0::/user.slice/user-1000.slice/session-3.scope\n")
  idFor _ := .error (str "no such file or directory")

/-- A process that made a directory in the slice delegated to its user. -/
def delegatedResolver : Resolver where
  procRoot := str "/proc"
  readFile _ := .ok (str "0::/user.slice/user-1000.slice/user@1000.service/" ++
    (str "pod0a1b2c3d-4e5f-6071-8293-a4b5c6d7e8f9/0123456789ab\n"))
  idFor _ := .error (str "no such file or directory")

theorem session_unattributed :
    (identify Unicode.ascii sessionResolver 42
      (some (checkoutInputs.foldl (Watcher.receive Unicode.ascii) {}))).1.pod = none := by
  have hsegments : ∀ segment ∈ split (str "/user.slice/user-1000.slice/session-3.scope") slash,
      podUIDSegment.findSubmatch segment = none := by
    decide +kernel
  exact ((outside_unattributed_iff Unicode.ascii).2.1 sessionResolver 42 _
    (str "/user.slice/user-1000.slice/session-3.scope") (by decide +kernel)
    (outsideKubepods_of_forall (by decide +kernel))
    fun segment hsegment => findSubmatch_eq_none_iff.1 (hsegments segment hsegment)).2.1

/-- The owner of a delegated slice takes the identity of a pod's container by the
name of a directory. -/
theorem delegated_slice_attributed :
    OutsideKubepods (split (str "/user.slice/user-1000.slice/user@1000.service/" ++
      str "pod0a1b2c3d-4e5f-6071-8293-a4b5c6d7e8f9/0123456789ab") slash) ∧
    (parsePod Unicode.ascii (str "/user.slice/user-1000.slice/user@1000.service/" ++
      str "pod0a1b2c3d-4e5f-6071-8293-a4b5c6d7e8f9/0123456789ab")).1 ≠ [] ∧
    (identify Unicode.ascii delegatedResolver 42
        (some (checkoutInputs.foldl (Watcher.receive Unicode.ascii) {}))).1.pod =
      some (checkoutObject.toPod Unicode.ascii) ∧
    (Selector.admits { namespaceName := str "payments", container := str "app" }
      (identify Unicode.ascii delegatedResolver 42
        (some (checkoutInputs.foldl (Watcher.receive Unicode.ascii) {}))).1).1 = true :=
  -- The three facts are about one path, which is parsed once for them.
  ⟨outsideKubepods_of_forall (by decide +kernel), by decide +kernel⟩

end KernelSeal.HostPaths

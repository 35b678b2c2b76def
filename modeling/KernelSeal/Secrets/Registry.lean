import KernelSeal.Go.Text

/-!
# Secret bindings and the authorization decision

This file models `internal/secrets`: which bindings apply to a caller that
names a binary.  The binary name is a claim of the caller and only narrows the
candidates; the remaining constraints are about the caller's cgroup and pod.

The decision procedure is `Selector.admits`, translated from the source.  What
it is meant to decide is stated separately as `Selector.Satisfied`, and
`satisfied_iff` compares the two exactly: they differ only on a label that the
selector gives an empty value and the pod does not carry, because indexing a Go
map yields the empty string for an absent key.
-/

namespace KernelSeal.Registry

open KernelSeal.Text

/-- `kube.Pod`: the part of a pod that bindings can select on.  `containers`
maps a runtime container ID to the container's name. -/
structure Pod where
  uid : GoString
  name : GoString
  namespaceName : GoString
  labels : StringMap
  containers : StringMap
  deriving DecidableEq

structure Secret where
  name : GoString
  value : GoString
  deriving DecidableEq

structure Selector where
  binary : GoString := []
  container : GoString := []
  namespaceName : GoString := []
  labels : StringMap := ∅
  cgroupPath : GoString := []
  deriving DecidableEq

/-- `Selector.IsPodScoped`: the selector constrains which pod may match. -/
def Selector.IsPodScoped (selector : Selector) : Prop :=
  selector.namespaceName ≠ [] ∨ selector.labels ≠ ∅ ∨ selector.cgroupPath ≠ [] ∨
    selector.container ≠ []

instance : DecidablePred Selector.IsPodScoped := fun _ =>
  inferInstanceAs (Decidable (_ ∨ _ ∨ _ ∨ _))

/-- Everything known about a requesting process that does not come from the
request body.  The zero value is the caller of an agent that does not identify
callers. -/
structure Caller where
  cgroupPath : GoString := []
  cgroupID : UInt64 := 0
  cgroupPathRelative : Bool := false
  podUID : GoString := []
  containerID : GoString := []
  pod : Option Pod := none
  deriving DecidableEq

/-- `cgroupPathMatches` accepts an exact path or any descendant of it. -/
def cgroupPathMatches (want got : GoString) : Prop :=
  let want := trimSuffix want (str "/")
  want ≠ [] ∧ (got = want ∨ want ++ str "/" <+: got)

instance (want got : GoString) : Decidable (cgroupPathMatches want got) :=
  inferInstanceAs (Decidable (_ ∧ (_ ∨ _)))

/-- `Selector.admits`: whether the pod constraints accept the caller, and the
first constraint that did not.  The label loop refuses as soon as one entry
differs, so its iteration order does not matter. -/
def Selector.admits (selector : Selector) (caller : Caller) : Bool × GoString :=
  if selector.cgroupPath ≠ [] ∧ caller.cgroupPathRelative then
    (false, str "cgroupPath (agent is in its own cgroup namespace, " ++
      str "so caller paths are not comparable)")
  else if selector.cgroupPath ≠ [] ∧
      ¬ cgroupPathMatches selector.cgroupPath caller.cgroupPath then
    (false, str "cgroupPath")
  else if selector.namespaceName ≠ [] ∧
      caller.pod.all fun pod => pod.namespaceName ≠ selector.namespaceName then
    (false, str "namespace")
  else if ∃ key ∈ selector.labels.keys,
      caller.pod.all fun pod => pod.labels.index key ≠ selector.labels.index key then
    (false, str "labels")
  else if selector.container ≠ [] ∧
      (caller.containerID = [] ∨ caller.pod.all fun pod =>
        pod.containers.index caller.containerID ≠ selector.container) then
    (false, str "container")
  else (true, [])

/-! ## What a selector is meant to say -/

/-- Every constraint of the selector really holds of the caller: a constraint
on an attribute requires a pod that has the attribute. -/
structure Selector.Satisfied (selector : Selector) (caller : Caller) : Prop where
  cgroupPath : selector.cgroupPath ≠ [] →
    caller.cgroupPathRelative = false ∧
      cgroupPathMatches selector.cgroupPath caller.cgroupPath
  namespaceName : selector.namespaceName ≠ [] →
    ∃ pod, caller.pod = some pod ∧ pod.namespaceName = selector.namespaceName
  labels : ∀ key value, selector.labels.lookup key = some value →
    ∃ pod, caller.pod = some pod ∧ pod.labels.lookup key = some value
  container : selector.container ≠ [] →
    ∃ pod, caller.pod = some pod ∧ caller.containerID ≠ [] ∧
      pod.containers.lookup caller.containerID = some selector.container

/-- The selector asks for a label with an empty value that the caller's pod
does not carry. -/
def Selector.BlankLabelMissing (selector : Selector) (caller : Caller) : Prop :=
  ∃ key, selector.labels.lookup key = some [] ∧
    ∃ pod, caller.pod = some pod ∧ pod.labels.lookup key = none

theorem index_eq_of_lookup {entries : StringMap} {key value : GoString}
    (hlookup : entries.lookup key = some value) : entries.index key = value := by
  simp [StringMap.index, hlookup]

theorem index_eq_iff {entries : StringMap} {key value : GoString} :
    entries.index key = value ↔
      entries.lookup key = some value ∨ (value = [] ∧ entries.lookup key = none) := by
  rw [StringMap.index]
  cases entries.lookup key with
  | none => simp [eq_comm]
  | some found => simp

/-- Absent and empty cannot be confused when a non-empty value is required. -/
theorem lookup_of_index_eq {entries : StringMap} {key value : GoString}
    (hindex : entries.index key = value) (hvalue : value ≠ []) :
    entries.lookup key = some value := by
  rcases index_eq_iff.1 hindex with hlookup | ⟨hempty, _⟩
  · exact hlookup
  · exact absurd hempty hvalue

theorem mem_keys_iff_lookup {entries : StringMap} {key : GoString} :
    key ∈ entries.keys ↔ ∃ value, entries.lookup key = some value := by
  rw [Finmap.mem_keys, ← Finmap.lookup_isSome, Option.isSome_iff_exists]

/-- `c.Pod == nil || c.Pod.field != want`, the refusing test of every
constraint on the pod. -/
theorem pod_all_ne_iff {α : Type*} [DecidableEq α] (caller : Caller)
    (field : Pod → α) (want : α) :
    (caller.pod.all fun pod => field pod ≠ want) = true ↔
      ¬ ∃ pod, caller.pod = some pod ∧ field pod = want := by
  cases hpod : caller.pod <;> simp

theorem labels_refuse_iff (selector : Selector) (caller : Caller) :
    (∃ key ∈ selector.labels.keys,
        caller.pod.all fun pod => pod.labels.index key ≠ selector.labels.index key) ↔
      ¬ ∀ key value, selector.labels.lookup key = some value →
        ∃ pod, caller.pod = some pod ∧ pod.labels.index key = value := by
  push Not
  constructor
  · rintro ⟨key, hkey, hdiffers⟩
    obtain ⟨value, hvalue⟩ := mem_keys_iff_lookup.1 hkey
    rw [pod_all_ne_iff, index_eq_of_lookup hvalue] at hdiffers
    exact ⟨key, value, hvalue, fun pod hpod hindex => hdiffers ⟨pod, hpod, hindex⟩⟩
  · rintro ⟨key, value, hvalue, hdiffers⟩
    refine ⟨key, mem_keys_iff_lookup.2 ⟨value, hvalue⟩, ?_⟩
    rw [pod_all_ne_iff, index_eq_of_lookup hvalue]
    rintro ⟨pod, hpod, hindex⟩
    exact hdiffers pod hpod hindex

/-- `admits` accepts exactly when all four groups of constraints do. -/
theorem admits_iff (selector : Selector) (caller : Caller) :
    (selector.admits caller).1 = true ↔
      (selector.cgroupPath ≠ [] → caller.cgroupPathRelative = false ∧
        cgroupPathMatches selector.cgroupPath caller.cgroupPath) ∧
      (selector.namespaceName ≠ [] →
        ∃ pod, caller.pod = some pod ∧ pod.namespaceName = selector.namespaceName) ∧
      (∀ key value, selector.labels.lookup key = some value →
        ∃ pod, caller.pod = some pod ∧ pod.labels.index key = value) ∧
      (selector.container ≠ [] → caller.containerID ≠ [] ∧
        ∃ pod, caller.pod = some pod ∧
          pod.containers.index caller.containerID = selector.container) := by
  rw [Selector.admits]
  split_ifs with hrelative hpath hnamespace hlabel hcontainer
  · refine iff_of_false (by simp) fun hall => ?_
    simpa [hrelative.2] using (hall.1 hrelative.1).1
  · exact iff_of_false (by simp) fun hall => hpath.2 (hall.1 hpath.1).2
  · exact iff_of_false (by simp) fun hall =>
      (pod_all_ne_iff caller _ _).1 hnamespace.2 (hall.2.1 hnamespace.1)
  · exact iff_of_false (by simp) fun hall =>
      (labels_refuse_iff selector caller).1 hlabel hall.2.2.1
  · refine iff_of_false (by simp) fun hall => ?_
    obtain ⟨hid, hname⟩ := hall.2.2.2 hcontainer.1
    rcases hcontainer.2 with hempty | hdiffers
    · exact hid hempty
    · exact (pod_all_ne_iff caller _ _).1 hdiffers hname
  · refine iff_of_true rfl ⟨fun hnamed => ⟨?_, ?_⟩, fun hnamed => ?_, ?_, fun hnamed => ⟨?_, ?_⟩⟩
    · simpa [hnamed] using hrelative
    · simpa [hnamed] using hpath
    · rw [pod_all_ne_iff] at hnamespace
      exact not_not.1 fun hnone => hnamespace ⟨hnamed, hnone⟩
    · exact not_not.1 fun hnone => hlabel ((labels_refuse_iff selector caller).2 hnone)
    · exact fun hempty => hcontainer ⟨hnamed, Or.inl hempty⟩
    · rw [pod_all_ne_iff] at hcontainer
      exact not_not.1 fun hnone => hcontainer ⟨hnamed, Or.inr hnone⟩

/-- The decision procedure is complete for the intended meaning, and sound
except for labels with an empty value that the pod lacks. -/
theorem satisfied_iff (selector : Selector) (caller : Caller) :
    selector.Satisfied caller ↔
      (selector.admits caller).1 = true ∧ ¬ selector.BlankLabelMissing caller := by
  rw [admits_iff]
  constructor
  · intro hsatisfied
    refine ⟨⟨hsatisfied.cgroupPath, hsatisfied.namespaceName, fun key value hvalue => ?_,
      fun hcontainer => ?_⟩, ?_⟩
    · obtain ⟨pod, hpod, hlabel⟩ := hsatisfied.labels key value hvalue
      exact ⟨pod, hpod, index_eq_of_lookup hlabel⟩
    · obtain ⟨pod, hpod, hid, hname⟩ := hsatisfied.container hcontainer
      exact ⟨hid, pod, hpod, index_eq_of_lookup hname⟩
    · rintro ⟨key, hblank, pod, hpod, hmissing⟩
      obtain ⟨pod', hpod', hlabel⟩ := hsatisfied.labels key [] hblank
      obtain rfl : pod = pod' := Option.some.inj (hpod.symm.trans hpod')
      exact absurd hlabel (by simp [hmissing])
  · rintro ⟨⟨hcgroup, hnamespace, hlabels, hcontainer⟩, hblank⟩
    refine ⟨hcgroup, hnamespace, fun key value hvalue => ?_, fun hnamed => ?_⟩
    · obtain ⟨pod, hpod, hindex⟩ := hlabels key value hvalue
      rcases index_eq_iff.1 hindex with hlookup | ⟨rfl, hmissing⟩
      · exact ⟨pod, hpod, hlookup⟩
      · exact absurd ⟨key, hvalue, pod, hpod, hmissing⟩ hblank
    · obtain ⟨hid, pod, hpod, hindex⟩ := hcontainer hnamed
      exact ⟨pod, hpod, hid, lookup_of_index_eq hindex hnamed⟩

/-! ## Bindings and lookup -/

/-- One configured group of secrets and the callers it applies to.  A non-empty
`rejected` says why the binding cannot serve anyone under the active policy. -/
structure Binding where
  name : GoString
  selector : Selector
  secrets : List Secret := []
  unresolved : List GoString := []
  rejected : GoString := []
  deriving DecidableEq

structure Match where
  secrets : List Secret := []
  unresolved : List GoString := []
  refused : List GoString := []
  rejected : List GoString := []
  deriving DecidableEq

/-- `Match.Empty`: the request matched nothing at all. -/
def Match.Empty (found : Match) : Prop :=
  found.secrets = [] ∧ found.unresolved = [] ∧ found.refused = [] ∧ found.rejected = []

instance : DecidablePred Match.Empty := fun _ =>
  inferInstanceAs (Decidable (_ ∧ _ ∧ _ ∧ _))

/-- The entry a refusal leaves in `Match.Refused`. -/
def refusal (binding : Binding) (caller : Caller) : GoString :=
  binding.name ++ str " (" ++ (binding.selector.admits caller).2 ++ str ")"

/-- The body of the loop in `Lookup`. -/
def Match.visit (binaryName : GoString) (caller : Caller) (found : Match)
    (binding : Binding) : Match :=
  if binding.selector.binary ≠ [] ∧ binding.selector.binary ≠ binaryName then found
  else if binding.rejected ≠ [] then
    { found with rejected := found.rejected ++ [binding.name] }
  else if ¬ (binding.selector.admits caller).1 then
    { found with refused := found.refused ++ [refusal binding caller] }
  else
    { found with
      secrets := found.secrets ++ binding.secrets
      unresolved := found.unresolved ++ binding.unresolved }

/-- `Registry.Lookup`. -/
def lookup (bindings : List Binding) (binaryName : GoString) (caller : Caller) : Match :=
  let found := bindings.foldl (Match.visit binaryName caller) {}
  { found with unresolved := sortStrings found.unresolved }

section Standing

variable (binaryName : GoString) (caller : Caller)

/-- The binding is a candidate for the requested binary. -/
def Binding.Candidate (binding : Binding) : Prop :=
  binding.selector.binary = [] ∨ binding.selector.binary = binaryName

def Binding.Admitted (binding : Binding) : Prop :=
  binding.Candidate binaryName ∧ binding.rejected = [] ∧
    (binding.selector.admits caller).1 = true

def Binding.Refused (binding : Binding) : Prop :=
  binding.Candidate binaryName ∧ binding.rejected = [] ∧
    (binding.selector.admits caller).1 = false

def Binding.Rejected (binding : Binding) : Prop :=
  binding.Candidate binaryName ∧ binding.rejected ≠ []

instance (binding : Binding) : Decidable (binding.Candidate binaryName) :=
  inferInstanceAs (Decidable (_ ∨ _))

instance (binding : Binding) : Decidable (binding.Admitted binaryName caller) :=
  inferInstanceAs (Decidable (_ ∧ _ ∧ _))

instance (binding : Binding) : Decidable (binding.Refused binaryName caller) :=
  inferInstanceAs (Decidable (_ ∧ _ ∧ _))

instance (binding : Binding) : Decidable (binding.Rejected binaryName) :=
  inferInstanceAs (Decidable (_ ∧ _))

/-- The bindings whose secrets are released, in configuration order. -/
def admitted (bindings : List Binding) : List Binding :=
  bindings.filter (·.Admitted binaryName caller)

def refused (bindings : List Binding) : List Binding :=
  bindings.filter (·.Refused binaryName caller)

def rejected (bindings : List Binding) : List Binding :=
  bindings.filter (·.Rejected binaryName)

theorem visit_of_not_candidate {binding : Binding} (found : Match)
    (hcandidate : ¬ binding.Candidate binaryName) :
    found.visit binaryName caller binding = found := by
  rw [Binding.Candidate, not_or] at hcandidate
  rw [Match.visit, if_pos hcandidate]

theorem visit_of_rejected {binding : Binding} (found : Match)
    (hrejected : binding.Rejected binaryName) :
    found.visit binaryName caller binding =
      { found with rejected := found.rejected ++ [binding.name] } := by
  obtain ⟨hcandidate, hreason⟩ := hrejected
  rw [Binding.Candidate, or_iff_not_and_not] at hcandidate
  rw [Match.visit, if_neg hcandidate, if_pos hreason]

theorem visit_of_refused {binding : Binding} (found : Match)
    (hrefused : binding.Refused binaryName caller) :
    found.visit binaryName caller binding =
      { found with refused := found.refused ++ [refusal binding caller] } := by
  obtain ⟨hcandidate, hreason, hadmits⟩ := hrefused
  rw [Binding.Candidate, or_iff_not_and_not] at hcandidate
  rw [Match.visit, if_neg hcandidate, if_neg (not_not.2 hreason), if_pos (by simp [hadmits])]

theorem visit_of_admitted {binding : Binding} (found : Match)
    (hadmitted : binding.Admitted binaryName caller) :
    found.visit binaryName caller binding =
      { found with
        secrets := found.secrets ++ binding.secrets
        unresolved := found.unresolved ++ binding.unresolved } := by
  obtain ⟨hcandidate, hreason, hadmits⟩ := hadmitted
  rw [Binding.Candidate, or_iff_not_and_not] at hcandidate
  rw [Match.visit, if_neg hcandidate, if_neg (not_not.2 hreason), if_neg (by simp [hadmits])]

/-- A candidate binding is admitted, refused or rejected. -/
theorem standing_of_candidate {binding : Binding}
    (hcandidate : binding.Candidate binaryName) :
    binding.Admitted binaryName caller ∨ binding.Refused binaryName caller ∨
      binding.Rejected binaryName := by
  by_cases hreason : binding.rejected = []
  · cases hadmits : (binding.selector.admits caller).1 with
    | true => exact Or.inl ⟨hcandidate, hreason, hadmits⟩
    | false => exact Or.inr (Or.inl ⟨hcandidate, hreason, hadmits⟩)
  · exact Or.inr (Or.inr ⟨hcandidate, hreason⟩)

variable {binaryName caller} in
theorem Binding.Admitted.not_refused {binding : Binding}
    (hadmitted : binding.Admitted binaryName caller) :
    ¬ binding.Refused binaryName caller := fun hrefused =>
  Bool.noConfusion (hadmitted.2.2.symm.trans hrefused.2.2)

variable {binaryName caller} in
theorem Binding.Rejected.not_admitted {binding : Binding}
    (hrejected : binding.Rejected binaryName) :
    ¬ binding.Admitted binaryName caller := fun hadmitted =>
  hrejected.2 hadmitted.2.1

variable {binaryName caller} in
theorem Binding.Rejected.not_refused {binding : Binding}
    (hrejected : binding.Rejected binaryName) :
    ¬ binding.Refused binaryName caller := fun hrefused =>
  hrejected.2 hrefused.2.1

/-- The loop of `Lookup` appends, in configuration order, the secrets of the
admitted bindings and the names of the refused and rejected ones. -/
theorem foldl_visit_eq (bindings : List Binding) (found : Match) :
    bindings.foldl (Match.visit binaryName caller) found =
      { secrets := found.secrets ++
          (admitted binaryName caller bindings).flatMap Binding.secrets
        unresolved := found.unresolved ++
          (admitted binaryName caller bindings).flatMap Binding.unresolved
        refused := found.refused ++
          (refused binaryName caller bindings).map (refusal · caller)
        rejected := found.rejected ++
          (rejected binaryName bindings).map Binding.name } := by
  rw [admitted, refused, rejected]
  induction bindings generalizing found with
  | nil => simp
  | cons binding bindings ih =>
      rw [List.foldl_cons, ih]
      by_cases hcandidate : binding.Candidate binaryName
      · rcases standing_of_candidate binaryName caller hcandidate with
          hadmitted | hrefused | hrejected
        · have hrejected : ¬ binding.Rejected binaryName := fun hrejected =>
            hrejected.not_admitted hadmitted
          simp [visit_of_admitted, hadmitted, hadmitted.not_refused, hrejected]
        · have hadmitted : ¬ binding.Admitted binaryName caller := fun hadmitted =>
            hadmitted.not_refused hrefused
          have hrejected : ¬ binding.Rejected binaryName := fun hrejected =>
            hrejected.not_refused hrefused
          simp [visit_of_refused, hadmitted, hrefused, hrejected]
        · simp [visit_of_rejected, hrejected, hrejected.not_admitted,
            hrejected.not_refused]
      · have hadmitted : ¬ binding.Admitted binaryName caller := fun h => hcandidate h.1
        have hrefused : ¬ binding.Refused binaryName caller := fun h => hcandidate h.1
        have hrejected : ¬ binding.Rejected binaryName := fun h => hcandidate h.1
        simp [visit_of_not_candidate, hcandidate, hadmitted, hrefused, hrejected]

theorem lookup_eq (bindings : List Binding) :
    lookup bindings binaryName caller =
      { secrets := (admitted binaryName caller bindings).flatMap Binding.secrets
        unresolved := sortStrings
          ((admitted binaryName caller bindings).flatMap Binding.unresolved)
        refused := (refused binaryName caller bindings).map (refusal · caller)
        rejected := (rejected binaryName bindings).map Binding.name } := by
  rw [lookup, foldl_visit_eq]
  simp

/-! The four lists of a match are empty exactly when no binding contributes to
them. -/

theorem lookup_secrets_eq_nil_iff {bindings : List Binding} :
    (lookup bindings binaryName caller).secrets = [] ↔
      ∀ binding ∈ bindings, binding.Admitted binaryName caller → binding.secrets = [] := by
  simp [lookup_eq, admitted]

theorem lookup_unresolved_eq_nil_iff {bindings : List Binding} :
    (lookup bindings binaryName caller).unresolved = [] ↔
      ∀ binding ∈ bindings, binding.Admitted binaryName caller → binding.unresolved = [] := by
  rw [lookup_eq, sortStrings, ← List.length_eq_zero_iff, List.length_insertionSort,
    List.length_eq_zero_iff]
  simp [admitted]

theorem lookup_refused_eq_nil_iff {bindings : List Binding} :
    (lookup bindings binaryName caller).refused = [] ↔
      ∀ binding ∈ bindings, ¬ binding.Refused binaryName caller := by
  simp [lookup_eq, refused]

theorem lookup_rejected_eq_nil_iff {bindings : List Binding} :
    (lookup bindings binaryName caller).rejected = [] ↔
      ∀ binding ∈ bindings, ¬ binding.Rejected binaryName := by
  simp [lookup_eq, rejected]

end Standing

end KernelSeal.Registry

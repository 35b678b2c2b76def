import KernelSeal.Secrets.Registry

/-!
# The pod cache

This file models the cache of `internal/kube`: how an API object becomes a pod
and what a list response or a watch event does to the map from UIDs to pods.
Nothing is assumed of the objects, which may lack a UID or name containers that
have not started.
-/

namespace KernelSeal.Kube

open KernelSeal.Text
open KernelSeal.Registry

/-! ## API objects -/

structure ContainerStatus where
  name : GoString
  containerID : GoString
  deriving DecidableEq

/-- `podObject`. -/
structure PodObject where
  uid : GoString := []
  name : GoString := []
  namespaceName : GoString := []
  labels : StringMap := ∅
  resourceVersion : GoString := []
  containerStatuses : List ContainerStatus := []
  initContainerStatuses : List ContainerStatus := []
  ephemeralContainerStatuses : List ContainerStatus := []
  deriving DecidableEq

/-- The types of watch events; any other type is ignored. -/
inductive EventType where
  | added
  | modified
  | deleted
  | bookmark
  | error
  | other
  deriving DecidableEq

/-- `watchEvent`. -/
structure WatchEvent where
  type : EventType
  object : PodObject
  deriving DecidableEq

section Convert

variable (unicode : Unicode)

/-- `stripRuntimePrefix`. -/
def stripRuntimePrefix (id : GoString) : GoString :=
  match index id (str "://") with
  | some position => toLower unicode (id.drop (position + 3))
  | none => toLower unicode id

/-- The body of the loop of `toPod`. -/
def addContainer (containers : StringMap) (status : ContainerStatus) : StringMap :=
  let id := stripRuntimePrefix unicode status.containerID
  if id = [] ∨ status.name = [] then containers else containers.insert id status.name

/-- `podObject.toPod`. -/
def PodObject.toPod (object : PodObject) : Pod where
  uid := object.uid
  name := object.name
  namespaceName := object.namespaceName
  labels := object.labels
  containers := (object.containerStatuses ++ object.initContainerStatuses ++
    object.ephemeralContainerStatuses).foldl (addContainer unicode) ∅

end Convert

/-! ## The cache -/

/-- `map[string]Pod`. -/
abbrev PodMap := Finmap fun _ : GoString => Pod

/-- The state of the `Watcher` that lookups read. -/
structure Watcher where
  byUID : PodMap := ∅
  synced : Bool := false

/-- `(*Watcher).Lookup`. -/
def Watcher.lookup (watcher : Watcher) (uid : GoString) : Option Pod :=
  watcher.byUID.lookup uid

section Operations

variable (unicode : Unicode) (watcher : Watcher)

/-- The body of the loop of `list`. -/
def addItem (fresh : PodMap) (item : PodObject) : PodMap :=
  if item.uid = [] then fresh else fresh.insert item.uid (item.toPod unicode)

/-- What `list` does with a response. -/
def Watcher.list (items : List PodObject) : Watcher :=
  { watcher with byUID := items.foldl (addItem unicode) ∅ }

/-- `(*Watcher).put`. -/
def Watcher.put (pod : Pod) : Watcher :=
  { watcher with byUID := watcher.byUID.insert pod.uid pod }

/-- `(*Watcher).delete`. -/
def Watcher.delete (uid : GoString) : Watcher :=
  if uid = [] then watcher else { watcher with byUID := watcher.byUID.erase uid }

/-- The switch of `watchOnce` over an event. -/
def Watcher.handle (event : WatchEvent) : Watcher :=
  match event.type with
  | .added | .modified =>
      if event.object.uid ≠ [] then watcher.put (event.object.toPod unicode) else watcher
  | .deleted => watcher.delete event.object.uid
  | .bookmark | .error | .other => watcher

variable {unicode watcher} in
theorem Watcher.handle_put {event : WatchEvent}
    (htype : event.type = .added ∨ event.type = .modified) (huid : event.object.uid ≠ []) :
    watcher.handle unicode event = watcher.put (event.object.toPod unicode) := by
  rw [Watcher.handle]
  rcases htype with htype | htype
  · rw [htype]
    exact if_pos huid
  · rw [htype]
    exact if_pos huid

variable {unicode watcher} in
theorem Watcher.handle_delete {event : WatchEvent} (htype : event.type = .deleted)
    (huid : event.object.uid ≠ []) :
    watcher.handle unicode event =
      { watcher with byUID := watcher.byUID.erase event.object.uid } := by
  rw [Watcher.handle, htype]
  exact if_neg huid

/-- What reaches the cache: the response of a list, a watch event, and the end of
`Start`. -/
inductive Input where
  | listed (items : List PodObject)
  | event (event : WatchEvent)
  | started

def Watcher.receive : Input → Watcher
  | .listed items => watcher.list unicode items
  | .event event => watcher.handle unicode event
  | .started => { watcher with synced := true }

end Operations

/-! ## Entries of the cache -/

/-- Every entry is a pod under its own, non-empty UID, with named containers. -/
structure WellKeyed (pods : PodMap) : Prop where
  ne_nil : ∀ uid pod, pods.lookup uid = some pod → uid ≠ []
  uid_eq : ∀ uid pod, pods.lookup uid = some pod → pod.uid = uid
  containers : ∀ uid pod, pods.lookup uid = some pod → pod.containers.lookup [] = none

section WellKeyed

variable {unicode : Unicode} {pods : PodMap}

theorem lookup_nil_addContainer {containers : StringMap} (hnone : containers.lookup [] = none)
    (status : ContainerStatus) : (addContainer unicode containers status).lookup [] = none := by
  rw [addContainer]
  split
  · exact hnone
  · next hnamed =>
      rw [Finmap.lookup_insert_of_ne _ fun hid => hnamed (Or.inl hid.symm)]
      exact hnone

/-- A container without an ID is left out. -/
theorem lookup_nil_toPod (object : PodObject) :
    (object.toPod unicode).containers.lookup [] = none := by
  have hfold (statuses : List ContainerStatus) (containers : StringMap)
      (hnone : containers.lookup [] = none) :
      (statuses.foldl (addContainer unicode) containers).lookup [] = none := by
    induction statuses generalizing containers with
    | nil => exact hnone
    | cons status statuses ih => exact ih _ (lookup_nil_addContainer hnone status)
  exact hfold _ _ (Finmap.lookup_empty _)

theorem wellKeyed_empty : WellKeyed ∅ where
  ne_nil uid pod hpod := by simp at hpod
  uid_eq uid pod hpod := by simp at hpod
  containers uid pod hpod := by simp at hpod

theorem WellKeyed.insert (hpods : WellKeyed pods) {object : PodObject} (huid : object.uid ≠ []) :
    WellKeyed (pods.insert object.uid (object.toPod unicode)) := by
  have hentry {uid : GoString} {pod : Pod}
      (hpod : (pods.insert object.uid (object.toPod unicode)).lookup uid = some pod) :
      (uid = object.uid ∧ pod = object.toPod unicode) ∨ pods.lookup uid = some pod := by
    by_cases hsame : uid = object.uid
    · subst hsame
      rw [Finmap.lookup_insert, Option.some.injEq] at hpod
      exact Or.inl ⟨rfl, hpod.symm⟩
    · rw [Finmap.lookup_insert_of_ne _ hsame] at hpod
      exact Or.inr hpod
  constructor
  · intro uid pod hpod
    rcases hentry hpod with ⟨rfl, rfl⟩ | hpod
    · exact huid
    · exact hpods.ne_nil uid pod hpod
  · intro uid pod hpod
    rcases hentry hpod with ⟨rfl, rfl⟩ | hpod
    · rfl
    · exact hpods.uid_eq uid pod hpod
  · intro uid pod hpod
    rcases hentry hpod with ⟨rfl, rfl⟩ | hpod
    · exact lookup_nil_toPod object
    · exact hpods.containers uid pod hpod

theorem WellKeyed.erase (hpods : WellKeyed pods) (removed : GoString) :
    WellKeyed (pods.erase removed) := by
  have hentry {uid : GoString} {pod : Pod} (hpod : (pods.erase removed).lookup uid = some pod) :
      pods.lookup uid = some pod := by
    by_cases hsame : uid = removed
    · rw [hsame, Finmap.lookup_erase] at hpod
      cases hpod
    · rwa [Finmap.lookup_erase_ne hsame] at hpod
  exact ⟨fun uid pod hpod => hpods.ne_nil uid pod (hentry hpod),
    fun uid pod hpod => hpods.uid_eq uid pod (hentry hpod),
    fun uid pod hpod => hpods.containers uid pod (hentry hpod)⟩

theorem wellKeyed_list (items : List PodObject) (hpods : WellKeyed pods) :
    WellKeyed (items.foldl (addItem unicode) pods) := by
  induction items generalizing pods with
  | nil => exact hpods
  | cons item items ih =>
      refine ih ?_
      rw [addItem]
      split
      · exact hpods
      · next huid => exact hpods.insert huid

theorem WellKeyed.handle {watcher : Watcher} (hpods : WellKeyed watcher.byUID)
    (event : WatchEvent) : WellKeyed (watcher.handle unicode event).byUID := by
  have hput : WellKeyed (if event.object.uid ≠ [] then watcher.put (event.object.toPod unicode)
      else watcher).byUID := by
    split
    · next huid => exact hpods.insert huid
    · exact hpods
  have hdelete : WellKeyed (watcher.delete event.object.uid).byUID := by
    rw [Watcher.delete]
    split
    · exact hpods
    · exact hpods.erase event.object.uid
  cases htype : event.type with
  | added => simpa only [Watcher.handle, htype] using hput
  | modified => simpa only [Watcher.handle, htype] using hput
  | deleted => simpa only [Watcher.handle, htype] using hdelete
  | bookmark => simpa only [Watcher.handle, htype] using hpods
  | error => simpa only [Watcher.handle, htype] using hpods
  | other => simpa only [Watcher.handle, htype] using hpods

theorem WellKeyed.receive {watcher : Watcher} (hpods : WellKeyed watcher.byUID) (input : Input) :
    WellKeyed (watcher.receive unicode input).byUID := by
  cases input with
  | listed items => exact wellKeyed_list items wellKeyed_empty
  | event event => exact hpods.handle event
  | started => exact hpods

/-- The cache stays well keyed whatever it receives. -/
theorem wellKeyed_foldl (inputs : List Input) {watcher : Watcher}
    (hpods : WellKeyed watcher.byUID) :
    WellKeyed (inputs.foldl (Watcher.receive unicode) watcher).byUID := by
  induction inputs generalizing watcher with
  | nil => exact hpods
  | cons input inputs ih => exact ih (hpods.receive input)

end WellKeyed

end KernelSeal.Kube

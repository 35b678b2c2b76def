import KernelSeal.Core.Replica
import KernelSeal.Core.Transition
import KernelSeal.Kube.Cache

/-!
# The pod watch

This file models `Start` and `watchLoop` of `internal/kube` against an API server
that keeps a log of changes.  A list returns the pods at the head of the log with
its version; a watch from a version delivers the later changes in order; a watch
without a version first delivers the pods that exist.  Any request may fail, any
stream may end between two events, and the server goes on meanwhile.

Back-offs are left out here: they only delay the next request.
-/

namespace KernelSeal.Watch

open KernelSeal.Text
open KernelSeal.Registry
open KernelSeal.Kube
open KernelSeal.Replica
open KernelSeal.Transition

/-! ## The server -/

inductive ChangeKind where
  | added
  | modified
  | deleted
  deriving DecidableEq

/-- A change of the server's pods. -/
structure Change where
  kind : ChangeKind
  object : PodObject
  deriving DecidableEq

/-- Resource versions are opaque texts, different for different versions and never
empty. -/
structure Versions where
  text : ℕ → GoString
  text_injective : Function.Injective text
  text_ne_nil : ∀ version, text version ≠ []

/-- The pod after the change. -/
def Change.result (change : Change) : Option PodObject :=
  match change.kind with
  | .deleted => none
  | _ => some change.object

/-- The watch event of a change. -/
def Change.event (change : Change) : WatchEvent where
  type :=
    match change.kind with
    | .added => .added
    | .modified => .modified
    | .deleted => .deleted
  object := change.object

/-- The server's pod with a UID. -/
def current (log : List Change) (uid : GoString) : Option PodObject :=
  holds (log.map fun change => ⟨change.object.uid, change.result⟩) uid

/-- A UID is given to one pod and never again; a change of a pod that has one is
about an existing pod. -/
def Admissible (log : List Change) (change : Change) : Prop :=
  change.object.uid ≠ [] →
    match change.kind with
    | .added => ∀ past ∈ log, past.object.uid ≠ change.object.uid
    | _ => (current log change.object.uid).isSome = true

instance (log : List Change) : DecidablePred (Admissible log)
  | ⟨.added, object⟩ => inferInstanceAs
      (Decidable (object.uid ≠ [] → ∀ past ∈ log, past.object.uid ≠ object.uid))
  | ⟨.modified, object⟩ => inferInstanceAs
      (Decidable (object.uid ≠ [] → (current log object.uid).isSome = true))
  | ⟨.deleted, object⟩ => inferInstanceAs
      (Decidable (object.uid ≠ [] → (current log object.uid).isSome = true))

/-- The items with a UID are the server's pods with a UID. -/
def Lists (log : List Change) (items : List PodObject) : Prop :=
  (∀ item ∈ items, item.uid ≠ [] → current log item.uid = some item) ∧
  ∀ change ∈ log, change.object.uid ≠ [] →
    ∀ object ∈ current log change.object.uid, object ∈ items

instance (log : List Change) (items : List PodObject) : Decidable (Lists log items) :=
  inferInstanceAs (Decidable (_ ∧ _))

/-! ## The client -/

/-- The errors of a watch. -/
inductive WatchError where
  | watchExpired
  | apiError (code : ℕ)
  | other
  deriving DecidableEq

/-- `isExpired`. -/
def isExpired : WatchError → Bool
  | .watchExpired => true
  | .apiError code => code = 410
  | .other => false

/-- What a stream will deliver: pods that existed when it was opened, then the
changes from a position on. -/
structure Stream where
  pending : List PodObject := []
  position : ℕ

/-- Where `Start` and `watchLoop` are.  In a stream, `resumed` is the version that
`watchLoop` holds and `resourceVersion` the one that `watchOnce` has seen. -/
inductive Phase where
  | starting
  | idle (resourceVersion : GoString)
  | streaming (resumed resourceVersion : GoString) (stream : Stream)
  | relisting
  | stopped

/-- The switch of `watchLoop` over the result of `watchOnce`, up to the next request. -/
def afterWatch (resumed next : GoString) : Option WatchError → Phase
  | none => .idle next
  | some err =>
      let resourceVersion := if isExpired err then [] else resumed
      if resourceVersion = [] then .relisting else .idle resourceVersion

structure State where
  log : List Change := []
  watcher : Watcher := {}
  phase : Phase := .starting
  /-- The version of the log from which the entry of a UID, or its absence, was
  taken. -/
  shown : GoString → ℕ := fun _ => 0

/-- The steps of the server and of the client. -/
inductive Action where
  | commit (change : Change)
  | listed (items : List PodObject)
  | listFailed
  | opened (version : ℕ)
  | openedFresh (items : List PodObject)
  | refused (err : WatchError)
  | deliver
  | bookmark
  | errorEvent (object : PodObject)
  | closed
  | broken

section Client

variable (unicode : Unicode)

/-- `watchOnce` records the version of an event and applies it. -/
def State.receive (state : State) (resumed resourceVersion : GoString) (event : WatchEvent)
    (stream : Stream) (version : ℕ) : State :=
  { state with
    watcher := state.watcher.handle unicode event
    phase := .streaming resumed
      (if event.object.resourceVersion ≠ [] then event.object.resourceVersion
        else resourceVersion) stream
    shown := Function.update state.shown event.object.uid version }

variable (versions : Versions)

/-- The server stores a change under the next version. -/
def State.commit (state : State) (change : Change) : State :=
  { state with log := state.log ++ [{ change with object := { change.object with
      resourceVersion := versions.text (state.log.length + 1) } }] }

/-- A list succeeds; `Start` marks the cache as synced. -/
def State.listed (state : State) (items : List PodObject) : State :=
  { state with
    watcher :=
      { state.watcher.list unicode items with synced := true }
    phase := .idle (versions.text state.log.length)
    shown := fun _ => state.log.length }

/-- One step. -/
def step (state : State) : Action → Option State
  | .commit change =>
      if Admissible state.log change then some (state.commit versions change) else none
  | .listed items =>
      match state.phase with
      | .starting | .relisting =>
          if Lists state.log items then some (state.listed unicode versions items) else none
      | _ => none
  | .listFailed =>
      match state.phase with
      | .starting => some { state with phase := .stopped }
      | .relisting => some { state with phase := .idle [] }
      | _ => none
  | .opened version =>
      match state.phase with
      | .idle resourceVersion =>
          if resourceVersion ≠ [] ∧ versions.text version = resourceVersion ∧
              version ≤ state.log.length then
            some { state with
              phase := .streaming resourceVersion resourceVersion { position := version } }
          else none
      | _ => none
  | .openedFresh items =>
      match state.phase with
      | .idle resourceVersion =>
          if resourceVersion = [] ∧ Lists state.log items then
            some { state with
              phase := .streaming [] [] { pending := items, position := state.log.length } }
          else none
      | _ => none
  | .refused err =>
      match state.phase with
      | .idle resourceVersion =>
          some { state with phase := afterWatch resourceVersion resourceVersion (some err) }
      | _ => none
  | .deliver =>
      match state.phase with
      | .streaming resumed resourceVersion ⟨object :: pending, position⟩ =>
          some (state.receive unicode resumed resourceVersion ⟨.added, object⟩
            ⟨pending, position⟩ position)
      | .streaming resumed resourceVersion ⟨[], position⟩ =>
          match state.log[position]? with
          | some change =>
              some (state.receive unicode resumed resourceVersion change.event
                ⟨[], position + 1⟩ (position + 1))
          | none => none
      | _ => none
  | .bookmark =>
      match state.phase with
      | .streaming resumed _ ⟨[], position⟩ =>
          some { state with
            phase := .streaming resumed (versions.text position) ⟨[], position⟩ }
      | _ => none
  | .errorEvent object =>
      match state.phase with
      | .streaming resumed resourceVersion _ =>
          let next :=
            if object.resourceVersion ≠ [] then object.resourceVersion else resourceVersion
          some { state with phase := afterWatch resumed next (some .watchExpired) }
      | _ => none
  | .closed =>
      match state.phase with
      | .streaming resumed resourceVersion _ =>
          some { state with phase := afterWatch resumed resourceVersion none }
      | _ => none
  | .broken =>
      match state.phase with
      | .streaming resumed resourceVersion _ =>
          some { state with phase := afterWatch resumed resourceVersion (some .other) }
      | _ => none

/-- A watcher that is started against a server. -/
def watch : System State Action where
  init := {}
  step := step unicode versions

end Client

/-! ## What a step can do -/

/-- The steps of the system.  A stream that ends, by whatever error, goes where
`watchLoop` takes it. -/
inductive Stepped (unicode : Unicode) (versions : Versions) (state : State) :
    Action → State → Prop
  | commit (change : Change) (hadmissible : Admissible state.log change) :
      Stepped unicode versions state (.commit change) (state.commit versions change)
  | listed (items : List PodObject)
      (hphase : state.phase = .starting ∨ state.phase = .relisting)
      (hlists : Lists state.log items) :
      Stepped unicode versions state (.listed items) (state.listed unicode versions items)
  | startFailed (hphase : state.phase = .starting) :
      Stepped unicode versions state .listFailed { state with phase := .stopped }
  | relistFailed (hphase : state.phase = .relisting) :
      Stepped unicode versions state .listFailed { state with phase := .idle [] }
  | opened (version : ℕ) (hphase : state.phase = .idle (versions.text version))
      (hversion : version ≤ state.log.length) :
      Stepped unicode versions state (.opened version)
        { state with
          phase := .streaming (versions.text version) (versions.text version)
            { position := version } }
  | openedFresh (items : List PodObject) (hphase : state.phase = .idle [])
      (hlists : Lists state.log items) :
      Stepped unicode versions state (.openedFresh items)
        { state with
          phase := .streaming [] [] { pending := items, position := state.log.length } }
  | refused (err : WatchError) (resourceVersion : GoString)
      (hphase : state.phase = .idle resourceVersion) :
      Stepped unicode versions state (.refused err)
        { state with phase := afterWatch resourceVersion resourceVersion (some err) }
  | existing (resumed resourceVersion : GoString) (object : PodObject)
      (pending : List PodObject) (position : ℕ)
      (hphase : state.phase = .streaming resumed resourceVersion ⟨object :: pending, position⟩) :
      Stepped unicode versions state .deliver
        (state.receive unicode resumed resourceVersion ⟨.added, object⟩
          ⟨pending, position⟩ position)
  | deliver (resumed resourceVersion : GoString) (position : ℕ) (change : Change)
      (hphase : state.phase = .streaming resumed resourceVersion ⟨[], position⟩)
      (hchange : state.log[position]? = some change) :
      Stepped unicode versions state .deliver
        (state.receive unicode resumed resourceVersion change.event
          ⟨[], position + 1⟩ (position + 1))
  | bookmark (resumed resourceVersion : GoString) (position : ℕ)
      (hphase : state.phase = .streaming resumed resourceVersion ⟨[], position⟩) :
      Stepped unicode versions state .bookmark
        { state with phase := .streaming resumed (versions.text position) ⟨[], position⟩ }
  | errorEvent (object : PodObject) (resumed resourceVersion next : GoString) (stream : Stream)
      (hphase : state.phase = .streaming resumed resourceVersion stream) :
      Stepped unicode versions state (.errorEvent object)
        { state with phase := afterWatch resumed next (some .watchExpired) }
  | closed (resumed resourceVersion : GoString) (stream : Stream)
      (hphase : state.phase = .streaming resumed resourceVersion stream) :
      Stepped unicode versions state .closed
        { state with phase := afterWatch resumed resourceVersion none }
  | broken (resumed resourceVersion : GoString) (stream : Stream)
      (hphase : state.phase = .streaming resumed resourceVersion stream) :
      Stepped unicode versions state .broken
        { state with phase := afterWatch resumed resourceVersion (some .other) }

theorem stepped_of_step {unicode : Unicode} {versions : Versions} {state next : State}
    {action : Action} (hstep : step unicode versions state action = some next) :
    Stepped unicode versions state action next := by
  cases action with
  | commit change =>
      obtain ⟨hadmissible, hnext⟩ := Option.ite_none_right_eq_some.1 hstep
      cases hnext
      exact .commit change hadmissible
  | listed items =>
      simp only [step] at hstep
      split at hstep
      · obtain ⟨hlists, hnext⟩ := Option.ite_none_right_eq_some.1 hstep
        cases hnext
        exact .listed items (Or.inl ‹_›) hlists
      · obtain ⟨hlists, hnext⟩ := Option.ite_none_right_eq_some.1 hstep
        cases hnext
        exact .listed items (Or.inr ‹_›) hlists
      · cases hstep
  | listFailed =>
      simp only [step] at hstep
      split at hstep
      · cases hstep
        exact .startFailed ‹_›
      · cases hstep
        exact .relistFailed ‹_›
      · cases hstep
  | opened version =>
      simp only [step] at hstep
      split at hstep
      · obtain ⟨⟨_, rfl, hversion⟩, hnext⟩ := Option.ite_none_right_eq_some.1 hstep
        cases hnext
        exact .opened version ‹_› hversion
      · cases hstep
  | openedFresh items =>
      simp only [step] at hstep
      split at hstep
      · obtain ⟨⟨rfl, hlists⟩, hnext⟩ := Option.ite_none_right_eq_some.1 hstep
        cases hnext
        exact .openedFresh items ‹_› hlists
      · cases hstep
  | refused err =>
      simp only [step] at hstep
      split at hstep
      · cases hstep
        exact .refused err _ ‹_›
      · cases hstep
  | deliver =>
      simp only [step] at hstep
      split at hstep
      · cases hstep
        exact .existing _ _ _ _ _ ‹_›
      · split at hstep
        · cases hstep
          exact .deliver _ _ _ _ ‹_› ‹_›
        · cases hstep
      · cases hstep
  | bookmark =>
      simp only [step] at hstep
      split at hstep
      · cases hstep
        exact .bookmark _ _ _ ‹_›
      · cases hstep
  | errorEvent object =>
      simp only [step] at hstep
      split at hstep
      · cases hstep
        exact .errorEvent object _ _ _ _ ‹_›
      · cases hstep
  | closed =>
      simp only [step] at hstep
      split at hstep
      · cases hstep
        exact .closed _ _ _ ‹_›
      · cases hstep
  | broken =>
      simp only [step] at hstep
      split at hstep
      · cases hstep
        exact .broken _ _ _ ‹_›
      · cases hstep

end KernelSeal.Watch

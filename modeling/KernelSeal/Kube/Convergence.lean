import KernelSeal.Kube.Watch

/-!
# Convergence of the pod cache

The cache is a replica of the server's log.  Resuming from any version at or below
the position of the last stream keeps it current, so it converges through every
kind of failure except one: a re-list that fails is followed by a watch without a
version, which never reports the pods deleted meanwhile.
-/

namespace KernelSeal.Convergence

open KernelSeal.Text
open KernelSeal.Registry
open KernelSeal.Kube
open KernelSeal.Replica
open KernelSeal.Transition
open KernelSeal.Transition.System
open KernelSeal.Watch

/-! ## The cache as a replica -/

/-- Only pods with a UID are cached. -/
def HasUID (uid : GoString) : Prop := uid ≠ []

/-- The changes as writes of cache entries. -/
def writes (unicode : Unicode) (log : List Change) : List (Write GoString Pod) :=
  log.map fun change => ⟨change.object.uid, change.result.map (PodObject.toPod unicode)⟩

section Replica

variable {unicode : Unicode} {log : List Change} {watcher : Watcher}

theorem holds_writes (unicode : Unicode) (log : List Change) (uid : GoString) :
    holds (writes unicode log) uid = (current log uid).map (PodObject.toPod unicode) := by
  rw [current, ← holds_map, List.map_map]
  rfl

@[simp]
theorem length_writes : (writes unicode log).length = log.length := List.length_map _

theorem writes_snoc (change : Change) :
    writes unicode (log ++ [change]) = writes unicode log ++
      [⟨change.object.uid, change.result.map (PodObject.toPod unicode)⟩] :=
  List.map_append

theorem getElem?_writes {index : ℕ} {change : Change} (hchange : log[index]? = some change) :
    (writes unicode log)[index]? =
      some ⟨change.object.uid, change.result.map (PodObject.toPod unicode)⟩ := by
  rw [writes, List.getElem?_map, hchange]
  rfl

theorem lookup_put_self (object : PodObject) :
    (watcher.put (object.toPod unicode)).lookup object.uid = some (object.toPod unicode) :=
  Finmap.lookup_insert _

theorem lookup_put_of_ne {object : PodObject} {uid : GoString} (huid : uid ≠ object.uid) :
    (watcher.put (object.toPod unicode)).lookup uid = watcher.lookup uid :=
  Finmap.lookup_insert_of_ne _ huid

/-- An event sets the entry of its pod. -/
theorem lookup_handle_self (change : Change) (huid : change.object.uid ≠ []) :
    (watcher.handle unicode change.event).lookup change.object.uid =
      change.result.map (PodObject.toPod unicode) := by
  obtain ⟨kind, object⟩ := change
  cases kind with
  | added =>
      rw [Watcher.handle_put (Or.inl rfl) huid]
      exact lookup_put_self object
  | modified =>
      rw [Watcher.handle_put (Or.inr rfl) huid]
      exact lookup_put_self object
  | deleted =>
      rw [Watcher.handle_delete rfl huid]
      exact Finmap.lookup_erase _ _

/-- An event leaves the other entries alone. -/
theorem lookup_handle_of_ne (event : WatchEvent) {uid : GoString} (huid : uid ≠ event.object.uid) :
    (watcher.handle unicode event).lookup uid = watcher.lookup uid := by
  have hput : (if event.object.uid ≠ [] then watcher.put (event.object.toPod unicode)
      else watcher).lookup uid = watcher.lookup uid := by
    split
    · exact lookup_put_of_ne huid
    · rfl
  have hdelete : (watcher.delete event.object.uid).lookup uid = watcher.lookup uid := by
    rw [Watcher.delete]
    split
    · rfl
    · exact Finmap.lookup_erase_ne huid
  cases htype : event.type with
  | added => simpa only [Watcher.handle, htype] using hput
  | modified => simpa only [Watcher.handle, htype] using hput
  | deleted => simpa only [Watcher.handle, htype] using hdelete
  | bookmark => simp only [Watcher.handle, htype]
  | error => simp only [Watcher.handle, htype]
  | other => simp only [Watcher.handle, htype]

theorem lookup_addItems_of_not_mem {items : List PodObject} {pods : PodMap} {uid : GoString}
    (hitems : ∀ item ∈ items, item.uid ≠ uid) :
    (items.foldl (addItem unicode) pods).lookup uid = pods.lookup uid := by
  induction items generalizing pods with
  | nil => rfl
  | cons item items ih =>
      obtain ⟨hitem, hrest⟩ := List.forall_mem_cons.1 hitems
      rw [List.foldl_cons, ih hrest, addItem]
      split
      · rfl
      · exact Finmap.lookup_insert_of_ne _ (Ne.symm hitem)

theorem lookup_addItems_of_mem {items : List PodObject} {pods : PodMap} {object : PodObject}
    (huid : object.uid ≠ []) (hobject : object ∈ items)
    (hunique : ∀ item ∈ items, item.uid = object.uid → item = object) :
    (items.foldl (addItem unicode) pods).lookup object.uid = some (object.toPod unicode) := by
  induction items generalizing pods with
  | nil => exact absurd hobject List.not_mem_nil
  | cons item items ih =>
      obtain ⟨hitem, hrest⟩ := List.forall_mem_cons.1 hunique
      by_cases hmem : object ∈ items
      · exact ih hmem hrest
      · have hsame : object = item := (List.mem_cons.1 hobject).resolve_right hmem
        subst hsame
        rw [List.foldl_cons, lookup_addItems_of_not_mem, addItem, if_neg huid]
        · exact Finmap.lookup_insert _
        · intro other hother heq
          exact hmem (hrest other hother heq ▸ hother)

/-- The server's pod with a UID was put there by a change. -/
theorem exists_of_current {uid : GoString} {object : PodObject}
    (hcurrent : current log uid = some object) :
    ∃ change ∈ log, change.object = object ∧ object.uid = uid := by
  obtain ⟨write, hwrite, hkey, hvalue⟩ := exists_of_holds hcurrent
  obtain ⟨change, hchange, rfl⟩ := List.mem_map.1 hwrite
  obtain ⟨kind, held⟩ := change
  cases kind with
  | added =>
      cases hvalue
      exact ⟨_, hchange, rfl, hkey⟩
  | modified =>
      cases hvalue
      exact ⟨_, hchange, rfl, hkey⟩
  | deleted => cases hvalue

/-- A list response makes the cache the server's pods. -/
theorem lookup_list (watcher : Watcher) {items : List PodObject} (hlists : Lists log items)
    {uid : GoString} (huid : uid ≠ []) :
    (watcher.list unicode items).lookup uid = holds (writes unicode log) uid := by
  rw [holds_writes, Watcher.lookup, Watcher.list]
  cases hcurrent : current log uid with
  | none =>
      rw [lookup_addItems_of_not_mem, Finmap.lookup_empty]
      · rfl
      · intro item hitem hsame
        have hheld := hlists.1 item hitem (hsame ▸ huid)
        rw [hsame, hcurrent] at hheld
        cases hheld
  | some object =>
      obtain ⟨change, hchange, rfl, rfl⟩ := exists_of_current hcurrent
      have hobject : change.object ∈ items := hlists.2 change hchange huid _ hcurrent
      refine lookup_addItems_of_mem huid hobject fun item hitem hsame => ?_
      have hheld := hlists.1 item hitem (hsame ▸ huid)
      rw [hsame, hcurrent, Option.some.injEq] at hheld
      exact hheld.symm

end Replica

/-! ## Convergence -/

/-- A change carries the version it was stored under. -/
def Stamped (versions : Versions) (log : List Change) : Prop :=
  ∀ (index : ℕ) (change : Change), log[index]? = some change →
    change.object.resourceVersion = versions.text (index + 1)

theorem Stamped.commit {versions : Versions} {state : State}
    (hstamped : Stamped versions state.log) (change : Change) :
    Stamped versions (state.commit versions change).log := by
  intro index stored hstored
  rw [State.commit, List.getElem?_append] at hstored
  split at hstored
  · exact hstamped index stored hstored
  · next hindex =>
      rw [List.getElem?_singleton] at hstored
      split at hstored
      · next hlast =>
          cases hstored
          have hlength : index = state.log.length := by omega
          rw [hlength]
      · cases hstored

/-- The client resumes from versions that exist, at or below the position of its
stream, and the cache is current from there on. -/
inductive Follows (unicode : Unicode) (versions : Versions) (log : List Change)
    (watcher : Watcher) : Phase → Prop
  | starting : Follows unicode versions log watcher .starting
  | relisting : Follows unicode versions log watcher .relisting
  | stopped : Follows unicode versions log watcher .stopped
  | idle (version : ℕ) (hversion : version ≤ log.length)
      (hcurrent : CurrentFrom HasUID (writes unicode log) version watcher.lookup) :
      Follows unicode versions log watcher (.idle (versions.text version))
  | streaming (resumed seen position : ℕ) (hresumed : resumed ≤ position)
      (hseen : seen ≤ position) (hposition : position ≤ log.length)
      (hcurrent : CurrentFrom HasUID (writes unicode log) position watcher.lookup) :
      Follows unicode versions log watcher
        (.streaming (versions.text resumed) (versions.text seen) ⟨[], position⟩)

/-- The re-list after an expired watch fails. -/
def relistFails (state : State) (action : Action) : Bool :=
  match state.phase, action with
  | .relisting, .listFailed => true
  | _, _ => false

/-- No re-list fails. -/
def Relists (state : State) (action : Action) : Prop := relistFails state action = false

instance (state : State) : DecidablePred (Relists state) := fun _ =>
  inferInstanceAs (Decidable (_ = _))

section Follows

variable {unicode : Unicode} {versions : Versions} {log : List Change} {watcher : Watcher}
  {phase : Phase}

theorem Follows.snoc (hfollows : Follows unicode versions log watcher phase) (change : Change) :
    Follows unicode versions (log ++ [change]) watcher phase := by
  have hgrow {version : ℕ} (hversion : version ≤ log.length) :
      version ≤ (log ++ [change]).length := by
    rw [List.length_append]
    omega
  have hcurrent {version : ℕ} (hversion : version ≤ log.length)
      (hcurrent : CurrentFrom HasUID (writes unicode log) version watcher.lookup) :
      CurrentFrom HasUID (writes unicode (log ++ [change])) version watcher.lookup := by
    rw [writes_snoc]
    exact hcurrent.snoc (by rwa [length_writes]) _
  cases hfollows with
  | starting => exact .starting
  | relisting => exact .relisting
  | stopped => exact .stopped
  | idle version hversion hbefore =>
      exact .idle version (hgrow hversion) (hcurrent hversion hbefore)
  | streaming resumed seen position hresumed hseen hposition hbefore =>
      exact .streaming resumed seen position hresumed hseen (hgrow hposition)
        (hcurrent hposition hbefore)

theorem Follows.listed {state : State} {items : List PodObject} (hlists : Lists state.log items) :
    Follows unicode versions state.log (state.listed unicode versions items).watcher
      (.idle (versions.text state.log.length)) :=
  .idle state.log.length le_rfl
    (currentFrom_snapshot fun _ huid => lookup_list state.watcher hlists huid)

/-- The end of a stream, or of a request, leads to a version that is resumed. -/
theorem Follows.afterWatch {resumed next : ℕ} {position : ℕ} (hresumed : resumed ≤ position)
    (hnext : next ≤ position) (hposition : position ≤ log.length)
    (hcurrent : CurrentFrom HasUID (writes unicode log) position watcher.lookup)
    (err : Option WatchError) :
    Follows unicode versions log watcher
      (Watch.afterWatch (versions.text resumed) (versions.text next) err) := by
  cases err with
  | none => exact .idle next (hnext.trans hposition) (hcurrent.rewind hnext)
  | some err =>
      by_cases hexpired : isExpired err = true
      · simp only [Watch.afterWatch, hexpired, if_true]
        exact .relisting
      · simp only [Watch.afterWatch, hexpired, Bool.false_eq_true, if_false,
          if_neg (versions.text_ne_nil resumed)]
        exact .idle resumed (hresumed.trans hposition) (hcurrent.rewind hresumed)

/-- An expired watch is re-listed. -/
theorem Follows.expired (resumed next : GoString) :
    Follows unicode versions log watcher
      (Watch.afterWatch resumed next (some .watchExpired)) :=
  .relisting

theorem Follows.deliver {resumed seen position : ℕ} {change : Change}
    (hresumed : resumed ≤ position) (hstamped : Stamped versions log)
    (hcurrent : CurrentFrom HasUID (writes unicode log) position watcher.lookup)
    (hchange : log[position]? = some change) :
    Follows unicode versions log (watcher.handle unicode change.event)
      (.streaming (versions.text resumed)
        (if change.event.object.resourceVersion ≠ [] then change.event.object.resourceVersion
          else versions.text seen) ⟨[], position + 1⟩) := by
  obtain ⟨hposition, _⟩ := List.getElem?_eq_some_iff.1 hchange
  have hversion : change.event.object.resourceVersion = versions.text (position + 1) :=
    hstamped position change hchange
  rw [hversion, if_pos (versions.text_ne_nil _)]
  refine .streaming resumed (position + 1) (position + 1) (by omega) le_rfl hposition ?_
  exact hcurrent.deliver (getElem?_writes hchange) (lookup_handle_self change)
    fun uid huid => lookup_handle_of_ne change.event huid

end Follows

/-- The invariant of runs in which no re-list fails. -/
structure Converging (unicode : Unicode) (versions : Versions) (state : State) : Prop where
  stamped : Stamped versions state.log
  keyed : WellKeyed state.watcher.byUID
  follows : Follows unicode versions state.log state.watcher state.phase

section Converging

variable {unicode : Unicode} {versions : Versions} {state next : State} {action : Action}

theorem Converging.step (hconverging : Converging unicode versions state)
    (hrelists : Relists state action) (hstepped : Stepped unicode versions state action next) :
    Converging unicode versions next := by
  obtain ⟨hstamped, hkeyed, hfollows⟩ := hconverging
  cases hstepped with
  | commit change hadmissible =>
      exact ⟨hstamped.commit change, hkeyed, hfollows.snoc _⟩
  | listed items hphase hlists =>
      exact ⟨hstamped, wellKeyed_list items wellKeyed_empty, Follows.listed hlists⟩
  | startFailed hphase => exact ⟨hstamped, hkeyed, .stopped⟩
  | relistFailed hphase =>
      simp [Relists, relistFails, hphase] at hrelists
  | opened version hphase hversion =>
      refine ⟨hstamped, hkeyed, ?_⟩
      rw [hphase] at hfollows
      generalize htext : versions.text version = text at hfollows
      cases hfollows with
      | idle resumed hresumed hcurrent =>
          have hsame : version = resumed := versions.text_injective htext
          subst hsame
          exact .streaming version version version le_rfl le_rfl hversion hcurrent
  | openedFresh items hphase hlists =>
      rw [hphase] at hfollows
      generalize htext : ([] : GoString) = text at hfollows
      cases hfollows with
      | idle resumed hresumed hcurrent => exact absurd htext.symm (versions.text_ne_nil resumed)
  | refused err resourceVersion hphase =>
      refine ⟨hstamped, hkeyed, ?_⟩
      rw [hphase] at hfollows
      cases hfollows with
      | idle version hversion hcurrent =>
          exact Follows.afterWatch le_rfl le_rfl hversion hcurrent (some err)
  | existing resumed resourceVersion object pending position hphase =>
      rw [hphase] at hfollows
      cases hfollows
  | deliver resumed resourceVersion position change hphase hchange =>
      refine ⟨hstamped, hkeyed.handle change.event, ?_⟩
      rw [hphase] at hfollows
      cases hfollows with
      | streaming resumed seen position hresumed hseen hposition hcurrent =>
          exact Follows.deliver hresumed hstamped hcurrent hchange
  | bookmark resumed resourceVersion position hphase =>
      refine ⟨hstamped, hkeyed, ?_⟩
      rw [hphase] at hfollows
      cases hfollows with
      | streaming resumed seen position hresumed hseen hposition hcurrent =>
          exact .streaming resumed position position hresumed le_rfl hposition hcurrent
  | errorEvent object resumed resourceVersion seen stream hphase =>
      exact ⟨hstamped, hkeyed, Follows.expired resumed seen⟩
  | closed resumed resourceVersion stream hphase =>
      refine ⟨hstamped, hkeyed, ?_⟩
      rw [hphase] at hfollows
      cases hfollows with
      | streaming resumed seen position hresumed hseen hposition hcurrent =>
          exact Follows.afterWatch hresumed hseen hposition hcurrent none
  | broken resumed resourceVersion stream hphase =>
      refine ⟨hstamped, hkeyed, ?_⟩
      rw [hphase] at hfollows
      cases hfollows with
      | streaming resumed seen position hresumed hseen hposition hcurrent =>
          exact Follows.afterWatch hresumed hseen hposition hcurrent (some .other)

theorem converging_of_reachable (hstate : Reachable (watch unicode versions) Relists state) :
    Converging unicode versions state := by
  have hinit : Converging unicode versions (watch unicode versions).init :=
    ⟨nofun, wellKeyed_empty, .starting⟩
  refine hstate.invariant hinit ?_
  intro state action next _ hconverging hrelists hstep
  exact hconverging.step hrelists (stepped_of_step hstep)

end Converging

/-- The current stream has delivered everything up to the head of the log. -/
def CaughtUp (state : State) : Prop :=
  match state.phase with
  | .streaming _ _ stream => stream.pending = [] ∧ stream.position = state.log.length
  | _ => False

instance : DecidablePred CaughtUp := fun state =>
  match hphase : state.phase with
  | .streaming _ _ stream => decidable_of_iff
      (stream.pending = [] ∧ stream.position = state.log.length) (by simp [CaughtUp, hphase])
  | .starting => isFalse (by simp [CaughtUp, hphase])
  | .idle _ => isFalse (by simp [CaughtUp, hphase])
  | .relisting => isFalse (by simp [CaughtUp, hphase])
  | .stopped => isFalse (by simp [CaughtUp, hphase])

/-- The entry that a UID should have. -/
def expected (unicode : Unicode) (log : List Change) (uid : GoString) : Option Pod :=
  if uid = [] then none else (current log uid).map (PodObject.toPod unicode)

/-- In every run in which no re-list fails, whenever a stream has delivered all
changes, the cache holds exactly the server's pods with a UID. -/
theorem cache_converges (unicode : Unicode) (versions : Versions) (state : State)
    (hstate : Reachable (watch unicode versions) Relists state) (hcaught : CaughtUp state)
    (uid : GoString) : state.watcher.lookup uid = expected unicode state.log uid := by
  have hconverging := converging_of_reachable hstate
  rw [expected]
  by_cases huid : uid = []
  · subst huid
    rw [if_pos rfl]
    by_contra hpod
    obtain ⟨pod, hpod⟩ := Option.ne_none_iff_exists'.1 hpod
    exact hconverging.keyed.ne_nil [] pod hpod rfl
  · rw [if_neg huid, ← holds_writes]
    have hfollows := hconverging.follows
    rw [CaughtUp] at hcaught
    generalize state.phase = phase at hfollows hcaught
    cases hfollows with
    | streaming resumed seen position hresumed hseen hposition hcurrent =>
        have hhead : position = (writes unicode state.log).length := by
          rw [length_writes]
          exact hcaught.2
        rw [hhead] at hcurrent
        exact hcurrent.eq_holds huid
    | starting => exact absurd hcaught id
    | relisting => exact absurd hcaught id
    | stopped => exact absurd hcaught id
    | idle version hversion hcurrent => exact absurd hcaught id

/-! ## A re-list that fails -/

/-- Versions written in unary. -/
def unary : Versions where
  text version := List.replicate (version + 1) 49
  text_injective left right htext := by
    have hlength := congrArg List.length htext
    simpa using hlength
  text_ne_nil version := List.cons_ne_nil _ _

/-- A pod of namespace `payments` with these labels. -/
def podObject (resourceVersion : GoString) (labels : StringMap) : PodObject where
  uid := str "u1"
  name := str "checkout"
  namespaceName := str "payments"
  labels := labels
  resourceVersion := resourceVersion

/-- The pod is added, listed and modified, and the modification is delivered. -/
def following : List Action :=
  [.commit ⟨.added, podObject [] ∅⟩, .listed [podObject (unary.text 1) ∅], .opened 1,
    .commit ⟨.modified, podObject [] (Finmap.singleton (str "tier") (str "prod"))⟩, .deliver]

def followedState : State :=
  ((watch Unicode.ascii unary).replay Relists (watch Unicode.ascii unary).init following).get
    (by decide +kernel)

theorem modification_cached :
    CaughtUp followedState ∧ followedState.watcher.lookup (str "u1") =
      expected Unicode.ascii followedState.log (str "u1") := by
  have hstate : Reachable (watch Unicode.ascii unary) Relists followedState :=
    reachable_of_replay .init (Option.some_get _).symm
  have hcaught : CaughtUp followedState := by
    decide +kernel
  exact ⟨hcaught, cache_converges Unicode.ascii unary followedState hstate hcaught (str "u1")⟩

/-- The pod is deleted while the client cannot list, and the watch without a version
does not report it. -/
theorem deleted_pod_remains :
    ∃ state, Reachable (watch Unicode.ascii unary) Unrestricted state ∧
      (CaughtUp state ∧ expected Unicode.ascii state.log (str "u1") = none ∧
        (state.watcher.lookup (str "u1")).isSome = true) :=
  exists_reachable
    [.commit ⟨.added, podObject [] ∅⟩, .listed [podObject (unary.text 1) ∅],
      .refused (.apiError 410), .listFailed, .commit ⟨.deleted, podObject [] ∅⟩, .openedFresh []]
    (by decide +kernel)

end KernelSeal.Convergence

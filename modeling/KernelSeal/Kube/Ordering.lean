import KernelSeal.Kube.Convergence

/-!
# The order of the states a cache shows

Each entry of the cache is a state of the server's log.  As long as a stream is
resumed from the last version it delivered, the version that is shown of a UID
never decreases, and a pod whose deletion was applied does not come back.  A stream
that ends with a read error is resumed from the version it started from instead,
which shows older states again.
-/

namespace KernelSeal.Ordering

open KernelSeal.Text
open KernelSeal.Registry
open KernelSeal.Kube
open KernelSeal.Replica
open KernelSeal.Transition
open KernelSeal.Transition.System
open KernelSeal.Watch
open KernelSeal.Convergence

/-! ## Deletions are final -/

/-- The UID of a deleted pod does not occur again. -/
def DeletesOnce (log : List Change) : Prop :=
  ∀ (index : ℕ) (change : Change), log[index]? = some change → change.kind = .deleted →
    change.object.uid ≠ [] →
      ∀ later ∈ log.drop (index + 1), later.object.uid ≠ change.object.uid

section Deletion

variable {unicode : Unicode} {log : List Change} {index : ℕ} {change : Change}

/-- After its deletion a pod is gone at every version. -/
theorem DeletesOnce.current_take (honce : DeletesOnce log) (hchange : log[index]? = some change)
    (hkind : change.kind = .deleted) (huid : change.object.uid ≠ []) {version : ℕ}
    (hversion : index < version) : current (log.take version) change.object.uid = none := by
  have hwrite : (log.map fun change => (⟨change.object.uid, change.result⟩ :
      Write GoString PodObject))[index]? = some ⟨change.object.uid, none⟩ := by
    rw [List.getElem?_map, hchange, Option.map_some, Change.result, hkind]
  have hquiet : Quiet (log.map fun change => (⟨change.object.uid, change.result⟩ :
      Write GoString PodObject)) (index + 1) change.object.uid := by
    intro write hwrite
    rw [← List.map_drop] at hwrite
    obtain ⟨later, hlater, rfl⟩ := List.mem_map.1 hwrite
    exact honce index change hchange hkind huid later hlater
  rw [current, List.map_take, holds_take_eq hquiet hversion, take_succ_eq hwrite]
  exact holds_snoc_self _ ⟨change.object.uid, none⟩

/-- Nothing that the server accepts concerns a deleted pod. -/
theorem DeletesOnce.uid_ne {new : Change} (honce : DeletesOnce log)
    (hadmissible : Admissible log new) (hchange : log[index]? = some change)
    (hkind : change.kind = .deleted) (huid : change.object.uid ≠ []) :
    new.object.uid ≠ change.object.uid := by
  intro hsame
  obtain ⟨hindex, _⟩ := List.getElem?_eq_some_iff.1 hchange
  have hgone := honce.current_take hchange hkind huid hindex
  rw [List.take_length] at hgone
  have hrule := hadmissible (hsame ▸ huid)
  obtain ⟨kind, object⟩ := new
  cases kind with
  | added => exact hrule change (List.mem_of_getElem? hchange) hsame.symm
  | modified =>
      replace hrule : (current log object.uid).isSome = true := hrule
      rw [show object.uid = change.object.uid from hsame, hgone] at hrule
      cases hrule
  | deleted =>
      replace hrule : (current log object.uid).isSome = true := hrule
      rw [show object.uid = change.object.uid from hsame, hgone] at hrule
      cases hrule

theorem DeletesOnce.snoc {new stored : Change} (honce : DeletesOnce log)
    (hadmissible : Admissible log new) (hstored : stored.object.uid = new.object.uid) :
    DeletesOnce (log ++ [stored]) := by
  intro index change hchange hkind huid later hlater
  by_cases hindex : index < log.length
  · rw [List.getElem?_append_left hindex] at hchange
    rw [List.drop_append_of_le_length hindex] at hlater
    rcases List.mem_append.1 hlater with hlater | hlater
    · exact honce index change hchange hkind huid later hlater
    · rw [List.mem_singleton.1 hlater, hstored]
      exact honce.uid_ne hadmissible hchange hkind huid
  · rw [List.drop_eq_nil_of_le (by rw [List.length_append, List.length_singleton]; omega)] at hlater
    exact absurd hlater List.not_mem_nil

end Deletion

/-! ## Versions shown -/

/-- Nothing newer than the version that will be resumed is shown. -/
inductive Ordered (versions : Versions) (log : List Change) (shown : GoString → ℕ) : Phase → Prop
  | starting (hshown : ∀ uid, shown uid ≤ log.length) : Ordered versions log shown .starting
  | relisting (hshown : ∀ uid, shown uid ≤ log.length) : Ordered versions log shown .relisting
  | stopped (hshown : ∀ uid, shown uid ≤ log.length) : Ordered versions log shown .stopped
  | idle (version : ℕ) (hversion : version ≤ log.length) (hshown : ∀ uid, shown uid ≤ version) :
      Ordered versions log shown (.idle (versions.text version))
  | streaming (resumed position : ℕ) (hposition : position ≤ log.length)
      (hshown : ∀ uid, shown uid ≤ position) :
      Ordered versions log shown
        (.streaming (versions.text resumed) (versions.text position) ⟨[], position⟩)

/-- A stream that delivered a newer version than it was opened with ends with a read
or decode error. -/
def discards (state : State) (action : Action) : Bool :=
  match state.phase, action with
  | .streaming resumed resourceVersion _, .broken => resourceVersion ≠ resumed
  | _, _ => false

/-- No re-list fails and no stream that delivered something ends with an error other
than expiry. -/
def Careful (state : State) (action : Action) : Prop :=
  relistFails state action = false ∧ discards state action = false

instance (state : State) : DecidablePred (Careful state) := fun _ =>
  inferInstanceAs (Decidable (_ ∧ _))

/-- The invariant of such runs. -/
structure Ascending (unicode : Unicode) (versions : Versions) (state : State) : Prop where
  stamped : Stamped versions state.log
  once : DeletesOnce state.log
  shows : ShowsAt HasUID (writes unicode state.log) state.shown state.watcher.lookup
  ordered : Ordered versions state.log state.shown state.phase

section Ascending

variable {unicode : Unicode} {versions : Versions} {log : List Change} {shown : GoString → ℕ}
  {phase : Phase} {state next : State} {action : Action}

theorem Ordered.shown_le (hordered : Ordered versions log shown phase) (uid : GoString) :
    shown uid ≤ log.length := by
  cases hordered with
  | starting hshown => exact hshown uid
  | relisting hshown => exact hshown uid
  | stopped hshown => exact hshown uid
  | idle version hversion hshown => exact (hshown uid).trans hversion
  | streaming resumed position hposition hshown => exact (hshown uid).trans hposition

theorem Ordered.snoc (hordered : Ordered versions log shown phase) (change : Change) :
    Ordered versions (log ++ [change]) shown phase := by
  have hgrow {version : ℕ} (hversion : version ≤ log.length) :
      version ≤ (log ++ [change]).length := by
    rw [List.length_append]
    omega
  cases hordered with
  | starting hshown => exact .starting fun uid => hgrow (hshown uid)
  | relisting hshown => exact .relisting fun uid => hgrow (hshown uid)
  | stopped hshown => exact .stopped fun uid => hgrow (hshown uid)
  | idle version hversion hshown => exact .idle version (hgrow hversion) hshown
  | streaming resumed position hposition hshown =>
      exact .streaming resumed position (hgrow hposition) hshown

/-- Resuming from the last version delivered, or re-listing. -/
theorem Ordered.afterWatch {version : ℕ} (hversion : version ≤ log.length)
    (hshown : ∀ uid, shown uid ≤ version) (err : Option WatchError) :
    Ordered versions log shown
      (Watch.afterWatch (versions.text version) (versions.text version) err) := by
  cases err with
  | none => exact .idle version hversion hshown
  | some err =>
      by_cases hexpired : isExpired err = true
      · simp only [Watch.afterWatch, hexpired, if_true]
        exact .relisting fun uid => (hshown uid).trans hversion
      · simp only [Watch.afterWatch, hexpired, Bool.false_eq_true, if_false,
          if_neg (versions.text_ne_nil version)]
        exact .idle version hversion hshown

theorem update_le {position : ℕ} (hshown : ∀ uid, shown uid ≤ position) (changed uid : GoString) :
    Function.update shown changed (position + 1) uid ≤ position + 1 := by
  by_cases huid : uid = changed
  · rw [huid, Function.update_self]
  · rw [Function.update_of_ne huid]
    exact (hshown uid).trans (Nat.le_succ position)

theorem Ascending.step (hascending : Ascending unicode versions state)
    (hcareful : Careful state action) (hstepped : Stepped unicode versions state action next) :
    Ascending unicode versions next := by
  obtain ⟨hstamped, honce, hshows, hordered⟩ := hascending
  cases hstepped with
  | commit change hadmissible =>
      refine ⟨hstamped.commit change, honce.snoc hadmissible rfl, ?_, hordered.snoc _⟩
      rw [State.commit, writes_snoc]
      exact hshows.snoc (fun uid => by rw [length_writes]; exact hordered.shown_le uid) _
  | listed items hphase hlists =>
      refine ⟨hstamped, honce, ?_, .idle _ le_rfl fun _ => le_rfl⟩
      have hsnapshot : ∀ uid, HasUID uid →
          (state.listed unicode versions items).watcher.lookup uid =
            holds (writes unicode state.log) uid :=
        fun uid huid => lookup_list state.watcher hlists huid
      rw [State.listed, ← length_writes]
      exact showsAt_snapshot hsnapshot
  | startFailed hphase => exact ⟨hstamped, honce, hshows, .stopped hordered.shown_le⟩
  | relistFailed hphase =>
      simp [Careful, relistFails, hphase] at hcareful
  | opened version hphase hversion =>
      refine ⟨hstamped, honce, hshows, ?_⟩
      rw [hphase] at hordered
      generalize htext : versions.text version = text at hordered
      cases hordered with
      | idle resumed hresumed hshown =>
          have hsame : version = resumed := versions.text_injective htext
          subst hsame
          exact .streaming version version hversion hshown
  | openedFresh items hphase hlists =>
      rw [hphase] at hordered
      generalize htext : ([] : GoString) = text at hordered
      cases hordered with
      | idle version hversion hshown => exact absurd htext.symm (versions.text_ne_nil version)
  | refused err resourceVersion hphase =>
      refine ⟨hstamped, honce, hshows, ?_⟩
      rw [hphase] at hordered
      cases hordered with
      | idle version hversion hshown => exact Ordered.afterWatch hversion hshown (some err)
  | existing resumed resourceVersion object pending position hphase =>
      rw [hphase] at hordered
      cases hordered
  | deliver resumed resourceVersion position change hphase hchange =>
      rw [hphase] at hordered
      cases hordered with
      | streaming resumed position hposition hshown =>
          refine ⟨hstamped, honce, ?_, ?_⟩
          · exact hshows.deliver (getElem?_writes hchange) (lookup_handle_self change)
              fun uid huid => lookup_handle_of_ne change.event huid
          · obtain ⟨hhead, _⟩ := List.getElem?_eq_some_iff.1 hchange
            have hversion : change.event.object.resourceVersion = versions.text (position + 1) :=
              hstamped position change hchange
            rw [State.receive, hversion, if_pos (versions.text_ne_nil _)]
            exact .streaming resumed (position + 1) hhead (update_le hshown _)
  | bookmark resumed resourceVersion position hphase =>
      refine ⟨hstamped, honce, hshows, ?_⟩
      rw [hphase] at hordered
      cases hordered with
      | streaming resumed position hposition hshown =>
          exact .streaming resumed position hposition hshown
  | errorEvent object resumed resourceVersion seen stream hphase =>
      exact ⟨hstamped, honce, hshows, .relisting hordered.shown_le⟩
  | closed resumed resourceVersion stream hphase =>
      refine ⟨hstamped, honce, hshows, ?_⟩
      rw [hphase] at hordered
      cases hordered with
      | streaming resumed position hposition hshown => exact .idle position hposition hshown
  | broken resumed resourceVersion stream hphase =>
      refine ⟨hstamped, honce, hshows, ?_⟩
      have hkept : resourceVersion = resumed := by
        simpa [Careful, relistFails, discards, hphase] using hcareful
      rw [hphase] at hordered
      cases hordered with
      | streaming resumed position hposition hshown =>
          rw [← hkept]
          exact Ordered.afterWatch hposition hshown (some .other)

theorem ascending_of_reachable (hstate : Reachable (watch unicode versions) Careful state) :
    Ascending unicode versions state := by
  have hinit : Ascending unicode versions (watch unicode versions).init :=
    ⟨nofun, nofun, fun _ _ => Finmap.lookup_empty _, .starting fun _ => le_rfl⟩
  refine hstate.invariant hinit ?_
  intro state action next _ hascending hcareful hstep
  exact hascending.step hcareful (stepped_of_step hstep)

/-- No step shows an older version of a UID. -/
theorem Ascending.shown_le (hascending : Ascending unicode versions state)
    (hstepped : Stepped unicode versions state action next) (uid : GoString) :
    state.shown uid ≤ next.shown uid := by
  have hordered := hascending.ordered
  cases hstepped with
  | listed items hphase hlists => exact hordered.shown_le uid
  | existing resumed resourceVersion object pending position hphase =>
      rw [hphase] at hordered
      cases hordered
  | deliver resumed resourceVersion position change hphase hchange =>
      rw [hphase] at hordered
      cases hordered with
      | streaming resumed position hposition hshown =>
          change state.shown uid ≤
            Function.update state.shown change.event.object.uid (position + 1) uid
          by_cases huid : uid = change.event.object.uid
          · rw [huid, Function.update_self]
            exact (hshown _).trans (Nat.le_succ position)
          · rw [Function.update_of_ne huid]
  | _ => exact le_rfl

/-- A stream that ends otherwise than by expiry is resumed from the last version it
delivered. -/
theorem Ascending.resumes (hascending : Ascending unicode versions state)
    (hcareful : Careful state action) (hstepped : Stepped unicode versions state action next)
    {resumed resourceVersion again : GoString} {stream : Stream}
    (hphase : state.phase = .streaming resumed resourceVersion stream)
    (hnext : next.phase = .idle again) : again = versions.text stream.position := by
  have hordered := hascending.ordered
  rw [hphase] at hordered
  cases hordered with
  | streaming resumed position hposition hshown =>
      cases hstepped with
      | commit change hadmissible =>
          rw [State.commit, hphase] at hnext
          cases hnext
      | listed items hother hlists =>
          rcases hother with hother | hother
          · rw [hphase] at hother
            cases hother
          · rw [hphase] at hother
            cases hother
      | closed other seen following hother =>
          rw [hphase] at hother
          cases hother
          cases hnext
          rfl
      | broken other seen following hother =>
          have hkept : seen = other := by
            simpa [Careful, relistFails, discards, hother] using hcareful
          rw [hphase] at hother
          cases hother
          rw [← hkept, Watch.afterWatch, isExpired] at hnext
          simp only [Bool.false_eq_true, if_false, if_neg (versions.text_ne_nil position)] at hnext
          cases hnext
          rfl
      | errorEvent object other seen given following hother => cases hnext
      | deliver other seen place change hother hchange => cases hnext
      | existing other seen object pending place hother => cases hnext
      | bookmark other seen place hother => cases hnext
      | startFailed hother => cases hnext
      | relistFailed hother =>
          rw [hphase] at hother
          cases hother
      | opened version hother hversion => cases hnext
      | openedFresh items hother hlists => cases hnext
      | refused err seen hother =>
          rw [hphase] at hother
          cases hother

end Ascending

/-- In every run in which no re-list fails and no stream that delivered something ends
with a read error: every entry is a state of the server, the version shown never
decreases, a pod whose deletion was applied is absent, and a stream is resumed from
the last version it delivered. -/
theorem cache_never_regresses (unicode : Unicode) (versions : Versions) (state : State)
    (hstate : Reachable (watch unicode versions) Careful state) :
    (∀ uid, uid ≠ [] → state.watcher.lookup uid =
      (current (state.log.take (state.shown uid)) uid).map (PodObject.toPod unicode)) ∧
    (∀ (index : ℕ) (change : Change), state.log[index]? = some change →
      change.kind = .deleted → change.object.uid ≠ [] → index < state.shown change.object.uid →
      state.watcher.lookup change.object.uid = none) ∧
    (∀ action next, Careful state action → (watch unicode versions).step state action = some next →
      (∀ uid, state.shown uid ≤ next.shown uid) ∧
      ∀ resumed resourceVersion stream again,
        state.phase = .streaming resumed resourceVersion stream → next.phase = .idle again →
        again = versions.text stream.position) := by
  have hascending := ascending_of_reachable hstate
  have hshows : ∀ uid, uid ≠ [] → state.watcher.lookup uid =
      (current (state.log.take (state.shown uid)) uid).map (PodObject.toPod unicode) := by
    intro uid huid
    rw [hascending.shows uid huid, writes, ← List.map_take]
    exact holds_writes unicode _ uid
  refine ⟨hshows, ?_, ?_⟩
  · intro index change hchange hkind huid hshown
    rw [hshows _ huid, hascending.once.current_take hchange hkind huid hshown]
    rfl
  · intro action next hcareful hstep
    have hstepped := stepped_of_step hstep
    exact ⟨hascending.shown_le hstepped, fun resumed resourceVersion stream again hphase hnext =>
      hascending.resumes hcareful hstepped hphase hnext⟩

/-! ## A stream that ends with a read error -/

/-- The pod is modified and deleted, and both changes are delivered. -/
def removing : List Action :=
  [.commit ⟨.added, podObject [] ∅⟩, .listed [podObject (unary.text 1) ∅], .opened 1,
    .commit ⟨.modified, podObject [] (Finmap.singleton (str "tier") (str "prod"))⟩, .deliver,
    .commit ⟨.deleted, podObject [] ∅⟩, .deliver]

def removedState : State :=
  ((watch Unicode.ascii unary).replay Careful (watch Unicode.ascii unary).init removing).get
    (by decide +kernel)

theorem reachable_removedState :
    Reachable (watch Unicode.ascii unary) Careful removedState :=
  reachable_of_replay .init (Option.some_get _).symm

theorem deletion_applied :
    removedState.log[2]?.map Change.kind = some .deleted ∧
      removedState.watcher.lookup (str "u1") = none := by
  have hdeleted : removedState.log[2]? = some ⟨.deleted, podObject (unary.text 3) ∅⟩ := by
    decide +kernel
  refine ⟨by rw [hdeleted]; rfl, ?_⟩
  exact (cache_never_regresses Unicode.ascii unary removedState reachable_removedState).2.1 2 _
    hdeleted rfl (by decide) (by decide +kernel)

/-- After a read error the stream is resumed from where it was opened, and the deleted
pod is cached again. -/
theorem deleted_pod_returns :
    Reachable (watch Unicode.ascii unary) Careful removedState ∧
    removedState.watcher.lookup (str "u1") = none ∧
    ∃ state, Reachable { watch Unicode.ascii unary with init := removedState } Unrestricted state ∧
      ((state.watcher.lookup (str "u1")).isSome = true ∧
        state.shown (str "u1") < removedState.shown (str "u1")) :=
  ⟨reachable_removedState, by decide +kernel,
    exists_reachable [.broken, .opened 1, .deliver] (by decide +kernel)⟩

end KernelSeal.Ordering

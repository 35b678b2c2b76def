import KernelSeal.Kube.Backoff
import KernelSeal.Kube.Convergence

/-!
# The watch program and the watch system

`Start` and `watchLoop` of `internal/kube` are modelled twice: as the program that makes
requests and waits, and as the client in a system with the API server.  This file runs the
program against that server.  The caches that the calls of the program leave are those
of the system, with the same log of changes at the server and with a failed re-list on
one side for each on the other.
-/

namespace KernelSeal.Refinement

open KernelSeal.Text
open KernelSeal.Kube
open KernelSeal.Watch
open KernelSeal.Backoff
open KernelSeal.Convergence (relistFails Relists)
open KernelSeal.Resumption
open KernelSeal.Resumption.Prog
open KernelSeal.Transition
open KernelSeal.Transition.System

/-! ## The program -/

/-- `Start` and the loop that it leaves running. -/
def start (unicode : Unicode) (rounds : ℕ) : Program :=
  call Op.relist fun listed =>
    match listed with
    | .error _ => ret ()
    | .ok (resourceVersion, items) =>
        watchLoop unicode rounds
          ⟨{ ({} : Watcher).list unicode items with synced := true }, resourceVersion, minBackoff⟩

/-- What an answered call does to the cache.  The first list of a run is that of
`Start`, which marks the cache as synced; the later ones find it so. -/
def absorb (unicode : Unicode) (watcher : Watcher) : Step → Watcher
  | ⟨.watch resourceVersion, response⟩ =>
      (watchOnce unicode watcher resourceVersion response).watcher
  | ⟨.relist, .ok (_, items)⟩ => { watcher.list unicode items with synced := true }
  | _ => watcher

/-- The cache that a run of the program leaves. -/
def cacheAfter (unicode : Unicode) (watcher : Watcher) (calls : List Step) : Watcher :=
  calls.foldl (absorb unicode) watcher

/-! ## The server -/

section Server

variable (versions : Versions)

/-- The log with one more change. -/
def stored (log : List Change) (change : Change) : List Change :=
  log ++ [{ change with object := { change.object with
    resourceVersion := versions.text (log.length + 1) } }]

/-- The server takes changes of its own. -/
inductive Grows (log : List Change) : List Change → Prop
  | refl : Grows log log
  | commit {later : List Change} {change : Change} (hgrows : Grows log later)
      (hadmissible : Admissible later change) : Grows log (stored versions later change)

/-- The streams that a watch from a version, or without one, opens. -/
inductive Opens (log : List Change) : GoString → Stream → Prop
  | resumed (version : ℕ) (hversion : version ≤ log.length) :
      Opens log (versions.text version) { position := version }
  | fresh (items : List PodObject) (hlists : Lists log items) :
      Opens log [] { pending := items, position := log.length }

/-- What is sent on a stream while the log grows, and what is left to send. -/
inductive Streamed (opened : List Change) (stream : Stream) :
    List WatchEvent → List Change → Stream → Prop
  | nil : Streamed opened stream [] opened stream
  | commit {events : List WatchEvent} {log : List Change} {left : Stream} {change : Change}
      (hstreamed : Streamed opened stream events log left) (hadmissible : Admissible log change) :
      Streamed opened stream events (stored versions log change) left
  | existing {events : List WatchEvent} {log : List Change} {object : PodObject}
      {pending : List PodObject} {position : ℕ}
      (hstreamed : Streamed opened stream events log ⟨object :: pending, position⟩) :
      Streamed opened stream (events ++ [⟨.added, object⟩]) log ⟨pending, position⟩
  | deliver {events : List WatchEvent} {log : List Change} {position : ℕ} {change : Change}
      (hstreamed : Streamed opened stream events log ⟨[], position⟩)
      (hchange : log[position]? = some change) :
      Streamed opened stream (events ++ [change.event]) log ⟨[], position + 1⟩
  | bookmark {events : List WatchEvent} {log : List Change} {position : ℕ} {object : PodObject}
      (hstreamed : Streamed opened stream events log ⟨[], position⟩)
      (hversion : object.resourceVersion = versions.text position) :
      Streamed opened stream (events ++ [⟨.bookmark, object⟩]) log ⟨[], position⟩

/-- The response to a watch.  Anything may come after an event of type `ERROR`, which
nobody reads. -/
inductive Responds (log : List Change) (resourceVersion : GoString) :
    Except WatchError Body → List Change → Prop
  | refused (err : WatchError) : Responds log resourceVersion (.error err) log
  | ended {stream left : Stream} {events : List WatchEvent} {later : List Change}
      (hopens : Opens versions log resourceVersion stream)
      (hstreamed : Streamed versions log stream events later left) (ending : Ending) :
      Responds log resourceVersion (.ok ⟨events, ending⟩) later
  | failed {stream left : Stream} {events : List WatchEvent} {later : List Change}
      (hopens : Opens versions log resourceVersion stream)
      (hstreamed : Streamed versions log stream events later left) (object : PodObject)
      (rest : List WatchEvent) (ending : Ending) :
      Responds log resourceVersion (.ok ⟨events ++ ⟨.error, object⟩ :: rest, ending⟩) later

/-- One call and its answer, between two logs. -/
def Replies (log : List Change) : Step → List Change → Prop
  | ⟨.ctxErr, _⟩, later => later = log
  | ⟨.sleepCtx _, _⟩, later => later = log
  | ⟨.watch resourceVersion, response⟩, later =>
      Responds versions log resourceVersion response later
  | ⟨.relist, .error _⟩, later => later = log
  | ⟨.relist, .ok (resourceVersion, items)⟩, later =>
      resourceVersion = versions.text log.length ∧ Lists log items ∧ later = log

/-- The calls of a run, answered by the server. -/
inductive Answered : List Change → List Step → List Change → Prop
  | nil {log later : List Change} (hgrows : Grows versions log later) : Answered log [] later
  | cons {log grown later final : List Change} {step : Step} {calls : List Step}
      (hgrows : Grows versions log grown) (hreplies : Replies versions grown step later)
      (hrest : Answered later calls final) : Answered log (step :: calls) final

end Server

variable {unicode : Unicode} {versions : Versions}

theorem Grows.trans {log later final : List Change} (hgrows : Grows versions log later)
    (hrest : Grows versions later final) : Grows versions log final := by
  induction hrest with
  | refl => exact hgrows
  | commit _ hadmissible ih => exact .commit ih hadmissible

theorem Answered.commit {log later : List Change} {calls : List Step} {change : Change}
    (hanswered : Answered versions log calls later) (hadmissible : Admissible later change) :
    Answered versions log calls (stored versions later change) := by
  induction hanswered with
  | nil hgrows => exact .nil (.commit hgrows hadmissible)
  | cons hgrows hreplies _ ih => exact .cons hgrows hreplies (ih hadmissible)

theorem Answered.snoc {log later final : List Change} {calls : List Step} {step : Step}
    (hanswered : Answered versions log calls later) (hreplies : Replies versions later step final) :
    Answered versions log (calls ++ [step]) final := by
  induction hanswered with
  | nil hgrows => exact .cons hgrows hreplies (.nil .refl)
  | cons hgrows hfirst _ ih => exact .cons hgrows hfirst (ih hreplies)

/-! ## Events of a body -/

/-- The version that `watchOnce` has seen after an event. -/
def seen (resourceVersion : GoString) (event : WatchEvent) : GoString :=
  if event.object.resourceVersion ≠ [] then event.object.resourceVersion else resourceVersion

/-- Events that do not end the loop of `watchOnce` are applied in order. -/
theorem readBody_append {ending : Ending} {events : List WatchEvent}
    (hevents : ∀ event ∈ events, event.type ≠ .error) (rest : List WatchEvent)
    (resourceVersion : GoString) (watcher : Watcher) :
    readBody unicode ending (events ++ rest) resourceVersion watcher =
      readBody unicode ending rest (events.foldl seen resourceVersion)
        (events.foldl (Watcher.handle unicode) watcher) := by
  induction events generalizing resourceVersion watcher with
  | nil => rfl
  | cons event events ih =>
      obtain ⟨hevent, hevents⟩ := List.forall_mem_cons.1 hevents
      rw [List.cons_append, readBody, if_neg hevent]
      exact ih hevents _ _

theorem event_type_ne (change : Change) : change.event.type ≠ .error := by
  obtain ⟨kind, object⟩ := change
  cases kind <;> intro htype <;> cases htype

theorem Streamed.type_ne {opened log : List Change} {stream left : Stream}
    {events : List WatchEvent} (hstreamed : Streamed versions opened stream events log left) :
    ∀ event ∈ events, event.type ≠ .error := by
  have hsnoc {events : List WatchEvent} {last : WatchEvent}
      (hevents : ∀ event ∈ events, event.type ≠ .error) (hlast : last.type ≠ .error) :
      ∀ event ∈ events ++ [last], event.type ≠ .error := by
    intro event hevent
    rcases List.mem_append.1 hevent with hevent | hevent
    · exact hevents event hevent
    · rw [List.mem_singleton.1 hevent]
      exact hlast
  induction hstreamed with
  | nil => exact List.forall_mem_nil _
  | commit _ _ ih => exact ih
  | existing _ ih => exact hsnoc ih EventType.noConfusion
  | deliver _ _ ih => exact hsnoc ih (event_type_ne _)
  | bookmark _ _ ih => exact hsnoc ih EventType.noConfusion

/-- A bookmark sets the version and nothing else. -/
theorem seen_bookmark {object : PodObject} {position : ℕ}
    (hversion : object.resourceVersion = versions.text position) (resourceVersion : GoString) :
    seen resourceVersion ⟨.bookmark, object⟩ = versions.text position := by
  rw [seen, hversion, if_pos (versions.text_ne_nil position)]

section Ends

variable {opened log : List Change} {stream left : Stream} {events : List WatchEvent}

/-- What `watchOnce` makes of a stream that ended. -/
theorem watchOnce_ended (hstreamed : Streamed versions opened stream events log left)
    (ending : Ending) (watcher : Watcher) (resourceVersion : GoString) :
    watchOnce unicode watcher resourceVersion (.ok ⟨events, ending⟩) =
      ⟨events.foldl (Watcher.handle unicode) watcher, events.foldl seen resourceVersion,
        ending.error⟩ := by
  have hread : readBody unicode ending (events ++ []) resourceVersion watcher = _ :=
    readBody_append hstreamed.type_ne [] resourceVersion watcher
  rw [List.append_nil] at hread
  exact hread

/-- What it makes of an event of type `ERROR` on it. -/
theorem watchOnce_failed (hstreamed : Streamed versions opened stream events log left)
    (object : PodObject) (rest : List WatchEvent) (ending : Ending) (watcher : Watcher)
    (resourceVersion : GoString) :
    watchOnce unicode watcher resourceVersion
        (.ok ⟨events ++ ⟨.error, object⟩ :: rest, ending⟩) =
      ⟨events.foldl (Watcher.handle unicode) watcher,
        seen (events.foldl seen resourceVersion) ⟨.error, object⟩, some .watchExpired⟩ := by
  rw [watchOnce, readBody_append hstreamed.type_ne]
  rfl

end Ends

/-! ## The system follows the program -/

/-- Unless re-lists may fail, none does. -/
def Permits (mayFail : Bool) (state : State) (action : Action) : Prop :=
  mayFail = true ∨ Relists state action

/-- The answer is that of a list that failed. -/
def failedList : Step → Bool
  | ⟨.relist, .error _⟩ => true
  | _ => false

/-- Unless lists may fail, none of the run does. -/
def Undisturbed (mayFail : Bool) (calls : List Step) : Prop :=
  mayFail = true ∨ ∀ call ∈ calls, failedList call = false

/-- The system has a state with this log and this cache. -/
def Simulated (unicode : Unicode) (versions : Versions) (mayFail : Bool) (log : List Change)
    (watcher : Watcher) : Prop :=
  ∃ state, Reachable (watch unicode versions) (Permits mayFail) state ∧ state.log = log ∧
    state.watcher = watcher

section Follows

variable {mayFail : Bool} {state : State}

theorem Undisturbed.tail {call : Step} {calls : List Step}
    (hundisturbed : Undisturbed mayFail (call :: calls)) : Undisturbed mayFail calls :=
  hundisturbed.imp_right fun hcalls => (List.forall_mem_cons.1 hcalls).2

theorem relists_of_ne {action : Action} (haction : action ≠ .listFailed) :
    Relists state action := by
  unfold Relists relistFails
  split
  · exact absurd rfl haction
  · rfl

/-- A step that is no failed list. -/
theorem reachable_step {next : State} (action : Action)
    (hstate : Reachable (watch unicode versions) (Permits mayFail) state)
    (haction : action ≠ .listFailed)
    (hstep : Watch.step unicode versions state action = some next) :
    Reachable (watch unicode versions) (Permits mayFail) next :=
  hstate.tail (Or.inr (relists_of_ne haction)) hstep

theorem reachable_grown (hstate : Reachable (watch unicode versions) (Permits mayFail) state)
    {log : List Change} (hgrows : Grows versions state.log log) :
    Reachable (watch unicode versions) (Permits mayFail) { state with log := log } := by
  induction hgrows with
  | refl => exact hstate
  | @commit later change _ hadmissible ih =>
      exact reachable_step (.commit change) ih Watch.Action.noConfusion (if_pos hadmissible)

/-- An event that the system delivers is one more that the program will read. -/
theorem reachable_received {resumed resourceVersion : GoString} {left : Stream}
    {events : List WatchEvent} {watcher : Watcher}
    (hstate : Reachable (watch unicode versions) (Permits mayFail) state)
    (hwatcher : state.watcher = events.foldl (Watcher.handle unicode) watcher)
    (event : WatchEvent) (version : ℕ)
    (hstep : Watch.step unicode versions state .deliver =
      some (state.receive unicode resumed (events.foldl seen resourceVersion) event left version)) :
    ∃ next, Reachable (watch unicode versions) (Permits mayFail) next ∧ next.log = state.log ∧
      next.watcher = (events ++ [event]).foldl (Watcher.handle unicode) watcher ∧
      next.phase = .streaming resumed ((events ++ [event]).foldl seen resourceVersion) left := by
  refine ⟨_, reachable_step .deliver hstate Watch.Action.noConfusion hstep, rfl, ?_, ?_⟩
  · rw [List.foldl_concat, ← hwatcher]
    rfl
  · rw [List.foldl_concat]
    rfl

/-- The system delivers what the server streams. -/
theorem reachable_streamed {resumed resourceVersion : GoString} {stream left : Stream}
    {events : List WatchEvent} {log : List Change}
    (hstate : Reachable (watch unicode versions) (Permits mayFail) state)
    (hphase : state.phase = .streaming resumed resourceVersion stream)
    (hstreamed : Streamed versions state.log stream events log left) :
    ∃ next, Reachable (watch unicode versions) (Permits mayFail) next ∧ next.log = log ∧
      next.watcher = events.foldl (Watcher.handle unicode) state.watcher ∧
      next.phase = .streaming resumed (events.foldl seen resourceVersion) left := by
  induction hstreamed with
  | nil => exact ⟨state, hstate, rfl, rfl, hphase⟩
  | @commit events log left change _ hadmissible ih =>
      obtain ⟨next, hnext, rfl, hwatcher, hphase⟩ := ih
      have hcommitted :=
        reachable_step (.commit change) hnext Watch.Action.noConfusion (if_pos hadmissible)
      exact ⟨_, hcommitted, rfl, hwatcher, hphase⟩
  | @existing events log object pending position _ ih =>
      obtain ⟨next, hnext, rfl, hwatcher, hphase⟩ := ih
      refine reachable_received hnext hwatcher ⟨.added, object⟩ position ?_
      simp only [Watch.step, hphase]
  | @deliver events log position change _ hchange ih =>
      obtain ⟨next, hnext, rfl, hwatcher, hphase⟩ := ih
      refine reachable_received hnext hwatcher change.event (position + 1) ?_
      simp only [Watch.step, hphase, hchange]
  | @bookmark events log position object _ hversion ih =>
      obtain ⟨next, hnext, hlog, hwatcher, hphase⟩ := ih
      have hstep : Watch.step unicode versions next .bookmark =
          some { next with
            phase := .streaming resumed (versions.text position) ⟨[], position⟩ } := by
        simp only [Watch.step, hphase]
      refine ⟨_, reachable_step .bookmark hnext Watch.Action.noConfusion hstep, hlog, ?_, ?_⟩
      · rw [List.foldl_concat, ← hwatcher]
        rfl
      · rw [List.foldl_concat, seen_bookmark hversion]

/-- A stream that the server opens is opened in the system. -/
theorem reachable_opened {resourceVersion : GoString} {stream : Stream}
    (hstate : Reachable (watch unicode versions) (Permits mayFail) state)
    (hphase : state.phase = .idle resourceVersion)
    (hopens : Opens versions state.log resourceVersion stream) :
    Reachable (watch unicode versions) (Permits mayFail)
      { state with phase := .streaming resourceVersion resourceVersion stream } := by
  cases hopens with
  | resumed version hversion =>
      refine reachable_step (.opened version) hstate Watch.Action.noConfusion ?_
      simp only [Watch.step, hphase]
      exact if_pos ⟨versions.text_ne_nil version, trivial, hversion⟩
  | fresh items hlists =>
      refine reachable_step (.openedFresh items) hstate Watch.Action.noConfusion ?_
      simp only [Watch.step, hphase]
      exact if_pos ⟨trivial, hlists⟩

/-- One watch of the program is a stretch of the system that ends where the switch of
`watchLoop` goes on. -/
theorem reachable_watched {resourceVersion : GoString} {response : Except WatchError Body}
    {log : List Change} (hstate : Reachable (watch unicode versions) (Permits mayFail) state)
    (hphase : state.phase = .idle resourceVersion)
    (hresponds : Responds versions state.log resourceVersion response log) :
    ∃ next, Reachable (watch unicode versions) (Permits mayFail) next ∧ next.log = log ∧
      next.watcher = (watchOnce unicode state.watcher resourceVersion response).watcher ∧
      next.phase = afterWatch resourceVersion
        (watchOnce unicode state.watcher resourceVersion response).next
        (watchOnce unicode state.watcher resourceVersion response).err := by
  cases hresponds with
  | refused err =>
      refine ⟨{ state with phase := afterWatch resourceVersion resourceVersion (some err) },
        reachable_step (.refused err) hstate Watch.Action.noConfusion ?_, rfl, rfl, rfl⟩
      simp only [Watch.step, hphase]
  | @ended stream left events log hopens hstreamed ending =>
      obtain ⟨next, hnext, hlog, hwatcher, hphase⟩ :=
        reachable_streamed (reachable_opened hstate hphase hopens) rfl hstreamed
      rw [watchOnce_ended hstreamed]
      refine ⟨{ next with
        phase := afterWatch resourceVersion (events.foldl seen resourceVersion) ending.error },
        ?_, hlog, hwatcher, rfl⟩
      cases ending with
      | eof | unexpectedEOF =>
          refine reachable_step .closed hnext Watch.Action.noConfusion ?_
          simp only [Watch.step, hphase, Ending.error]
      | undecodable =>
          refine reachable_step .broken hnext Watch.Action.noConfusion ?_
          simp only [Watch.step, hphase, Ending.error]
  | @failed stream left events log hopens hstreamed object rest ending =>
      obtain ⟨next, hnext, hlog, hwatcher, hphase⟩ :=
        reachable_streamed (reachable_opened hstate hphase hopens) rfl hstreamed
      rw [watchOnce_failed hstreamed]
      refine ⟨{ next with
        phase := afterWatch resourceVersion
          (seen (events.foldl seen resourceVersion) ⟨.error, object⟩) (some .watchExpired) },
        reachable_step (.errorEvent object) hnext Watch.Action.noConfusion ?_, hlog, hwatcher, rfl⟩
      simp only [Watch.step, hphase]
      rfl

/-! ### Runs of the loop -/

theorem synced_handle (watcher : Watcher) (event : WatchEvent) :
    (watcher.handle unicode event).synced = watcher.synced := by
  obtain ⟨type, object⟩ := event
  cases type with
  | added | modified =>
      rw [Watcher.handle]
      dsimp only
      split <;> rfl
  | deleted =>
      rw [Watcher.handle]
      dsimp only
      rw [Watcher.delete]
      split <;> rfl
  | _ => rfl

theorem synced_watchOnce (watcher : Watcher) (resourceVersion : GoString)
    (response : Except WatchError Body) :
    (watchOnce unicode watcher resourceVersion response).watcher.synced = watcher.synced := by
  cases response with
  | error err => rfl
  | ok body =>
      obtain ⟨events, ending⟩ := body
      rw [watchOnce]
      induction events generalizing watcher resourceVersion with
      | nil => rfl
      | cons event events ih =>
          rw [readBody]
          split
          · rfl
          · rw [ih, synced_handle]

/-- Once the cache is synced, a re-list keeps it so. -/
theorem list_of_synced {watcher : Watcher} (hsynced : watcher.synced = true)
    (items : List PodObject) :
    { watcher.list unicode items with synced := true } = watcher.list unicode items := by
  rw [Watcher.list, hsynced]

theorem Answered.grown {log grown final : List Change} {calls : List Step}
    (hgrows : Grows versions log grown) (hanswered : Answered versions grown calls final) :
    Answered versions log calls final := by
  cases hanswered with
  | nil hlater => exact .nil (hgrows.trans hlater)
  | cons hlater hreplies hrest => exact .cons (hgrows.trans hlater) hreplies hrest

/-- A call that the server does not see, such as one to the context or to the clock. -/
theorem Answered.tail_of_unseen {log final : List Change} {step : Step} {calls : List Step}
    (hunseen : ∀ {grown later}, Replies versions grown step later → later = grown)
    (hanswered : Answered versions log (step :: calls) final) :
    Answered versions log calls final := by
  cases hanswered with
  | cons hgrows hreplies hrest =>
      cases hunseen hreplies
      exact hrest.grown hgrows

/-- The system follows a part of the program from the states in which the loop stands at
its beginning. -/
def Followed (unicode : Unicode) (versions : Versions) (mayFail : Bool)
    (next : Loop → Program) : Prop :=
  ∀ (loop : Loop) (state : State) (calls : List Step) (final : Program) (log : List Change),
    Reachable (watch unicode versions) (Permits mayFail) state →
    state.phase = .idle loop.resourceVersion → state.watcher = loop.watcher →
    loop.watcher.synced = true → Path (next loop) calls final →
    Answered versions state.log calls log → Undisturbed mayFail calls →
    Simulated unicode versions mayFail log (cacheAfter unicode loop.watcher calls)

variable {next : Loop → Program} {calls : List Step} {final : Program} {log : List Change}

/-- A run that makes no more calls leaves the cache as it is. -/
theorem simulated_nil (hstate : Reachable (watch unicode versions) (Permits mayFail) state)
    {watcher : Watcher} (hwatcher : state.watcher = watcher)
    (hanswered : Answered versions state.log [] log) :
    Simulated unicode versions mayFail log watcher := by
  cases hanswered with
  | nil hgrows => exact ⟨_, reachable_grown hstate hgrows, rfl, hwatcher⟩

theorem simulated_relist (hnext : Followed unicode versions mayFail next)
    (hstate : Reachable (watch unicode versions) (Permits mayFail) state)
    (hphase : state.phase = .relisting) (hsynced : state.watcher.synced = true) {backoff : ℕ}
    (hpath : Path (relistIfNeeded unicode next state.watcher [] backoff) calls final)
    (hanswered : Answered versions state.log calls log) (hundisturbed : Undisturbed mayFail calls) :
    Simulated unicode versions mayFail log (cacheAfter unicode state.watcher calls) := by
  rw [relistIfNeeded, if_pos rfl] at hpath
  rcases path_call_iff.1 hpath with ⟨rfl, rfl⟩ | ⟨listed, rest, rfl, hrest⟩
  · exact simulated_nil hstate rfl hanswered
  cases hanswered with
  | @cons _ grown later _ _ _ hgrows hreplies hanswered =>
      have hgrown := reachable_grown hstate hgrows
      cases listed with
      | error err =>
          obtain rfl : later = grown := hreplies
          have hmay : mayFail = true := by
            rcases hundisturbed with hmay | hnone
            · exact hmay
            · exact Bool.noConfusion (hnone _ List.mem_cons_self)
          have hfailed : (watch unicode versions).step { state with log := later } .listFailed =
              some { state with log := later, phase := .idle [] } := by
            simp only [watch, Watch.step, hphase]
          exact hnext ⟨state.watcher, [], backoff⟩ _ rest _ _
            (hgrown.tail (Or.inl hmay) hfailed) rfl rfl hsynced hrest hanswered hundisturbed.tail
      | ok listed =>
          obtain ⟨resourceVersion, items⟩ := listed
          obtain ⟨rfl, hlists, rfl⟩ := hreplies
          have hlisted : Watch.step unicode versions { state with log := later } (.listed items) =
              some (({ state with log := later } : State).listed unicode versions items) := by
            simp only [Watch.step, hphase]
            exact if_pos hlists
          have hstepped := reachable_step (.listed items) hgrown Watch.Action.noConfusion hlisted
          have hcache : cacheAfter unicode state.watcher
              (⟨.relist, .ok (versions.text later.length, items)⟩ :: rest) =
                cacheAfter unicode (state.watcher.list unicode items) rest :=
            congrArg (cacheAfter unicode · rest) (list_of_synced hsynced items)
          rw [hcache]
          exact hnext ⟨state.watcher.list unicode items, versions.text later.length, minBackoff⟩
            _ _ _ _ hstepped rfl (list_of_synced hsynced items) hsynced hrest hanswered
            hundisturbed.tail

/-- After a watch the system is where the program goes on. -/
theorem simulated_afterWatchOnce (hnext : Followed unicode versions mayFail next)
    (hstate : Reachable (watch unicode versions) (Permits mayFail) state) {loop : Loop}
    {watched : Watched} (hphase : state.phase =
      afterWatch loop.resourceVersion watched.next watched.err)
    (hwatcher : state.watcher = watched.watcher) (hsynced : watched.watcher.synced = true)
    (hpath : Path (afterWatchOnce unicode next () loop watched) calls final)
    (hanswered : Answered versions state.log calls log) (hundisturbed : Undisturbed mayFail calls) :
    Simulated unicode versions mayFail log (cacheAfter unicode watched.watcher calls) := by
  rw [afterWatchOnce] at hpath
  cases herr : watched.err with
  | none =>
      rw [herr] at hpath hphase
      exact hnext ⟨watched.watcher, watched.next, minBackoff⟩ _ _ _ _ hstate hphase hwatcher hsynced
        hpath hanswered hundisturbed
  | some err =>
      rw [herr] at hpath hphase
      rcases path_call_iff.1 hpath with ⟨rfl, rfl⟩ | ⟨slept, rest, rfl, hrest⟩
      · exact simulated_nil hstate hwatcher hanswered
      · have hafter := hanswered.tail_of_unseen id
        cases slept with
        | false =>
            obtain ⟨rfl, rfl⟩ := path_ret_iff.1 hrest
            exact simulated_nil hstate hwatcher hafter
        | true =>
            rw [if_pos rfl] at hrest
            by_cases hempty : (if isExpired err then [] else loop.resourceVersion) = []
            · have hrelisting : state.phase = .relisting := by
                simp only [hphase, afterWatch, hempty, if_true]
              rw [hempty, ← hwatcher] at hrest
              rw [← hwatcher] at hsynced ⊢
              change Simulated unicode versions mayFail log (cacheAfter unicode state.watcher rest)
              exact simulated_relist hnext hstate hrelisting hsynced hrest hafter hundisturbed.tail
            · have hidle : state.phase =
                  .idle (if isExpired err then [] else loop.resourceVersion) := by
                simp only [hphase, afterWatch, hempty, if_false]
              rw [relistIfNeeded, if_neg hempty] at hrest
              exact hnext _ _ _ _ _ hstate hidle hwatcher hsynced hrest hafter hundisturbed.tail

/-- The system follows `watchLoop`. -/
theorem followed_watchLoop (rounds : ℕ) :
    Followed unicode versions mayFail (watchLoop unicode rounds) := by
  induction rounds with
  | zero =>
      intro loop state calls final log hstate hphase hwatcher hsynced hpath hanswered hundisturbed
      obtain ⟨rfl, rfl⟩ := path_ret_iff.1 hpath
      exact simulated_nil hstate hwatcher hanswered
  | succ rounds ih =>
      intro loop state calls final log hstate hphase hwatcher hsynced hpath hanswered hundisturbed
      rcases path_call_iff.1 hpath with ⟨rfl, rfl⟩ | ⟨ended, rest, rfl, hwatch⟩
      · exact simulated_nil hstate hwatcher hanswered
      have hasked := hanswered.tail_of_unseen id
      cases ended with
      | true =>
          obtain ⟨rfl, rfl⟩ := path_ret_iff.1 hwatch
          exact simulated_nil hstate hwatcher hasked
      | false =>
          rcases path_call_iff.1 hwatch with ⟨rfl, rfl⟩ | ⟨response, rest, rfl, hcheck⟩
          · exact simulated_nil hstate hwatcher hasked
          cases hasked with
          | cons hgrows hresponds hrest =>
              obtain ⟨next, hnext, rfl, hcache, hafter⟩ :=
                reachable_watched (reachable_grown hstate hgrows) hphase hresponds
              rw [hwatcher] at hcache hafter
              have hkept : (watchOnce unicode loop.watcher loop.resourceVersion
                  response).watcher.synced = true := (synced_watchOnce _ _ _).trans hsynced
              rcases path_call_iff.1 hcheck with ⟨rfl, rfl⟩ | ⟨ended, rest, rfl, hswitch⟩
              · exact simulated_nil hnext hcache hrest
              · have hchecked := hrest.tail_of_unseen id
                cases ended with
                | true =>
                    obtain ⟨rfl, rfl⟩ := path_ret_iff.1 hswitch
                    exact simulated_nil hnext hcache hchecked
                | false =>
                    change Simulated unicode versions mayFail log (cacheAfter unicode
                      (watchOnce unicode loop.watcher loop.resourceVersion response).watcher rest)
                    exact simulated_afterWatchOnce ih hnext hafter hcache hkept hswitch
                      hchecked hundisturbed.tail.tail.tail

theorem simulated_of_path {rounds : ℕ} (hpath : Path (start unicode rounds) calls final)
    (hanswered : Answered versions [] calls log) (hundisturbed : Undisturbed mayFail calls) :
    Simulated unicode versions mayFail log (cacheAfter unicode {} calls) := by
  have hinit : Reachable (watch unicode versions) (Permits mayFail) {} := .init
  rcases path_call_iff.1 hpath with ⟨rfl, rfl⟩ | ⟨listed, rest, rfl, hrest⟩
  · exact simulated_nil hinit rfl hanswered
  cases hanswered with
  | @cons _ grown later _ _ _ hgrows hreplies hanswered =>
      have hgrown := reachable_grown hinit hgrows
      cases listed with
      | error err =>
          obtain rfl : later = grown := hreplies
          obtain ⟨rfl, rfl⟩ := path_ret_iff.1 hrest
          exact simulated_nil hgrown rfl hanswered
      | ok listed =>
          obtain ⟨resourceVersion, items⟩ := listed
          obtain ⟨rfl, hlists, rfl⟩ := hreplies
          have hlisted : Watch.step unicode versions { log := later } (.listed items) =
              some (({ log := later } : State).listed unicode versions items) := if_pos hlists
          have hstepped := reachable_step (.listed items) hgrown Watch.Action.noConfusion hlisted
          exact followed_watchLoop rounds _ _ _ _ _ hstepped rfl rfl rfl hrest hanswered
            hundisturbed.tail

end Follows

/-! ## The program follows the system -/

/-- A run of the program comes to this point, with this log and this cache. -/
def Reaches (unicode : Unicode) (versions : Versions) (mayFail : Bool) (log : List Change)
    (watcher : Watcher) (program : Program) : Prop :=
  ∃ rounds calls, Path (start unicode rounds) calls program ∧ Answered versions [] calls log ∧
    Undisturbed mayFail calls ∧ cacheAfter unicode {} calls = watcher

section Reaches

variable {mayFail : Bool} {log later : List Change} {watcher : Watcher} {program : Program}

theorem Reaches.commit (hreaches : Reaches unicode versions mayFail log watcher program)
    {change : Change} (hadmissible : Admissible log change) :
    Reaches unicode versions mayFail (stored versions log change) watcher program := by
  obtain ⟨rounds, calls, hpath, hanswered, hundisturbed, hcache⟩ := hreaches
  exact ⟨rounds, calls, hpath, hanswered.commit hadmissible, hundisturbed, hcache⟩

/-- The server answers the pending call. -/
theorem Reaches.call {op : Op} {next : op.Ans → Program}
    (hreaches : Reaches unicode versions mayFail log watcher (Prog.call op next))
    (answer : op.Ans) (hreplies : Replies versions log ⟨op, answer⟩ later)
    (hlisted : mayFail = true ∨ failedList ⟨op, answer⟩ = false) :
    Reaches unicode versions mayFail later (absorb unicode watcher ⟨op, answer⟩) (next answer) := by
  obtain ⟨rounds, calls, hpath, hanswered, hundisturbed, rfl⟩ := hreaches
  refine ⟨rounds, calls ++ [⟨op, answer⟩], hpath.snoc answer, hanswered.snoc hreplies, ?_, ?_⟩
  · rcases hundisturbed with hmay | hnone
    · exact Or.inl hmay
    · refine hlisted.imp_right fun hlisted => ?_
      rw [List.forall_mem_append]
      exact ⟨hnone, List.forall_mem_singleton.2 hlisted⟩
  · exact List.foldl_concat _ _ _ _

end Reaches

/-- The program can stand at the beginning of a round, with any number of rounds left. -/
def Loops (unicode : Unicode) (versions : Versions) (mayFail : Bool) (log : List Change)
    (watcher : Watcher) (resourceVersion : GoString) : Prop :=
  watcher.synced = true ∧ ∀ rounds, ∃ backoff, Reaches unicode versions mayFail log watcher
    (watchLoop unicode rounds ⟨watcher, resourceVersion, backoff⟩)

/-- Where the program is, for each phase of the system.  A stream that is being read is a
watch that the program has not been answered yet. -/
inductive Matched (unicode : Unicode) (versions : Versions) (mayFail : Bool) (log : List Change) :
    Watcher → Phase → Prop
  | starting (hstart : ∀ rounds, Reaches unicode versions mayFail log {} (start unicode rounds)) :
      Matched unicode versions mayFail log {} .starting
  | stopped (hstart : ∀ rounds, Reaches unicode versions mayFail log {} (start unicode rounds)) :
      Matched unicode versions mayFail log {} .stopped
  | idle {watcher : Watcher} {resourceVersion : GoString}
      (hloops : Loops unicode versions mayFail log watcher resourceVersion) :
      Matched unicode versions mayFail log watcher (.idle resourceVersion)
  | relisting {watcher : Watcher} (hsynced : watcher.synced = true)
      (hrelists : ∀ rounds, ∃ backoff, Reaches unicode versions mayFail log watcher
        (relistIfNeeded unicode (watchLoop unicode rounds) watcher [] backoff)) :
      Matched unicode versions mayFail log watcher .relisting
  | streaming {opened : List Change} {watcher : Watcher} {resumed : GoString}
      {stream left : Stream} {events : List WatchEvent}
      (hloops : Loops unicode versions mayFail opened watcher resumed)
      (hopens : Opens versions opened resumed stream)
      (hstreamed : Streamed versions opened stream events log left) :
      Matched unicode versions mayFail log (events.foldl (Watcher.handle unicode) watcher)
        (.streaming resumed (events.foldl seen resumed) left)

section Matched

variable {mayFail : Bool} {log later : List Change} {watcher : Watcher} {phase : Phase}
  {resourceVersion : GoString}

/-- Whatever a watch is answered, the program goes where the system does. -/
theorem Loops.watched (hloops : Loops unicode versions mayFail log watcher resourceVersion)
    {response : Except WatchError Body}
    (hresponds : Responds versions log resourceVersion response later) :
    Matched unicode versions mayFail later
      (watchOnce unicode watcher resourceVersion response).watcher
      (afterWatch resourceVersion (watchOnce unicode watcher resourceVersion response).next
        (watchOnce unicode watcher resourceVersion response).err) := by
  have hsynced : (watchOnce unicode watcher resourceVersion response).watcher.synced = true :=
    (synced_watchOnce _ _ _).trans hloops.1
  have hswitch (rounds : ℕ) : ∃ backoff, Reaches unicode versions mayFail later
      (watchOnce unicode watcher resourceVersion response).watcher
      (afterWatchOnce unicode (watchLoop unicode rounds) () ⟨watcher, resourceVersion, backoff⟩
        (watchOnce unicode watcher resourceVersion response)) := by
    obtain ⟨backoff, hround⟩ := hloops.2 (rounds + 1)
    have hwatch := hround.call false rfl (Or.inr rfl)
    have hcheck := hwatch.call response hresponds (Or.inr rfl)
    exact ⟨backoff, hcheck.call false rfl (Or.inr rfl)⟩
  generalize watchOnce unicode watcher resourceVersion response = watched at hsynced hswitch
  cases herr : watched.err with
  | none =>
      refine .idle ⟨hsynced, fun rounds => ?_⟩
      obtain ⟨backoff, hnext⟩ := hswitch rounds
      simp only [afterWatchOnce, herr] at hnext
      exact ⟨minBackoff, hnext⟩
  | some err =>
      have hslept (rounds : ℕ) : ∃ backoff, Reaches unicode versions mayFail later watched.watcher
          (relistIfNeeded unicode (watchLoop unicode rounds) watched.watcher
            (if isExpired err then [] else resourceVersion) backoff) := by
        obtain ⟨backoff, hnext⟩ := hswitch rounds
        simp only [afterWatchOnce, herr] at hnext
        exact ⟨_, hnext.call true rfl (Or.inr rfl)⟩
      by_cases hempty : (if isExpired err then [] else resourceVersion) = []
      · rw [hempty] at hslept
        simp only [afterWatch, hempty, if_true]
        exact .relisting hsynced hslept
      · simp only [relistIfNeeded, if_neg hempty] at hslept
        simp only [afterWatch, if_neg hempty]
        exact .idle ⟨hsynced, hslept⟩

theorem Matched.commit (hmatched : Matched unicode versions mayFail log watcher phase)
    {change : Change} (hadmissible : Admissible log change) :
    Matched unicode versions mayFail (stored versions log change) watcher phase := by
  cases hmatched with
  | starting hstart => exact .starting fun rounds => (hstart rounds).commit hadmissible
  | stopped hstart => exact .stopped fun rounds => (hstart rounds).commit hadmissible
  | idle hloops =>
      refine .idle ⟨hloops.1, fun rounds => ?_⟩
      obtain ⟨backoff, hround⟩ := hloops.2 rounds
      exact ⟨backoff, hround.commit hadmissible⟩
  | relisting hsynced hrelists =>
      refine .relisting hsynced fun rounds => ?_
      obtain ⟨backoff, hround⟩ := hrelists rounds
      exact ⟨backoff, hround.commit hadmissible⟩
  | streaming hloops hopens hstreamed =>
      exact .streaming hloops hopens (.commit hstreamed hadmissible)

/-- A list that succeeds. -/
theorem Matched.listed {state : State}
    (hmatched : Matched unicode versions mayFail state.log state.watcher state.phase)
    (hphase : state.phase = .starting ∨ state.phase = .relisting) {items : List PodObject}
    (hlists : Lists state.log items) :
    Matched unicode versions mayFail state.log (state.listed unicode versions items).watcher
      (.idle (versions.text state.log.length)) := by
  obtain ⟨log, watcher, phase, shown⟩ := state
  have hreplies : Replies versions log ⟨.relist, .ok (versions.text log.length, items)⟩ log :=
    ⟨rfl, hlists, rfl⟩
  refine .idle ⟨rfl, fun rounds => ⟨minBackoff, ?_⟩⟩
  rcases hphase with rfl | rfl
  · cases hmatched with
    | starting hstart => exact (hstart rounds).call _ hreplies (Or.inr rfl)
  · cases hmatched with
    | relisting hsynced hrelists =>
        obtain ⟨backoff, hround⟩ := hrelists rounds
        have hlisted : Reaches unicode versions mayFail log
            { watcher.list unicode items with synced := true }
            (watchLoop unicode rounds
              ⟨watcher.list unicode items, versions.text log.length, minBackoff⟩) :=
          hround.call _ hreplies (Or.inr rfl)
        rw [← list_of_synced hsynced items] at hlisted
        exact hlisted

/-- A stream that ends. -/
theorem Matched.ended {resumed seenVersion : GoString} {left : Stream}
    (hmatched : Matched unicode versions mayFail log watcher (.streaming resumed seenVersion left))
    (ending : Ending) :
    Matched unicode versions mayFail log watcher
      (afterWatch resumed seenVersion ending.error) := by
  cases hmatched with
  | streaming hloops hopens hstreamed =>
      have hafter := hloops.watched (.ended hopens hstreamed ending)
      rwa [watchOnce_ended hstreamed] at hafter

/-- An event that the program will read. -/
theorem Matched.received {resumed seenVersion : GoString} {stream left : Stream}
    (hmatched : Matched unicode versions mayFail log watcher
      (.streaming resumed seenVersion stream)) (event : WatchEvent)
    (hevent : ∀ {opened : List Change} {first : Stream} {events : List WatchEvent},
      Streamed versions opened first events log stream →
        Streamed versions opened first (events ++ [event]) log left) :
    Matched unicode versions mayFail log (watcher.handle unicode event)
      (.streaming resumed (seen seenVersion event) left) := by
  cases hmatched with
  | @streaming opened before _ _ _ events hloops hopens hstreamed =>
      have hnext : Matched unicode versions mayFail log
          ((events ++ [event]).foldl (Watcher.handle unicode) before)
          (.streaming resumed ((events ++ [event]).foldl seen resumed) left) :=
        .streaming hloops hopens (hevent hstreamed)
      rwa [List.foldl_concat, List.foldl_concat] at hnext

/-- The program keeps up with every step of the system. -/
theorem Matched.step {state next : State} {action : Action}
    (hmatched : Matched unicode versions mayFail state.log state.watcher state.phase)
    (hpermits : Permits mayFail state action)
    (hstepped : Stepped unicode versions state action next) :
    Matched unicode versions mayFail next.log next.watcher next.phase := by
  obtain ⟨log, watcher, phase, shown⟩ := state
  cases hstepped with
  | commit change hadmissible => exact hmatched.commit hadmissible
  | listed items hphase hlists => exact hmatched.listed hphase hlists
  | startFailed hphase =>
      cases hphase
      cases hmatched with
      | starting hstart => exact .stopped hstart
  | relistFailed hphase =>
      cases hphase
      have hmay : mayFail = true := hpermits.resolve_right Bool.noConfusion
      cases hmatched with
      | relisting hsynced hrelists =>
          refine .idle ⟨hsynced, fun rounds => ?_⟩
          obtain ⟨backoff, hround⟩ := hrelists rounds
          exact ⟨backoff, hround.call (.error []) rfl (Or.inl hmay)⟩
  | opened version hphase hversion =>
      cases hphase
      cases hmatched with
      | idle hloops => exact .streaming hloops (.resumed version hversion) .nil
  | openedFresh items hphase hlists =>
      cases hphase
      cases hmatched with
      | idle hloops => exact .streaming hloops (.fresh items hlists) .nil
  | refused err resourceVersion hphase =>
      cases hphase
      cases hmatched with
      | idle hloops => exact hloops.watched (.refused err)
  | existing resumed resourceVersion object pending position hphase =>
      cases hphase
      exact hmatched.received ⟨.added, object⟩ .existing
  | deliver resumed resourceVersion position change hphase hchange =>
      cases hphase
      exact hmatched.received change.event (.deliver · hchange)
  | bookmark resumed resourceVersion position hphase =>
      cases hphase
      have hnext := hmatched.received ⟨.bookmark, { resourceVersion := versions.text position }⟩
        (.bookmark · rfl)
      rwa [seen_bookmark rfl] at hnext
  | errorEvent object resumed resourceVersion seenVersion stream hphase =>
      cases hphase
      cases hmatched with
      | streaming hloops hopens hstreamed =>
          have hafter := hloops.watched (.failed hopens hstreamed object [] .eof)
          rwa [watchOnce_failed hstreamed] at hafter
  | closed resumed resourceVersion stream hphase =>
      cases hphase
      exact hmatched.ended .eof
  | broken resumed resourceVersion stream hphase =>
      cases hphase
      exact hmatched.ended .undecodable

theorem matched_of_reachable {state : State}
    (hstate : Reachable (watch unicode versions) (Permits mayFail) state) :
    Matched unicode versions mayFail state.log state.watcher state.phase := by
  have hstart (rounds : ℕ) : Reaches unicode versions mayFail [] {} (start unicode rounds) :=
    ⟨rounds, [], .nil _, .nil .refl, Or.inr (List.forall_mem_nil _), rfl⟩
  induction hstate with
  | init => exact .starting hstart
  | tail _ hpermits hstep ih => exact ih.step hpermits (stepped_of_step hstep)

theorem Loops.reaches (hloops : Loops unicode versions mayFail log watcher resourceVersion) :
    ∃ program, Reaches unicode versions mayFail log watcher program := by
  obtain ⟨backoff, hround⟩ := hloops.2 0
  exact ⟨_, hround⟩

/-- In whatever phase the system is, the program can have left its cache. -/
theorem Matched.reaches (hmatched : Matched unicode versions mayFail log watcher phase) :
    ∃ program, Reaches unicode versions mayFail log watcher program := by
  cases hmatched with
  | starting hstart => exact ⟨_, hstart 0⟩
  | stopped hstart => exact ⟨_, hstart 0⟩
  | idle hloops => exact hloops.reaches
  | relisting hsynced hrelists =>
      obtain ⟨backoff, hround⟩ := hrelists 0
      exact ⟨_, hround⟩
  | @streaming opened before _ _ _ events hloops hopens hstreamed =>
      -- the stream is cut where the system stands, after the events it has delivered
      have hended := hloops.watched (.ended hopens hstreamed .eof)
      rw [watchOnce_ended hstreamed] at hended
      generalize events.foldl (Watcher.handle unicode) before = watcher at hended ⊢
      cases hended with
      | idle hloops => exact hloops.reaches

end Matched

end KernelSeal.Refinement

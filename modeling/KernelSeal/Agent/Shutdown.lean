import KernelSeal.Agent.System
import KernelSeal.Bpf.Events
import KernelSeal.Kube.Backoff
import KernelSeal.Server.Lifecycle

/-!
# Stopping the agent

After a signal, `main` stops the reconciler, closes the server, stops the BPF manager, which
detaches the hooks, and last the pod watcher.  Meanwhile the goroutines of all of them are
where they are: connections in `handleConn`, the reconciler in a sweep, the readers of the
ring buffers in a handler, the pod watcher in a request or in a wait.  This file puts them
together and determines what is over when the hooks are gone, and that the agent can always
stop.
-/

namespace KernelSeal.Shutdown

open KernelSeal.Text
open KernelSeal.Resumption
open KernelSeal.Resumption.Prog
open KernelSeal.Transition
open KernelSeal.Delivery
open KernelSeal.Agent (ExecEvent handleExecEvent sweep)
open KernelSeal.Events (LSMEvent)
open KernelSeal.Lifecycle (Internal)

/-! ## The reconciler -/

/-- Where the goroutine of `(*Reconciler).Start` is. -/
inductive Sweeper where
  | selecting
  | sweeping (prog : Program (Except GoError ℕ))
  | gone

structure Reconciler where
  stopped : Bool := false
  sweeper : Sweeper := .selecting

/-- What the goroutine does next: take a tick or the closed channel, or go on with its
sweep. -/
inductive SweeperAction where
  | tick
  | stop
  | advance (answers : (op : Op) → op.Ans)
  | swept

/-- The loop of `Start`.  If there is a tick, its `select` may take that although the
channel is closed. -/
def Sweeper.step (stopped : Bool) : Sweeper → SweeperAction → Option Sweeper
  | .selecting, .tick => some (.sweeping sweep)
  | .selecting, .stop => if stopped then some .gone else none
  | .sweeping (.call op next), .advance answers => some (.sweeping (next (answers op)))
  | .sweeping (.ret _), .swept => some .selecting
  | _, _ => none

/-! ## The ring buffers -/

/-- Where `processExecEvents` or `processLSMEvents` is: not started, at its `select`, in
`Read`, in the handler of an event, or over. -/
inductive EventLoop where
  | absent
  | checking
  | reading
  | handling (prog : Program Unit)
  | gone

/-- A ring buffer with its reader, its loop, and the links of the programs that fill it. -/
structure Stream where
  opened : Bool
  attached : Bool
  loop : EventLoop

/-- What there is when `Start` of the manager returns.  The links may be there without a
reader: `LoadLSM` attaches the hooks before it opens the buffer, and `main` logs its
error. -/
def Stream.started (attached reader : Bool) : Stream :=
  ⟨reader, attached, if reader then .checking else .absent⟩

/-- What a loop does next.  A sample that cannot be decoded is read as no event. -/
inductive LoopAction (Event : Type) where
  | check
  | failed
  | read (event : Option Event)
  | closed
  | advance (answers : (op : Op) → op.Ans)
  | handled

/-- The loop of `processExecEvents` and of `processLSMEvents`.  The stop channel may be
closed, and the reader open. -/
def EventLoop.step {Event : Type} (handler : Event → Program Unit) (stopped opened : Bool) :
    EventLoop → LoopAction Event → Option EventLoop
  | .checking, .check => some (if stopped then .gone else .reading)
  | .reading, .failed => if opened then some .checking else none
  | .reading, .read (some event) => if opened then some (.handling (handler event)) else none
  | .reading, .read none => if opened then some .checking else none
  | .reading, .closed => if opened then none else some .gone
  | .handling (.call op next), .advance answers => some (.handling (next (answers op)))
  | .handling (.ret _), .handled => some .checking
  | _, _ => none

/-- The wait group of the manager does not count the loop. -/
def EventLoop.Over : EventLoop → Prop
  | .absent | .gone => True
  | .checking | .reading | .handling _ => False

instance : DecidablePred EventLoop.Over
  | .absent | .gone => isTrue trivial
  | .checking | .reading | .handling _ => isFalse id

/-! ## The pod watcher -/

/-- Where the goroutine of `(*Watcher).Start` is: there is none, in a round of `watchLoop`,
which returns the variables of the next one or nothing, or past `close(w.done)`. -/
inductive WatchLoop where
  | absent
  | running (prog : Prog Backoff.Op Backoff.Op.Ans (Option Backoff.Loop))
  | gone

/-- A pod watcher with its context and its goroutine. -/
structure PodWatcher where
  cancelled : Bool := false
  loop : WatchLoop

/-- A round of `watchLoop` by itself. -/
def watchRound (unicode : Unicode) (loop : Backoff.Loop) :
    Prog Backoff.Op Backoff.Op.Ans (Option Backoff.Loop) :=
  Backoff.round unicode (fun next => ret (some next)) none loop

/-- The goroutine, if `startIdentity` has started a watcher. -/
def WatchLoop.started (unicode : Unicode) : Option Backoff.Loop → WatchLoop
  | none => .absent
  | some loop => .running (watchRound unicode loop)

/-- What the goroutine does next. -/
inductive WatchAction where
  | advance (answers : (op : Backoff.Op) → op.Ans)
  | again
  | done

/-- What the goroutine can be answered.  The context ends when it is cancelled, and then
only is a wait cut short; a request may fail or succeed at any time. -/
def Fits (cancelled : Bool) : (op : Backoff.Op) → op.Ans → Prop
  | .ctxErr, ended => ended = cancelled
  | .sleepCtx _, slept => slept = true ∨ cancelled = true
  | .watch _, _ | .relist, _ => True

instance (cancelled : Bool) : (op : Backoff.Op) → (answer : op.Ans) →
    Decidable (Fits cancelled op answer)
  | .ctxErr, ended => inferInstanceAs (Decidable (ended = cancelled))
  | .sleepCtx _, slept => inferInstanceAs (Decidable (slept = true ∨ cancelled = true))
  | .watch _, _ | .relist, _ => isTrue trivial

/-- The goroutine of `(*Watcher).Start`. -/
def WatchLoop.step (unicode : Unicode) (cancelled : Bool) :
    WatchLoop → WatchAction → Option WatchLoop
  | .running (.call op next), .advance answers =>
      if Fits cancelled op (answers op) then some (.running (next (answers op))) else none
  | .running (.ret (some loop)), .again => some (.running (watchRound unicode loop))
  | .running (.ret none), .done => some .gone
  | _, _ => none

/-- Nothing is to be received from `w.done`, or it is closed. -/
def WatchLoop.Over : WatchLoop → Prop
  | .absent | .gone => True
  | .running _ => False

instance : DecidablePred WatchLoop.Over
  | .absent | .gone => isTrue trivial
  | .running _ => isFalse id

/-! ## `main` -/

structure State where
  pc : ℕ := 0
  server : Lifecycle.State := { wg := 1, acceptor := .accepting }
  reconciler : Reconciler := {}
  stopped : Bool := false
  exec : Stream := .started true true
  lsm : Stream
  timedOut : Bool := false
  watcher : PodWatcher

/-- The end of `main`, with `(*Reconciler).Stop`, `(*Server).Close`, `(*Manager).stop` and
`(*Watcher).Stop` in their places. -/
inductive Statement where
  | awaitSignal
  | stopMetrics
  | stopReconciler
  | awaitReconciler
  | closeServer
  | awaitServer
  | stopManager
  | closeExecReader
  | closeLSMReader
  | awaitLoops
  | detachExec
  | detachLSM
  | cancelWatcher
  | awaitWatcher
  deriving DecidableEq

def statements : List Statement :=
  [.awaitSignal, .stopMetrics, .stopReconciler, .awaitReconciler, .closeServer, .awaitServer,
    .stopManager, .closeExecReader, .closeLSMReader, .awaitLoops, .detachExec, .detachLSM,
    .cancelWatcher, .awaitWatcher]

/-- What a statement does, if it does not block.  `timeout` says that `stop` has waited for
the loops for as long as it does.  The metrics server stops within a timeout of its own. -/
def State.execute (state : State) (timeout : Bool) : Statement → Option State
  | .awaitSignal | .stopMetrics => some state
  | .stopReconciler => some { state with reconciler := { state.reconciler with stopped := true } }
  | .awaitReconciler =>
      match state.reconciler.sweeper with
      | .gone => some state
      | _ => none
  | .closeServer =>
      some { state with
        server := { state.server with closers := state.server.closers ++ [.calling] } }
  | .awaitServer => if .returned ∈ state.server.closers then some state else none
  | .stopManager => some { state with stopped := true }
  | .closeExecReader => some { state with exec := { state.exec with opened := false } }
  | .closeLSMReader => some { state with lsm := { state.lsm with opened := false } }
  | .awaitLoops =>
      if state.exec.loop.Over ∧ state.lsm.loop.Over then some state
      else if timeout then some { state with timedOut := true }
      else none
  | .detachExec => some { state with exec := { state.exec with attached := false } }
  | .detachLSM => some { state with lsm := { state.lsm with attached := false } }
  | .cancelWatcher => some { state with watcher := { state.watcher with cancelled := true } }
  | .awaitWatcher => if state.watcher.loop.Over then some state else none

/-- The steps of `main` and of the goroutines. -/
inductive Action where
  | main (timeout : Bool)
  | server (action : Lifecycle.Action)
  | reconciler (action : SweeperAction)
  | exec (action : LoopAction ExecEvent)
  | lsm (action : LoopAction LSMEvent)
  | watcher (action : WatchAction)

/-- What an agent has when it serves: LSM links, the reader of their ring buffer, and a pod
watcher at the variables of its loop. -/
structure Setup where
  attached : Bool
  reader : Bool
  watched : Option Backoff.Loop

section System

variable (unicode : Unicode) (server : Server)

/-- One step.  `main` alone calls `Serve` and `Close`.  `handleLSMEvent` counts and logs. -/
def step (state : State) : Action → Option State
  | .main timeout =>
      (statements[state.pc]?).bind fun statement =>
        (state.execute timeout statement).map fun next => { next with pc := state.pc + 1 }
  | .server action =>
      if Internal state.server action then
        (Lifecycle.step unicode server state.server action).map fun next =>
          { state with server := next }
      else none
  | .reconciler action =>
      (state.reconciler.sweeper.step state.reconciler.stopped action).map fun next =>
        { state with reconciler := { state.reconciler with sweeper := next } }
  | .exec action =>
      (state.exec.loop.step handleExecEvent state.stopped state.exec.opened action).map fun next =>
        { state with exec := { state.exec with loop := next } }
  | .lsm action =>
      (state.lsm.loop.step (fun _ => ret ()) state.stopped state.lsm.opened action).map fun next =>
        { state with lsm := { state.lsm with loop := next } }
  | .watcher action =>
      (state.watcher.loop.step unicode state.watcher.cancelled action).map fun next =>
        { state with watcher := { state.watcher with loop := next } }

/-- An agent that serves. -/
def shutdown (setup : Setup) : System State Action where
  init :=
    { lsm := .started setup.attached setup.reader
      watcher := { loop := .started unicode setup.watched } }
  step := step unicode server

end System

/-! ## What no step undoes -/

/-- What a statement has done. -/
def Statement.Done (state : State) : Statement → Prop
  | .awaitSignal | .stopMetrics => True
  | .stopReconciler => state.reconciler.stopped = true
  | .awaitReconciler => state.reconciler.sweeper = .gone
  | .closeServer => state.server.closers ≠ []
  | .awaitServer => .returned ∈ state.server.closers
  | .stopManager => state.stopped = true
  | .closeExecReader => state.exec.opened = false
  | .closeLSMReader => state.lsm.opened = false
  | .awaitLoops => state.timedOut = true ∨ (state.exec.loop.Over ∧ state.lsm.loop.Over)
  | .detachExec => state.exec.attached = false
  | .detachLSM => state.lsm.attached = false
  | .cancelWatcher => state.watcher.cancelled = true
  | .awaitWatcher => state.watcher.loop.Over

def State.Executed (state : State) (statement : Statement) : Prop :=
  statements.idxOf statement < state.pc

section Steps

variable {unicode : Unicode} {server : Server} {setup : Setup} {state next : State}
  {action : Action}

theorem EventLoop.not_over_of_step {Event : Type} {handler : Event → Program Unit}
    {stopped opened : Bool} {loop following : EventLoop} {action : LoopAction Event}
    (hstep : loop.step handler stopped opened action = some following) : ¬ loop.Over := by
  intro hover
  cases loop with
  | absent | gone => cases action <;> cases hstep
  | _ => exact hover

theorem Sweeper.not_gone_of_step {stopped : Bool} {sweeper following : Sweeper}
    {action : SweeperAction} (hstep : sweeper.step stopped action = some following) :
    sweeper ≠ .gone := by
  rintro rfl
  cases action <;> cases hstep

theorem WatchLoop.not_over_of_step {cancelled : Bool} {loop following : WatchLoop}
    {action : WatchAction} (hstep : loop.step unicode cancelled action = some following) :
    ¬ loop.Over := by
  intro hover
  cases loop with
  | absent | gone => cases action <;> cases hstep
  | running prog => exact hover

/-- The goroutine does not end before its context is cancelled. -/
def WatchLoop.Persists : WatchLoop → Prop
  | .absent => True
  | .running prog => prog.Ensures (Fits false) fun next => next.isSome = true
  | .gone => False

theorem ensures_relistIfNeeded (watcher : Kube.Watcher) (resourceVersion : GoString)
    (backoff : ℕ) :
    (Backoff.relistIfNeeded unicode (fun next => ret (some next)) watcher resourceVersion
      backoff).Ensures (Fits false) fun next => next.isSome = true := by
  rw [Backoff.relistIfNeeded]
  split
  · intro listed _
    cases listed with
    | error err => rfl
    | ok listed => rfl
  · rfl

theorem ensures_afterWatchOnce (loop : Backoff.Loop) (watched : Backoff.Watched) :
    (Backoff.afterWatchOnce unicode (fun next => ret (some next)) none loop watched).Ensures
      (Fits false) fun next => next.isSome = true := by
  rw [Backoff.afterWatchOnce]
  split
  · rfl
  · intro slept hslept
    obtain rfl : slept = true := hslept.resolve_right Bool.false_ne_true
    exact ensures_relistIfNeeded _ _ _

theorem ensures_watchRound (loop : Backoff.Loop) :
    (watchRound unicode loop).Ensures (Fits false) fun next => next.isSome = true := by
  intro ended hended
  rw [show ended = false from hended]
  intro response _ ended hended
  rw [show ended = false from hended]
  exact ensures_afterWatchOnce loop _

theorem WatchLoop.Persists.step {loop following : WatchLoop} {action : WatchAction}
    (hpersists : loop.Persists) (hstep : loop.step unicode false action = some following) :
    following.Persists := by
  cases loop with
  | absent => exact absurd trivial (WatchLoop.not_over_of_step hstep)
  | gone => exact hpersists.elim
  | running prog =>
      cases prog with
      | call op next =>
          cases action with
          | advance answers =>
              obtain ⟨hfits, hnext⟩ := Option.ite_none_right_eq_some.1 hstep
              cases hnext
              exact hpersists (answers op) hfits
          | again => cases hstep
          | done => cases hstep
      | ret value =>
          cases value with
          | none => cases hpersists
          | some loop =>
              cases action with
              | advance answers => cases hstep
              | again =>
                  cases hstep
                  exact ensures_watchRound loop
              | done => cases hstep

/-- The steps of `main` and of the goroutines, by what they may change. -/
inductive Stepped (unicode : Unicode) (server : Server) (state : State) : State → Prop
  | main (timeout : Bool) (statement : Statement) (next : State)
      (hstatement : statements[state.pc]? = some statement)
      (hexecute : state.execute timeout statement = some next) :
      Stepped unicode server state { next with pc := state.pc + 1 }
  | server (action : Lifecycle.Action) (next : Lifecycle.State)
      (hinternal : Internal state.server action)
      (hstep : Lifecycle.Stepped unicode server state.server action next) :
      Stepped unicode server state { state with server := next }
  | reconciler (next : Sweeper) (hrunning : state.reconciler.sweeper ≠ .gone) :
      Stepped unicode server state
        { state with reconciler := { state.reconciler with sweeper := next } }
  | exec (next : EventLoop) (hrunning : ¬ state.exec.loop.Over) :
      Stepped unicode server state { state with exec := { state.exec with loop := next } }
  | lsm (next : EventLoop) (hrunning : ¬ state.lsm.loop.Over) :
      Stepped unicode server state { state with lsm := { state.lsm with loop := next } }
  | watcher (action : WatchAction) (next : WatchLoop)
      (hstep : state.watcher.loop.step unicode state.watcher.cancelled action = some next) :
      Stepped unicode server state { state with watcher := { state.watcher with loop := next } }

theorem stepped_of_step (hstep : step unicode server state action = some next) :
    Stepped unicode server state next := by
  cases action with
  | main timeout =>
      obtain ⟨statement, hstatement, hnext⟩ := Option.bind_eq_some_iff.1 hstep
      obtain ⟨following, hexecute, rfl⟩ := Option.map_eq_some_iff.1 hnext
      exact .main timeout statement following hstatement hexecute
  | server action =>
      obtain ⟨hinternal, hnext⟩ := Option.ite_none_right_eq_some.1 hstep
      obtain ⟨following, hfollowing, rfl⟩ := Option.map_eq_some_iff.1 hnext
      exact .server action following hinternal (Lifecycle.stepped_of_step hfollowing)
  | reconciler action =>
      obtain ⟨following, hfollowing, rfl⟩ := Option.map_eq_some_iff.1 hstep
      exact .reconciler following (Sweeper.not_gone_of_step hfollowing)
  | exec action =>
      obtain ⟨following, hfollowing, rfl⟩ := Option.map_eq_some_iff.1 hstep
      exact .exec following (EventLoop.not_over_of_step hfollowing)
  | lsm action =>
      obtain ⟨following, hfollowing, rfl⟩ := Option.map_eq_some_iff.1 hstep
      exact .lsm following (EventLoop.not_over_of_step hfollowing)
  | watcher action =>
      obtain ⟨following, hfollowing, rfl⟩ := Option.map_eq_some_iff.1 hstep
      exact .watcher action following hfollowing

/-- Everything that is closed, stopped or over stays so. -/
structure Progressed (state next : State) : Prop where
  reconciler : state.reconciler.stopped = true → next.reconciler.stopped = true
  sweeper : state.reconciler.sweeper = .gone → next.reconciler.sweeper = .gone
  called : state.server.closers ≠ [] → next.server.closers ≠ []
  returned : .returned ∈ state.server.closers → .returned ∈ next.server.closers
  stopped : state.stopped = true → next.stopped = true
  execReader : state.exec.opened = false → next.exec.opened = false
  lsmReader : state.lsm.opened = false → next.lsm.opened = false
  timedOut : state.timedOut = true → next.timedOut = true
  execLoop : state.exec.loop.Over → next.exec.loop.Over
  lsmLoop : state.lsm.loop.Over → next.lsm.loop.Over
  execLinks : state.exec.attached = false → next.exec.attached = false
  lsmLinks : state.lsm.attached = false → next.lsm.attached = false
  cancelled : state.watcher.cancelled = true → next.watcher.cancelled = true
  watchLoop : state.watcher.loop.Over → next.watcher.loop.Over

theorem Progressed.refl (state : State) : Progressed state state :=
  ⟨id, id, id, id, id, id, id, id, id, id, id, id, id, id⟩

theorem Progressed.done (hprogressed : Progressed state next) {statement : Statement}
    (hdone : statement.Done state) : statement.Done next := by
  cases statement with
  | awaitSignal | stopMetrics => trivial
  | stopReconciler => exact hprogressed.reconciler hdone
  | awaitReconciler => exact hprogressed.sweeper hdone
  | closeServer => exact hprogressed.called hdone
  | awaitServer => exact hprogressed.returned hdone
  | stopManager => exact hprogressed.stopped hdone
  | closeExecReader => exact hprogressed.execReader hdone
  | closeLSMReader => exact hprogressed.lsmReader hdone
  | awaitLoops =>
      exact hdone.imp hprogressed.timedOut (And.imp hprogressed.execLoop hprogressed.lsmLoop)
  | detachExec => exact hprogressed.execLinks hdone
  | detachLSM => exact hprogressed.lsmLinks hdone
  | cancelWatcher => exact hprogressed.cancelled hdone
  | awaitWatcher => exact hprogressed.watchLoop hdone

/-- The hooks and the watcher are stopped by their own statements only, and the server and
the watcher are left to their goroutines but for the call of `Close` and the cancelling. -/
structure Framed (statement : Statement) (state next : State) : Prop where
  server : next.server = state.server ∨
    next.server = { state.server with closers := state.server.closers ++ [.calling] }
  execLinks : statement ≠ .detachExec → next.exec.attached = state.exec.attached
  lsmLinks : statement ≠ .detachLSM → next.lsm.attached = state.lsm.attached
  cancelled : statement ≠ .cancelWatcher → next.watcher = state.watcher

/-- A statement does what it is for, and undoes nothing. -/
theorem executed {timeout : Bool} {statement : Statement}
    (hexecute : state.execute timeout statement = some next) :
    Progressed state next ∧ statement.Done next ∧ Framed statement state next := by
  have hrefl := Progressed.refl state
  have hframed : Framed statement state state :=
    ⟨Or.inl rfl, fun _ => rfl, fun _ => rfl, fun _ => rfl⟩
  cases statement with
  | awaitSignal | stopMetrics =>
      cases hexecute
      exact ⟨hrefl, trivial, hframed⟩
  | stopReconciler =>
      cases hexecute
      exact ⟨{ hrefl with reconciler := fun _ => rfl }, rfl, { hframed with }⟩
  | awaitReconciler =>
      simp only [State.execute] at hexecute
      split at hexecute
      · cases hexecute
        exact ⟨hrefl, ‹_›, hframed⟩
      · cases hexecute
  | closeServer =>
      cases hexecute
      have hcalled : state.server.closers ++ [.calling] ≠ [] :=
        List.append_ne_nil_of_right_ne_nil _ (List.cons_ne_nil _ _)
      exact ⟨{ hrefl with called := fun _ => hcalled, returned := List.mem_append_left _ },
        hcalled, { hframed with server := Or.inr rfl }⟩
  | awaitServer =>
      obtain ⟨hreturned, hnext⟩ := Option.ite_none_right_eq_some.1 hexecute
      cases hnext
      exact ⟨hrefl, hreturned, hframed⟩
  | stopManager =>
      cases hexecute
      exact ⟨{ hrefl with stopped := fun _ => rfl }, rfl, { hframed with }⟩
  | closeExecReader =>
      cases hexecute
      exact ⟨{ hrefl with execReader := fun _ => rfl }, rfl, { hframed with }⟩
  | closeLSMReader =>
      cases hexecute
      exact ⟨{ hrefl with lsmReader := fun _ => rfl }, rfl, { hframed with }⟩
  | awaitLoops =>
      simp only [State.execute] at hexecute
      split at hexecute
      · cases hexecute
        exact ⟨hrefl, Or.inr ‹_›, hframed⟩
      · obtain ⟨_, hnext⟩ := Option.ite_none_right_eq_some.1 hexecute
        cases hnext
        exact ⟨{ hrefl with timedOut := fun _ => rfl }, Or.inl rfl, { hframed with }⟩
  | detachExec =>
      cases hexecute
      exact ⟨{ hrefl with execLinks := fun _ => rfl }, rfl,
        { hframed with execLinks := fun hne => absurd rfl hne }⟩
  | detachLSM =>
      cases hexecute
      exact ⟨{ hrefl with lsmLinks := fun _ => rfl }, rfl,
        { hframed with lsmLinks := fun hne => absurd rfl hne }⟩
  | cancelWatcher =>
      cases hexecute
      exact ⟨{ hrefl with cancelled := fun _ => rfl }, rfl,
        { hframed with cancelled := fun hne => absurd rfl hne }⟩
  | awaitWatcher =>
      obtain ⟨hover, hnext⟩ := Option.ite_none_right_eq_some.1 hexecute
      cases hnext
      exact ⟨hrefl, hover, hframed⟩

theorem progressed_of_stepped (hstep : Stepped unicode server state next) :
    Progressed state next := by
  have hrefl := Progressed.refl state
  cases hstep with
  | main timeout statement next hstatement hexecute => exact { (executed hexecute).1 with }
  | server action next hinternal hstep =>
      exact { hrefl with
        called := fun hcalled => hstep.closers_ne_nil hcalled
        returned := fun hreturned => Lifecycle.returned_step hreturned hstep }
  | reconciler next hrunning =>
      exact { hrefl with sweeper := fun hgone => absurd hgone hrunning }
  | exec next hrunning => exact { hrefl with execLoop := fun hover => absurd hover hrunning }
  | lsm next hrunning => exact { hrefl with lsmLoop := fun hover => absurd hover hrunning }
  | watcher action next hstep =>
      exact { hrefl with
        watchLoop := fun hover => absurd hover (WatchLoop.not_over_of_step hstep) }

/-- The invariant: what has been executed is done, and what has not been is untouched. -/
structure Ordered (attached : Bool) (state : State) : Prop where
  pc : state.pc ≤ statements.length
  sound : Lifecycle.Sound state.server
  bounded : state.server.Bounded
  done : ∀ statement, state.Executed statement → statement.Done state
  execLinks : ¬ state.Executed .detachExec → state.exec.attached = true
  lsmLinks : ¬ state.Executed .detachLSM → state.lsm.attached = attached
  watching : ¬ state.Executed .cancelWatcher →
    state.watcher.cancelled = false ∧ state.watcher.loop.Persists

theorem idxOf_statements {index : ℕ} {statement : Statement}
    (hstatement : statements[index]? = some statement) : statements.idxOf statement = index := by
  obtain ⟨hindex, rfl⟩ := List.getElem?_eq_some_iff.1 hstatement
  exact List.Nodup.idxOf_getElem (by decide) index hindex

theorem Ordered.step {attached : Bool} (hordered : Ordered attached state)
    (hstep : Stepped unicode server state next) : Ordered attached next := by
  have hprogressed := progressed_of_stepped hstep
  have hkept (statement : Statement) (hexecuted : state.Executed statement) :
      statement.Done next := hprogressed.done (hordered.done statement hexecuted)
  cases hstep with
  | main timeout statement following hstatement hexecute =>
      obtain ⟨_, hdone, hframed⟩ := executed hexecute
      have hindex := idxOf_statements hstatement
      have hbefore (other : Statement) (hother : ¬ statements.idxOf other < state.pc + 1) :
          ¬ state.Executed other ∧ statement ≠ other := by
        refine ⟨fun hexecuted => hother (Nat.lt_succ_of_lt hexecuted), ?_⟩
        rintro rfl
        exact hother (hindex ▸ Nat.lt_succ_self _)
      have hserver : Lifecycle.Sound following.server ∧ following.server.Bounded := by
        rcases hframed.server with hsame | hclose
        · rw [hsame]
          exact ⟨hordered.sound, hordered.bounded⟩
        · have hclosed : Lifecycle.Stepped unicode server state.server .close following.server := by
            rw [hclose]
            exact .close
          exact ⟨hordered.sound.step hclosed, hordered.bounded.step hclosed⟩
      exact {
        pc := (List.getElem?_eq_some_iff.1 hstatement).1
        sound := hserver.1
        bounded := hserver.2
        done := by
          intro other hother
          rcases Nat.lt_succ_iff_lt_or_eq.1 hother with hexecuted | hcurrent
          · exact hkept other hexecuted
          · obtain rfl : statement = other :=
              (List.idxOf_inj (List.mem_of_getElem? hstatement)).1 (hindex.trans hcurrent.symm)
            exact Progressed.done { Progressed.refl following with } hdone
        execLinks := fun hother => (hframed.execLinks (hbefore _ hother).2).trans
          (hordered.execLinks (hbefore _ hother).1)
        lsmLinks := fun hother => (hframed.lsmLinks (hbefore _ hother).2).trans
          (hordered.lsmLinks (hbefore _ hother).1)
        watching := by
          intro hother
          rw [show following.watcher = state.watcher from hframed.cancelled (hbefore _ hother).2]
          exact hordered.watching (hbefore _ hother).1 }
  | server action following hinternal hstep =>
      exact { hordered with
        sound := hordered.sound.step hstep
        bounded := hordered.bounded.step hstep
        done := hkept }
  | reconciler following hrunning => exact { hordered with done := hkept }
  | exec following hrunning => exact { hordered with done := hkept }
  | lsm following hrunning => exact { hordered with done := hkept }
  | watcher action following hstep =>
      refine { hordered with done := hkept, watching := fun hbefore => ?_ }
      obtain ⟨hcancelled, hpersists⟩ := hordered.watching hbefore
      rw [hcancelled] at hstep
      exact ⟨hcancelled, hpersists.step hstep⟩

theorem ordered_init : Ordered setup.attached (shutdown unicode server setup).init where
  pc := Nat.zero_le _
  sound := by
    have hserve : (Lifecycle.lifecycle unicode server).step {} .serve =
        some { wg := 1, acceptor := .accepting } := rfl
    have hserved : (Lifecycle.lifecycle unicode server).Reachable System.Unrestricted
        { wg := 1, acceptor := .accepting } := .tail .init trivial hserve
    exact Lifecycle.sound_of_reachable hserved
  bounded := fun prog hprog => absurd hprog List.not_mem_nil
  done := fun statement hexecuted => absurd hexecuted (Nat.not_lt_zero _)
  execLinks := fun _ => rfl
  lsmLinks := fun _ => rfl
  watching := by
    intro _
    refine ⟨rfl, ?_⟩
    obtain ⟨attached, reader, watched⟩ := setup
    cases watched with
    | none => trivial
    | some loop => exact ensures_watchRound loop

theorem ordered_of_reachable {allowed : State → Action → Prop}
    (hstate : (shutdown unicode server setup).Reachable allowed state) :
    Ordered setup.attached state :=
  hstate.invariant ordered_init fun _ _ _ _ hordered _ hstep =>
    hordered.step (stepped_of_step hstep)

end Steps

/-- Whatever the goroutines do while the agent stops, the hooks are attached for as long as
a connection is served or can be accepted and the reconciler runs, and until the loops that
read events are over or have been waited for long enough.  The goroutine of the pod watcher
outlasts the hooks. -/
theorem hooks_outlast_service (unicode : Unicode) (server : Server) (setup : Setup)
    {state : State}
    (hstate : (shutdown unicode server setup).Reachable System.Unrestricted state) :
    (state.exec.attached = false ∨ state.lsm.attached ≠ setup.attached →
      state.server.listening = false ∧ state.server.Quiet ∧
        state.reconciler.sweeper = .gone ∧
        (state.timedOut = true ∨ (state.exec.loop.Over ∧ state.lsm.loop.Over))) ∧
    (state.watcher.cancelled = true ∨ state.watcher.loop = .gone →
      state.exec.attached = false ∧ state.lsm.attached = false) := by
  have hordered := ordered_of_reachable hstate
  constructor
  · intro hdetached
    -- the links are closed one set after the other, those of the exec monitor first
    have hpc : statements.idxOf .detachExec < state.pc := by
      rcases hdetached with hexec | hlsm
      · by_contra hnot
        rw [hordered.execLinks hnot] at hexec
        cases hexec
      · by_contra hnot
        refine hlsm (hordered.lsmLinks fun hexecuted => hnot ?_)
        exact Nat.lt_of_le_of_lt (by decide) hexecuted
    have hdone (statement : Statement)
        (hbefore : statements.idxOf statement ≤ statements.idxOf .detachExec) :
        statement.Done state := hordered.done statement (Nat.lt_of_le_of_lt hbefore hpc)
    have hreturned : .returned ∈ state.server.closers := hdone .awaitServer (by decide)
    obtain ⟨_, hlistening, hquiet⟩ := hordered.sound.reached _ hreturned
    exact ⟨hlistening, hquiet, hdone .awaitReconciler (by decide), hdone .awaitLoops (by decide)⟩
  · intro hstopped
    have hpc : statements.idxOf .cancelWatcher < state.pc := by
      by_contra hnot
      obtain ⟨hcancelled, hpersists⟩ := hordered.watching hnot
      rcases hstopped with hstopped | hgone
      · exact Bool.false_ne_true (hcancelled.symm.trans hstopped)
      · rw [hgone] at hpersists
        exact hpersists
    exact ⟨hordered.done .detachExec (Nat.lt_trans (by decide) hpc),
      hordered.done .detachLSM (Nat.lt_trans (by decide) hpc)⟩

/-! ## An agent that is stopped while it serves -/

/-- The LSM programs are loaded, and the pod watcher has listed no pods. -/
def watchful : Setup := ⟨true, true, some ⟨{}, [], Backoff.minBackoff⟩⟩

/-- Nothing answers, and no context has ended. -/
def silentCluster : (op : Backoff.Op) → op.Ans
  | .ctxErr => false
  | .watch _ => .error .other
  | .sleepCtx _ => true
  | .relist => .error []

/-- A connection is served, the reconciler sweeps, the loops wait for events and the pod
watcher for the answer to a request. -/
def busy : List Action :=
  [.server .accept, .server .dispatch, .reconciler .tick, .exec .check, .lsm .check,
    .watcher (.advance silentCluster)]

/-- The signal comes, the reconciler finds nothing to sweep, the server is closed and
drained, and the loops, which never return from `Read`, are waited for in vain. -/
def stopped : List Action :=
  List.replicate 3 (.main false) ++
    [.reconciler (.advance Lifecycle.silentClient), .reconciler .swept, .reconciler .stop] ++
    List.replicate 2 (.main false) ++ List.replicate 3 (.server (.proceed 0 true)) ++
    Lifecycle.drain.map .server ++ List.replicate 4 (.main false) ++
    List.replicate 2 (.main true)

theorem stopped_agent_quiet :
    ∃ state, (shutdown Unicode.ascii Lifecycle.emptyServer watchful).Reachable
        System.Unrestricted state ∧
      state.exec.attached = false ∧ state.server.handlers.length = 1 ∧ state.server.Quiet ∧
      state.timedOut = true := by
  obtain ⟨state, hstate, hdetached, hlength, htimedOut⟩ : ∃ state,
      (shutdown Unicode.ascii Lifecycle.emptyServer watchful).Reachable System.Unrestricted
        state ∧
        state.exec.attached = false ∧ state.server.handlers.length = 1 ∧ state.timedOut = true :=
    System.exists_reachable (busy ++ stopped) (by decide)
  have houtlast := hooks_outlast_service Unicode.ascii Lifecycle.emptyServer watchful hstate
  exact ⟨state, hstate, hdetached, hlength, (houtlast.1 (Or.inl hdetached)).2.1, htimedOut⟩

/-! ## Stopping is always possible -/

section Completion

variable {unicode : Unicode} {server : Server} {setup : Setup} {state : State}

/-- The reconciler comes to the end of its sweep and sees the closed channel. -/
theorem exists_runs_gone (state : State) (sweeper : Sweeper)
    (hsweeper : state.reconciler = ⟨true, sweeper⟩) :
    ∃ schedule, (shutdown unicode server setup).Runs System.Unrestricted state schedule
      { state with reconciler := ⟨true, .gone⟩ } := by
  have hstep (state : State) {sweeper following : Sweeper} (action : SweeperAction)
      (hsweeper : state.reconciler = ⟨true, sweeper⟩)
      (hfollowing : sweeper.step true action = some following) :
      (shutdown unicode server setup).step state (.reconciler action) =
        some { state with reconciler := ⟨true, following⟩ } := by
    simp only [shutdown, step, hsweeper, hfollowing, Option.map_some]
  have hselecting (state : State) (hselecting : state.reconciler = ⟨true, .selecting⟩) :
      (shutdown unicode server setup).Runs System.Unrestricted state [.reconciler .stop]
        { state with reconciler := ⟨true, .gone⟩ } :=
    .cons trivial (hstep state .stop hselecting rfl) (.nil _)
  cases sweeper with
  | gone => exact ⟨[], hsweeper ▸ .nil _⟩
  | selecting => exact ⟨_, hselecting state hsweeper⟩
  | sweeping prog =>
      induction prog generalizing state with
      | ret value =>
          have hswept := hstep state .swept hsweeper rfl
          exact ⟨_, .cons trivial hswept (hselecting _ rfl)⟩
      | call op next ih =>
          let answers : (op : Op) → op.Ans := fun op => Classical.choice (Lifecycle.nonempty_ans op)
          have hadvance := hstep state (.advance answers) hsweeper rfl
          obtain ⟨schedule, hrest⟩ := ih (answers op)
            { state with reconciler := ⟨true, .sweeping (next (answers op))⟩ } rfl
          exact ⟨_, .cons trivial hadvance hrest⟩

/-- A cancelled context ends every call of the pod watcher. -/
def cancelledAnswers : (op : Backoff.Op) → op.Ans
  | .ctxErr => true
  | .watch _ => .error .other
  | .sleepCtx _ => false
  | .relist => .error []

theorem fits_cancelledAnswers (op : Backoff.Op) : Fits true op (cancelledAnswers op) := by
  cases op with
  | ctxErr => rfl
  | sleepCtx seconds => exact Or.inr rfl
  | watch _ | relist => trivial

/-- The goroutine of the pod watcher sees the cancelled context and closes `w.done`. -/
theorem exists_runs_over (state : State) (loop : WatchLoop)
    (hwatcher : state.watcher = ⟨true, loop⟩) :
    ∃ schedule final,
      (shutdown unicode server setup).Runs System.Unrestricted state schedule final ∧
        final.pc = state.pc ∧ final.watcher.loop.Over := by
  have hstep (state : State) {loop following : WatchLoop} (action : WatchAction)
      (hwatcher : state.watcher = ⟨true, loop⟩)
      (hfollowing : loop.step unicode true action = some following) :
      (shutdown unicode server setup).step state (.watcher action) =
        some { state with watcher := ⟨true, following⟩ } := by
    simp only [shutdown, step, hwatcher, hfollowing, Option.map_some]
  have hadvance {op : Backoff.Op}
      {next : op.Ans → Prog Backoff.Op Backoff.Op.Ans (Option Backoff.Loop)} :
      WatchLoop.step unicode true (.running (.call op next)) (.advance cancelledAnswers) =
        some (.running (next (cancelledAnswers op))) :=
    if_pos (fits_cancelledAnswers op)
  cases loop with
  | absent | gone => exact ⟨[], state, .nil _, rfl, by rw [hwatcher]; trivial⟩
  | running prog =>
      induction prog generalizing state with
      | ret value =>
          cases value with
          | none =>
              have hdone := hstep state .done hwatcher rfl
              exact ⟨_, _, .cons trivial hdone (.nil _), rfl, trivial⟩
          | some loop =>
              -- the next round begins with a look at the context
              let again : State :=
                { state with watcher := ⟨true, .running (watchRound unicode loop)⟩ }
              let ended : State := { state with watcher := ⟨true, .running (ret none)⟩ }
              have hagain := hstep state .again hwatcher rfl
              have hended := hstep again (.advance cancelledAnswers) rfl hadvance
              have hdone := hstep ended .done rfl rfl
              have hruns : (shutdown unicode server setup).Runs System.Unrestricted again
                  [.watcher (.advance cancelledAnswers), .watcher .done] _ :=
                .cons trivial hended (.cons trivial hdone (.nil _))
              exact ⟨_, _, .cons trivial hagain hruns, rfl, trivial⟩
      | call op next ih =>
          have hcall := hstep state (.advance cancelledAnswers) hwatcher hadvance
          obtain ⟨schedule, final, hrest, hpc, hover⟩ := ih (cancelledAnswers op)
            { state with watcher := ⟨true, .running (next (cancelledAnswers op))⟩ } rfl
          exact ⟨_, final, .cons trivial hcall hrest, hpc, hover⟩

/-- A run of the server is one of the agent. -/
theorem runs_of_server_runs {next final : Lifecycle.State} {schedule : List Lifecycle.Action}
    (hruns : (Lifecycle.lifecycle unicode server).Runs Internal next schedule final) :
    (shutdown unicode server setup).Runs System.Unrestricted
      { state with server := next } (schedule.map .server) { state with server := final } := by
  induction hruns with
  | nil next => exact .nil _
  | cons hinternal hstep hrest ih =>
      refine .cons trivial ?_ ih
      simp only [shutdown, step, if_pos hinternal]
      rw [show Lifecycle.step unicode server _ _ = _ from hstep]
      rfl

/-- The goroutines let the next statement of `main` through. -/
theorem Ordered.exists_runs_ready {attached : Bool} (hordered : Ordered attached state)
    {statement : Statement} (hstatement : statements[state.pc]? = some statement) :
    ∃ schedule ready next,
      (shutdown unicode server setup).Runs System.Unrestricted state schedule ready ∧
        ready.pc = state.pc ∧ ready.execute true statement = some next := by
  have hbefore (earlier : Statement)
      (hearlier : statements.idxOf earlier < statements.idxOf statement) : earlier.Done state := by
    rw [idxOf_statements hstatement] at hearlier
    exact hordered.done earlier hearlier
  cases statement with
  | awaitReconciler =>
      have hstopped : state.reconciler.stopped = true := hbefore .stopReconciler (by decide)
      obtain ⟨schedule, hruns⟩ : ∃ schedule, (shutdown unicode server setup).Runs
          System.Unrestricted state schedule { state with reconciler := ⟨true, .gone⟩ } :=
        exists_runs_gone state state.reconciler.sweeper (by rw [← hstopped])
      exact ⟨schedule, _, _, hruns, rfl, rfl⟩
  | awaitServer =>
      have hcalled : Lifecycle.Called state.server :=
        ⟨hordered.sound, hordered.bounded, hbefore .closeServer (by decide)⟩
      obtain ⟨schedule, final, hruns, hreturned⟩ : ∃ schedule final,
          (Lifecycle.lifecycle unicode server).Runs Internal state.server schedule final ∧
            .returned ∈ final.closers := hcalled.exists_runs_returned
      exact ⟨_, { state with server := final }, _, runs_of_server_runs hruns, rfl, if_pos hreturned⟩
  | awaitLoops =>
      by_cases hover : state.exec.loop.Over ∧ state.lsm.loop.Over
      · exact ⟨[], state, state, .nil state, rfl, if_pos hover⟩
      · exact ⟨[], state, _, .nil state, rfl, if_neg hover⟩
  | awaitWatcher =>
      have hcancelled : state.watcher.cancelled = true := hbefore .cancelWatcher (by decide)
      obtain ⟨schedule, final, hruns, hpc, hover⟩ : ∃ schedule final,
          (shutdown unicode server setup).Runs System.Unrestricted state schedule final ∧
            final.pc = state.pc ∧ final.watcher.loop.Over :=
        exists_runs_over state state.watcher.loop (by rw [← hcancelled])
      exact ⟨schedule, final, final, hruns, hpc, if_pos hover⟩
  | _ => exact ⟨[], state, _, .nil state, rfl, rfl⟩

end Completion

/-- The agent can always stop: from wherever the goroutines are, the signal, their own steps
and the timeout of the manager let `main` come to its end, past the waits for the reconciler,
the server and the pod watcher. -/
theorem shutdown_completes (unicode : Unicode) (server : Server) (setup : Setup)
    {state : State}
    (hstate : (shutdown unicode server setup).Reachable System.Unrestricted state) :
    ∃ schedule final,
      (shutdown unicode server setup).Runs System.Unrestricted state schedule final ∧
        final.pc = statements.length ∧ final.exec.attached = false ∧ final.lsm.attached = false ∧
        final.watcher.loop.Over := by
  obtain ⟨schedule, final, hruns, hordered, hreturned⟩ : ∃ schedule final,
      (shutdown unicode server setup).Runs System.Unrestricted state schedule final ∧
        Ordered setup.attached final ∧ final.pc = statements.length := by
    refine System.exists_runs (fun state => statements.length - state.pc)
      (fun state hordered hunfinished => ?_) (ordered_of_reachable hstate)
    have hpc : state.pc < statements.length := Nat.lt_of_le_of_ne hordered.pc hunfinished
    obtain ⟨statement, hstatement⟩ : ∃ statement, statements[state.pc]? = some statement :=
      ⟨_, List.getElem?_eq_getElem hpc⟩
    obtain ⟨schedule, ready, next, hruns, hready, hexecute⟩ : ∃ schedule ready next,
        (shutdown unicode server setup).Runs System.Unrestricted state schedule ready ∧
          ready.pc = state.pc ∧ ready.execute true statement = some next :=
      hordered.exists_runs_ready hstatement
    have hmain : (shutdown unicode server setup).step ready (.main true) =
        some { next with pc := ready.pc + 1 } := by
      simp only [shutdown, step, hready, hstatement, Option.bind_some, hexecute, Option.map_some]
    have hall := hruns.trans (.cons trivial hmain (.nil _))
    refine ⟨_, _, hall, ?_, ?_⟩
    · exact hall.preserves (fun _ _ _ hordered _ hstep => hordered.step (stepped_of_step hstep))
        hordered
    · change statements.length - (ready.pc + 1) < statements.length - state.pc
      rw [hready]
      omega
  have hdone (statement : Statement) (hmem : statement ∈ statements) : statement.Done final :=
    hordered.done statement <| by
      rw [State.Executed, hreturned]
      exact List.idxOf_lt_length_of_mem hmem
  exact ⟨schedule, final, hruns, hreturned, hdone .detachExec (by decide),
    hdone .detachLSM (by decide), hdone .awaitWatcher (by decide)⟩

theorem busy_agent_stops :
    ∃ state, (shutdown Unicode.ascii Lifecycle.emptyServer watchful).Reachable
        System.Unrestricted state ∧
      state.server.handlers.length = 1 ∧ ¬ state.watcher.loop.Over ∧
      ∃ schedule final, (shutdown Unicode.ascii Lifecycle.emptyServer watchful).Runs
        System.Unrestricted state schedule final ∧ final.watcher.loop.Over := by
  obtain ⟨state, hstate, hlength, hwatching⟩ : ∃ state,
      (shutdown Unicode.ascii Lifecycle.emptyServer watchful).Reachable System.Unrestricted
        state ∧ state.server.handlers.length = 1 ∧ ¬ state.watcher.loop.Over :=
    System.exists_reachable busy (by decide)
  obtain ⟨schedule, final, hruns, _, _, _, hstopped⟩ :=
    shutdown_completes Unicode.ascii Lifecycle.emptyServer watchful hstate
  exact ⟨state, hstate, hlength, hwatching, schedule, final, hruns, hstopped⟩

end KernelSeal.Shutdown

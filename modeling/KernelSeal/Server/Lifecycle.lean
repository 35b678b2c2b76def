import KernelSeal.Core.Transition
import KernelSeal.Server.Delivery
import Mathlib.Algebra.Order.BigOperators.Group.List
import Mathlib.Tactic.Ring

/-!
# Serving and closing

This file models `Serve` and `Close` of `internal/server`: the goroutine that accepts
connections, the goroutine of each connection and any number of calls of `Close`, which
share a wait group, a stop channel, the listener and a `sync.Once`.  A connection runs
`handleConn`; what its calls answer is left open here.
-/

namespace KernelSeal.Lifecycle

open KernelSeal.Text
open KernelSeal.Registry
open KernelSeal.Resumption
open KernelSeal.Resumption.Prog
open KernelSeal.Transition
open KernelSeal.Delivery

/-! ## The goroutines -/

/-- What `Accept` fails with: `net.ErrClosed`, or anything else. -/
inductive AcceptError where
  | closed
  | other
  deriving DecidableEq

/-- Where the goroutine of `Serve` is: not started, in `Accept`, at the `select` after a
failure, holding a connection that has no goroutine yet, or before and after the deferred
`Done`. -/
inductive Acceptor where
  | absent
  | accepting
  | failed (err : AcceptError)
  | accepted
  | leaving
  | gone
  deriving DecidableEq

/-- The goroutine of a connection, in `handleConn` or after the deferred `Done`. -/
inductive Handler where
  | running (prog : Program Unit)
  | gone

/-- Where a call of `Close` is: at `Do`, before each statement of the function that `Do`
runs, or back. -/
inductive Closer where
  | calling
  | stopping
  | closing
  | waiting
  | removing
  | returned
  deriving DecidableEq

/-- `sync.Once`. -/
inductive Once where
  | fresh
  | busy
  | finished
  deriving DecidableEq

structure State where
  wg : ℤ := 0
  stopped : Bool := false
  listening : Bool := true
  socket : Bool := true
  once : Once := .fresh
  acceptor : Acceptor := .absent
  handlers : List Handler := []
  closers : List Closer := []

/-- The steps of the goroutines.  `removed` says whether the socket file could be removed
if there is one. -/
inductive Action where
  | serve
  | accept
  | acceptFails (err : AcceptError)
  | select
  | dispatch
  | leave
  | advance (index : ℕ) (answers : (op : Op) → op.Ans)
  | done (index : ℕ)
  | close
  | proceed (index : ℕ) (removed : Bool)

section System

variable (unicode : Unicode) (server : Server)

/-- A call of `Close` goes on, if it can. -/
def State.proceed (state : State) (index : ℕ) (removed : Bool) : Closer → Option State
  | .calling =>
      match state.once with
      | .fresh => some { state with once := .busy, closers := state.closers.set index .stopping }
      | .busy => none
      | .finished => some { state with closers := state.closers.set index .returned }
  | .stopping => some { state with stopped := true, closers := state.closers.set index .closing }
  | .closing =>
      -- a listener on a unix socket removes its file when it is closed
      some { state with
        listening := false
        socket := state.socket && !removed
        closers := state.closers.set index .waiting }
  | .waiting =>
      if state.wg = 0 then some { state with closers := state.closers.set index .removing }
      else none
  | .removing =>
      some { state with
        socket := state.socket && !removed
        once := .finished
        closers := state.closers.set index .returned }
  | .returned => none

/-- One step.  A goroutine that is started counts as soon as its `Add`: until it is
scheduled it makes no difference. -/
def step (state : State) : Action → Option State
  | .serve =>
      match state.acceptor with
      | .absent => some { state with wg := state.wg + 1, acceptor := .accepting }
      | _ => none
  | .accept =>
      match state.acceptor with
      | .accepting => if state.listening then some { state with acceptor := .accepted } else none
      | _ => none
  | .acceptFails err =>
      match state.acceptor with
      | .accepting =>
          if err = .closed ↔ state.listening = false then
            some { state with acceptor := .failed err }
          else none
      | _ => none
  | .select =>
      match state.acceptor with
      | .failed err =>
          some { state with
            acceptor := if state.stopped then .leaving
              else if err = .closed then .leaving
              else .accepting }
      | _ => none
  | .dispatch =>
      match state.acceptor with
      | .accepted =>
          some { state with
            wg := state.wg + 1
            acceptor := .accepting
            handlers := state.handlers ++ [.running (handleConn unicode server)] }
      | _ => none
  | .leave =>
      match state.acceptor with
      | .leaving => some { state with wg := state.wg - 1, acceptor := .gone }
      | _ => none
  | .advance index answers =>
      match state.handlers[index]? with
      | some (.running (.call op next)) =>
          some { state with
            handlers := state.handlers.set index (.running (next (answers op))) }
      | _ => none
  | .done index =>
      match state.handlers[index]? with
      | some (.running (.ret _)) =>
          some { state with wg := state.wg - 1, handlers := state.handlers.set index .gone }
      | _ => none
  | .close => some { state with closers := state.closers ++ [.calling] }
  | .proceed index removed => (state.closers[index]?).bind (state.proceed index removed)

/-- A server that is listening. -/
def lifecycle : System State Action where
  init := {}
  step := step unicode server

end System

/-! ## What a step can do -/

/-- The steps of the acceptor on its own, with what they add to the wait group. -/
inductive Acceptor.Moves (stopped listening : Bool) : Acceptor → Acceptor → ℤ → Prop
  | accept (hlistening : listening = true) : Moves stopped listening .accepting .accepted 0
  | acceptFails (err : AcceptError) (herr : err = .closed ↔ listening = false) :
      Moves stopped listening .accepting (.failed err) 0
  | retry (err : AcceptError) (hstopped : stopped = false) :
      Moves stopped listening (.failed err) .accepting 0
  | giveUp (err : AcceptError) : Moves stopped listening (.failed err) .leaving 0
  | leave : Moves stopped listening .leaving .gone (-1)

/-- The steps of a call of `Close`. -/
inductive Proceeds (state : State) (index : ℕ) (removed : Bool) : Closer → State → Prop
  | enter (hfresh : state.once = .fresh) :
      Proceeds state index removed .calling
        { state with once := .busy, closers := state.closers.set index .stopping }
  | skip (hfinished : state.once = .finished) :
      Proceeds state index removed .calling
        { state with closers := state.closers.set index .returned }
  | stop : Proceeds state index removed .stopping
        { state with stopped := true, closers := state.closers.set index .closing }
  | close : Proceeds state index removed .closing
        { state with
          listening := false
          socket := state.socket && !removed
          closers := state.closers.set index .waiting }
  | wait (hwg : state.wg = 0) :
      Proceeds state index removed .waiting
        { state with closers := state.closers.set index .removing }
  | remove : Proceeds state index removed .removing
        { state with
          socket := state.socket && !removed
          once := .finished
          closers := state.closers.set index .returned }

theorem proceeds_of_proceed {state next : State} {index : ℕ} {removed : Bool} {closer : Closer}
    (hnext : state.proceed index removed closer = some next) :
    Proceeds state index removed closer next := by
  cases closer with
  | calling =>
      simp only [State.proceed] at hnext
      split at hnext
      · cases hnext
        exact .enter ‹_›
      · cases hnext
      · cases hnext
        exact .skip ‹_›
  | stopping =>
      cases hnext
      exact .stop
  | closing =>
      cases hnext
      exact .close
  | waiting =>
      obtain ⟨hwg, hnext⟩ := Option.ite_none_right_eq_some.1 hnext
      cases hnext
      exact .wait hwg
  | removing =>
      cases hnext
      exact .remove
  | returned => cases hnext

/-- The steps of the system. -/
inductive Stepped (unicode : Unicode) (server : Server) (state : State) : Action → State → Prop
  | serve (habsent : state.acceptor = .absent) :
      Stepped unicode server state .serve
        { state with wg := state.wg + 1, acceptor := .accepting }
  | acceptor (action : Action) (next : Acceptor) (change : ℤ)
      (hmoves : state.acceptor.Moves state.stopped state.listening next change) :
      Stepped unicode server state action { state with wg := state.wg + change, acceptor := next }
  | dispatch (haccepted : state.acceptor = .accepted) :
      Stepped unicode server state .dispatch
        { state with
          wg := state.wg + 1
          acceptor := .accepting
          handlers := state.handlers ++ [.running (handleConn unicode server)] }
  | advance (index : ℕ) (answers : (op : Op) → op.Ans) (op : Op) (next : op.Ans → Program Unit)
      (hhandler : state.handlers[index]? = some (.running (call op next))) :
      Stepped unicode server state (.advance index answers)
        { state with handlers := state.handlers.set index (.running (next (answers op))) }
  | done (index : ℕ) (value : Unit)
      (hhandler : state.handlers[index]? = some (.running (ret value))) :
      Stepped unicode server state (.done index)
        { state with wg := state.wg - 1, handlers := state.handlers.set index .gone }
  | close : Stepped unicode server state .close
        { state with closers := state.closers ++ [.calling] }
  | proceed (index : ℕ) (removed : Bool) (closer : Closer) (next : State)
      (hcloser : state.closers[index]? = some closer)
      (hproceeds : Proceeds state index removed closer next) :
      Stepped unicode server state (.proceed index removed) next

section Stepped

variable {unicode : Unicode} {server : Server} {state next : State} {action : Action}

theorem Stepped.acceptor_still {following : Acceptor}
    (hmoves : state.acceptor.Moves state.stopped state.listening following 0) :
    Stepped unicode server state action { state with acceptor := following } := by
  have hstepped : Stepped unicode server state action _ := .acceptor action _ _ hmoves
  rwa [add_zero] at hstepped

theorem stepped_of_step (hstep : step unicode server state action = some next) :
    Stepped unicode server state action next := by
  cases action with
  | serve =>
      cases hacceptor : state.acceptor with
      | absent =>
          simp only [step, hacceptor, Option.some.injEq] at hstep
          subst hstep
          exact .serve hacceptor
      | _ => simp [step, hacceptor] at hstep
  | accept =>
      cases hacceptor : state.acceptor with
      | accepting =>
          simp only [step, hacceptor] at hstep
          obtain ⟨hlistening, hnext⟩ := Option.ite_none_right_eq_some.1 hstep
          cases hnext
          exact .acceptor_still (hacceptor ▸ .accept hlistening)
      | _ => simp [step, hacceptor] at hstep
  | acceptFails err =>
      cases hacceptor : state.acceptor with
      | accepting =>
          simp only [step, hacceptor] at hstep
          obtain ⟨herr, hnext⟩ := Option.ite_none_right_eq_some.1 hstep
          cases hnext
          exact .acceptor_still (hacceptor ▸ .acceptFails err herr)
      | _ => simp [step, hacceptor] at hstep
  | select =>
      cases hacceptor : state.acceptor with
      | failed err =>
          simp only [step, hacceptor, Option.some.injEq] at hstep
          subst hstep
          refine .acceptor_still (hacceptor ▸ ?_)
          cases hstopped : state.stopped with
          | true => exact .giveUp err
          | false =>
              cases err with
              | closed => exact .giveUp _
              | other => exact .retry _ rfl
      | _ => simp [step, hacceptor] at hstep
  | dispatch =>
      cases hacceptor : state.acceptor with
      | accepted =>
          simp only [step, hacceptor, Option.some.injEq] at hstep
          subst hstep
          exact .dispatch hacceptor
      | _ => simp [step, hacceptor] at hstep
  | leave =>
      cases hacceptor : state.acceptor with
      | leaving =>
          simp only [step, hacceptor, Option.some.injEq] at hstep
          subst hstep
          exact .acceptor _ _ _ (hacceptor ▸ .leave)
      | _ => simp [step, hacceptor] at hstep
  | advance index answers =>
      simp only [step] at hstep
      split at hstep
      · cases hstep
        exact .advance index answers _ _ ‹_›
      · cases hstep
  | done index =>
      simp only [step] at hstep
      split at hstep
      · cases hstep
        exact .done index _ ‹_›
      · cases hstep
  | close =>
      cases hstep
      exact .close
  | proceed index removed =>
      obtain ⟨closer, hcloser, hnext⟩ := Option.bind_eq_some_iff.1 hstep
      exact .proceed index removed closer next hcloser (proceeds_of_proceed hnext)

end Stepped

/-! ## The wait group -/

/-- What the wait group counts for the acceptor. -/
def Acceptor.live : Acceptor → ℕ
  | .absent | .gone => 0
  | .accepting | .failed _ | .accepted | .leaving => 1

/-- What it counts for a connection. -/
def Handler.live : Handler → ℕ
  | .running _ => 1
  | .gone => 0

/-- The goroutines that have not called `Done`. -/
def State.goroutines (state : State) : ℕ :=
  state.acceptor.live + (state.handlers.map Handler.live).sum

theorem Acceptor.Moves.live {stopped listening : Bool} {acceptor next : Acceptor} {change : ℤ}
    (hmoves : acceptor.Moves stopped listening next change) :
    (next.live : ℤ) = acceptor.live + change := by
  cases hmoves <;> rfl

/-- A sum over a list changes by what changes at one index. -/
theorem sum_map_set {α : Type} (weight : α → ℕ) {items : List α} {index : ℕ} {item : α}
    (hitem : items[index]? = some item) (other : α) :
    ((items.set index other).map weight).sum + weight item =
      (items.map weight).sum + weight other := by
  induction items generalizing index with
  | nil => cases hitem
  | cons head tail ih =>
      cases index with
      | zero =>
          obtain rfl : head = item := by simpa using hitem
          simp only [List.set_cons_zero, List.map_cons, List.sum_cons]
          omega
      | succ index =>
          have htail := ih (show tail[index]? = some item by simpa using hitem)
          simp only [List.set_cons_succ, List.map_cons, List.sum_cons]
          omega

/-- No connection is served or about to be. -/
def State.Quiet (state : State) : Prop :=
  state.acceptor ≠ .accepted ∧ ∀ handler ∈ state.handlers, handler = .gone

theorem quiet_of_no_goroutines {state : State} (hnone : state.goroutines = 0) : state.Quiet := by
  obtain ⟨hacceptor, hhandlers⟩ := Nat.add_eq_zero_iff.1 hnone
  constructor
  · intro haccepted
    rw [haccepted] at hacceptor
    cases hacceptor
  · intro handler hhandler
    have hlive := List.sum_eq_zero_iff_forall_eq_nat.1 hhandlers _ (List.mem_map_of_mem hhandler)
    cases handler with
    | running prog => cases hlive
    | gone => rfl

/-! ## What closing achieves -/

/-- The call runs the function of the `Once`. -/
def Closer.Active : Closer → Prop
  | .stopping | .closing | .waiting | .removing => True
  | .calling | .returned => False

/-- What is so when a call of `Close` is at a statement. -/
def Closer.Reached (state : State) : Closer → Prop
  | .calling | .stopping => True
  | .closing => state.stopped = true
  | .waiting => state.stopped = true ∧ state.listening = false
  | .removing | .returned => state.stopped = true ∧ state.listening = false ∧ state.Quiet

structure Sound (state : State) : Prop where
  counted : state.wg = state.goroutines
  fresh : state.once = .fresh → ∀ closer ∈ state.closers, closer = .calling
  busy : state.once = .busy → ∃ closer ∈ state.closers, closer.Active
  finished : state.once = .finished →
    state.stopped = true ∧ state.listening = false ∧ state.Quiet
  reached : ∀ closer ∈ state.closers, closer.Reached state
  closed : state.listening = false → state.stopped = true

/-- What was reached stays so. -/
theorem Closer.Reached.mono {state next : State} {closer : Closer}
    (hreached : closer.Reached state) (hstopped : state.stopped = true → next.stopped = true)
    (hlistening : state.listening = false → next.listening = false)
    (hquiet : state.listening = false → state.Quiet → next.Quiet) : closer.Reached next := by
  cases closer with
  | calling => trivial
  | stopping => trivial
  | closing => exact hstopped hreached
  | waiting => exact ⟨hstopped hreached.1, hlistening hreached.2⟩
  | removing =>
      exact ⟨hstopped hreached.1, hlistening hreached.2.1, hquiet hreached.2.1 hreached.2.2⟩
  | returned =>
      exact ⟨hstopped hreached.1, hlistening hreached.2.1, hquiet hreached.2.1 hreached.2.2⟩

section Sound

variable {unicode : Unicode} {server : Server} {state next : State} {action : Action}

/-- A step of a goroutine that serves: the calls of `Close` stand where they stood. -/
theorem Sound.serving (hsound : Sound state) (hcounted : next.wg = next.goroutines)
    (honce : next.once = state.once) (hclosers : next.closers = state.closers)
    (hstopped : next.stopped = state.stopped) (hlistening : next.listening = state.listening)
    (hquiet : state.listening = false → state.Quiet → next.Quiet) : Sound next where
  counted := hcounted
  fresh := by
    rw [honce, hclosers]
    exact hsound.fresh
  busy := by
    rw [honce, hclosers]
    exact hsound.busy
  finished := by
    rw [honce, hstopped, hlistening]
    intro hfinished
    obtain ⟨hstop, hclosed, hstill⟩ := hsound.finished hfinished
    exact ⟨hstop, hclosed, hquiet hclosed hstill⟩
  reached := by
    rw [hclosers]
    intro closer hcloser
    exact (hsound.reached closer hcloser).mono (by rw [hstopped]; exact id)
      (by rw [hlistening]; exact id) hquiet
  closed := by
    rw [hlistening, hstopped]
    exact hsound.closed

theorem Sound.acceptor (hsound : Sound state) {following : Acceptor} {change : ℤ}
    (hmoves : state.acceptor.Moves state.stopped state.listening following change) :
    Sound { state with wg := state.wg + change, acceptor := following } := by
  apply hsound.serving <;> try rfl
  · change state.wg + change = ((following.live + _ : ℕ) : ℤ)
    rw [hsound.counted, State.goroutines, Nat.cast_add, Nat.cast_add, hmoves.live]
    ring
  · intro hclosed hquiet
    refine ⟨?_, hquiet.2⟩
    rintro rfl
    generalize state.acceptor = acceptor at hmoves
    cases hmoves with
    | accept hlistening => exact absurd (hclosed.symm.trans hlistening) (by decide)

theorem Sound.proceed (hsound : Sound state) {index : ℕ} {removed : Bool} {closer : Closer}
    (hcloser : state.closers[index]? = some closer)
    (hproceeds : Proceeds state index removed closer next) : Sound next := by
  have hmem : closer ∈ state.closers := List.mem_of_getElem? hcloser
  have hreached := hsound.reached closer hmem
  have hindex : index < state.closers.length := (List.getElem?_eq_some_iff.1 hcloser).1
  have hset (moved : Closer) : moved ∈ state.closers.set index moved :=
    List.mem_set hindex _
  cases hproceeds with
  | enter hfresh =>
      refine ⟨hsound.counted, nofun, fun _ => ⟨_, hset _, trivial⟩, nofun, ?_, hsound.closed⟩
      intro other hother
      rcases List.mem_or_eq_of_mem_set hother with hold | rfl
      · exact hsound.reached other hold
      · trivial
  | skip hfinished =>
      refine ⟨hsound.counted, fun hfresh => ?_, fun hbusy => ?_, hsound.finished, ?_,
        hsound.closed⟩
      · exact absurd (hfinished.symm.trans hfresh) nofun
      · exact absurd (hfinished.symm.trans hbusy) nofun
      · intro other hother
        rcases List.mem_or_eq_of_mem_set hother with hold | rfl
        · exact hsound.reached other hold
        · exact hsound.finished hfinished
  | stop =>
      refine ⟨hsound.counted, fun hfresh => ?_, fun _ => ⟨_, hset _, trivial⟩,
        fun hfinished => ⟨rfl, (hsound.finished hfinished).2⟩, ?_, fun _ => rfl⟩
      · exact absurd (hsound.fresh hfresh _ hmem) nofun
      · intro other hother
        rcases List.mem_or_eq_of_mem_set hother with hold | rfl
        · exact (hsound.reached other hold).mono (fun _ => rfl) id fun _ => id
        · rfl
  | close =>
      refine ⟨hsound.counted, fun hfresh => ?_, fun _ => ⟨_, hset _, trivial⟩,
        fun hfinished => ⟨hreached, rfl, (hsound.finished hfinished).2.2⟩, ?_, fun _ => hreached⟩
      · exact absurd (hsound.fresh hfresh _ hmem) nofun
      · intro other hother
        rcases List.mem_or_eq_of_mem_set hother with hold | rfl
        · exact (hsound.reached other hold).mono id (fun _ => rfl) fun _ => id
        · exact ⟨hreached, rfl⟩
  | wait hwg =>
      have hquiet : state.Quiet :=
        quiet_of_no_goroutines (Nat.cast_eq_zero.1 (hsound.counted.symm.trans hwg))
      refine ⟨hsound.counted, fun hfresh => ?_, fun _ => ⟨_, hset _, trivial⟩, hsound.finished, ?_,
        hsound.closed⟩
      · exact absurd (hsound.fresh hfresh _ hmem) nofun
      · intro other hother
        rcases List.mem_or_eq_of_mem_set hother with hold | rfl
        · exact hsound.reached other hold
        · exact ⟨hreached.1, hreached.2, hquiet⟩
  | remove =>
      refine ⟨hsound.counted, nofun, nofun, fun _ => hreached, ?_, hsound.closed⟩
      intro other hother
      rcases List.mem_or_eq_of_mem_set hother with hold | rfl
      · exact hsound.reached other hold
      · exact hreached

theorem Sound.step (hsound : Sound state) (hstep : Stepped unicode server state action next) :
    Sound next := by
  cases hstep with
  | serve habsent =>
      apply hsound.serving <;> try rfl
      · change state.wg + 1 = ((1 + _ : ℕ) : ℤ)
        rw [hsound.counted, State.goroutines, habsent, Acceptor.live, Nat.zero_add, Nat.cast_add]
        ring
      · exact fun _ hquiet => ⟨nofun, hquiet.2⟩
  | acceptor action following change hmoves => exact hsound.acceptor hmoves
  | dispatch haccepted =>
      apply hsound.serving <;> try rfl
      · rw [hsound.counted, State.goroutines, State.goroutines, haccepted]
        simp only [Acceptor.live, List.map_append, List.map_cons, List.map_nil, List.sum_append,
          List.sum_cons, List.sum_nil, Handler.live]
        push_cast
        ring
      · exact fun _ hquiet => absurd haccepted hquiet.1
  | advance index answers op rest hhandler =>
      have hrunning := List.mem_of_getElem? hhandler
      apply hsound.serving <;> try rfl
      · have hsum := sum_map_set Handler.live hhandler (.running (rest (answers op)))
        simp only [Handler.live, Nat.add_right_cancel_iff] at hsum
        simp only [hsound.counted, State.goroutines, hsum]
      · exact fun _ hquiet => nomatch hquiet.2 _ hrunning
  | done index value hhandler =>
      have hrunning := List.mem_of_getElem? hhandler
      apply hsound.serving <;> try rfl
      · have hsum := sum_map_set Handler.live hhandler .gone
        simp only [Handler.live, Nat.add_zero] at hsum
        simp only [hsound.counted, State.goroutines, ← hsum]
        push_cast
        ring
      · exact fun _ hquiet => nomatch hquiet.2 _ hrunning
  | close =>
      refine ⟨hsound.counted, fun hfresh => ?_, fun hbusy => ?_, hsound.finished, ?_,
        hsound.closed⟩
      · intro closer hcloser
        rcases List.mem_append.1 hcloser with hold | hnew
        · exact hsound.fresh hfresh closer hold
        · exact List.mem_singleton.1 hnew
      · obtain ⟨closer, hcloser, hactive⟩ := hsound.busy hbusy
        exact ⟨closer, List.mem_append_left _ hcloser, hactive⟩
      · intro closer hcloser
        rcases List.mem_append.1 hcloser with hold | hnew
        · exact hsound.reached closer hold
        · rw [List.mem_singleton.1 hnew]
          trivial
  | proceed index removed closer next hcloser hproceeds => exact hsound.proceed hcloser hproceeds

theorem sound_of_reachable {allowed : State → Action → Prop}
    (hstate : (lifecycle unicode server).Reachable allowed state) : Sound state := by
  refine hstate.invariant ⟨rfl, ?_, nofun, nofun, ?_, nofun⟩
    fun state action next _ hsound _ hstep => hsound.step (stepped_of_step hstep)
  · exact fun _ closer hcloser => absurd hcloser List.not_mem_nil
  · exact fun closer hcloser => absurd hcloser List.not_mem_nil

end Sound

/-- In every reachable state the wait group counts the goroutines that serve, so it is
never negative and `dispatch` never adds to a group that is empty.  Once a call of `Close`
has returned, whichever it is, the listener is closed, no connection is being served, and
none is accepted any more. -/
theorem closed_server_quiet (unicode : Unicode) (server : Server) {state : State}
    (hstate : (lifecycle unicode server).Reachable System.Unrestricted state) :
    state.wg = state.goroutines ∧
    (state.acceptor = .accepted → 0 < state.wg) ∧
    (.returned ∈ state.closers →
      state.listening = false ∧ state.acceptor ≠ .accepted ∧
        ∀ handler ∈ state.handlers, handler = .gone) := by
  have hsound := sound_of_reachable hstate
  refine ⟨hsound.counted, fun haccepted => ?_, fun hreturned => ?_⟩
  · rw [hsound.counted, State.goroutines, haccepted, Acceptor.live]
    omega
  · obtain ⟨_, hclosed, hquiet⟩ := hsound.reached _ hreturned
    exact ⟨hclosed, hquiet⟩

/-! ## A server that is closed while it serves -/

def emptyServer : Server where
  cfg := { requireProtection := true, identifyCallers := false, requirePodIdentity := false }
  bindings := []

/-- The answers for a client that sends no request. -/
def silentClient : (op : Op) → op.Ans
  | .setDeadline => none
  | .isUnixConn => true
  | .peerCred => .ok ⟨5⟩
  | .decode => .error (str "EOF")
  | .identify _ => ({}, none)
  | .processStartTime _ => .error []
  | .protectPID _ | .trackPID _ | .unprotectPID _ => none
  | .onIssued _ _ | .onDenied _ _ => ()
  | .reply _ => none
  | .listProtectedPIDs => .ok []
  | .alive _ => false

/-- A connection is accepted, and the listener is closed while it is served. -/
def interrupted : List Action :=
  [.serve, .accept, .dispatch, .close, .proceed 0 true, .proceed 0 true, .proceed 0 true]

/-- The connection and the acceptor come to their ends, and so does `Close`. -/
def drain : List Action :=
  List.replicate 5 (.advance 0 silentClient) ++
    [.acceptFails .closed, .select, .done 0, .leave, .proceed 0 true, .proceed 0 true]

theorem drained_server_quiet :
    ∃ state, (lifecycle Unicode.ascii emptyServer).Reachable System.Unrestricted state ∧
      .returned ∈ state.closers ∧ state.handlers.length = 1 ∧
      ∀ handler ∈ state.handlers, handler = .gone := by
  obtain ⟨state, hstate, hreturned, hlength⟩ : ∃ state,
      (lifecycle Unicode.ascii emptyServer).Reachable System.Unrestricted state ∧
        .returned ∈ state.closers ∧ state.handlers.length = 1 :=
    System.exists_reachable (interrupted ++ drain) (by decide)
  exact ⟨state, hstate, hreturned, hlength,
    ((closed_server_quiet Unicode.ascii emptyServer hstate).2.2 hreturned).2.2⟩

/-! ## Closing comes to an end -/

section Bounds

variable {unicode : Unicode} {server : Server}

theorem within_denied (pid : UInt32) (reason : GoString) (response : Response) :
    (denied server pid reason >>= fun _ => pure response).Within 1 := by
  rw [denied]
  split_ifs
  · exact fun _ => trivial
  · trivial

theorem within_issued (pid : UInt32) (names : List GoString) (response : Response) :
    (issued server pid names >>= fun _ => pure response).Within 1 := by
  rw [issued]
  split_ifs
  · exact fun _ => trivial
  · trivial

theorem within_identify (pid : UInt32) : (identify server pid).Within 1 := by
  rw [identify]
  split_ifs
  · exact fun _ => trivial
  · trivial
  · trivial

theorem within_release (pid : UInt32) (matched : Match) :
    (release server pid matched).Within 6 := by
  rw [release]
  simp only [perform_bind]
  intro before
  cases before with
  | error err => exact (within_denied pid _ _).mono (by decide)
  | ok startBefore =>
      intro protectErr trackErr startAfter
      beta_reduce
      split_ifs
      · exact (within_denied pid _ _).mono (by decide)
      · exact (within_issued pid _ _).mono (by decide)
      · exact fun _ => within_denied pid _ _

theorem within_conclude (pid : UInt32) (verdict : Verdict) :
    (conclude server pid verdict).Within 6 := by
  cases verdict with
  | deny reason error => exact (within_denied pid _ _).mono (by decide)
  | allow warning => trivial
  | release matched => exact within_release pid matched

theorem within_handle (cred : Ucred) (req : Request) :
    (handle unicode server cred req).Within 7 := by
  rw [handle_eq]
  apply within_ite
  · exact (within_conclude _ _).mono (by decide)
  · exact within_bind (within_identify _) fun identified => within_conclude _ _

/-- A connection makes at most twelve calls. -/
theorem within_handleConn : (handleConn unicode server).Within 12 := by
  rw [handleConn]
  simp only [perform_bind]
  intro deadline
  cases deadline with
  | some err => trivial
  | none =>
      intro isUnix
      apply within_ite
      · trivial
      intro cred
      cases cred with
      | error err => exact fun _ => trivial
      | ok cred =>
          intro decoded
          cases decoded with
          | error err => exact fun _ => trivial
          | ok req =>
              have hreply (response : Response) :
                  (reply response >>= fun _ => pure () : Program Unit).Within 1 := fun _ => trivial
              exact within_bind (within_handle cred req) hreply

end Bounds

/-- The steps other than new calls of `Serve` and `Close`. -/
def Internal (_ : State) : Action → Prop
  | .serve | .close => False
  | _ => True

instance (state : State) : DecidablePred (Internal state)
  | .serve | .close => isFalse id
  | .accept | .acceptFails _ | .select | .dispatch | .leave | .advance _ _ | .done _
  | .proceed _ _ => isTrue trivial

/-- The steps that are left for the acceptor of a closed listener; the connection it may
hold is served first. -/
def Acceptor.work : Acceptor → ℕ
  | .absent | .gone => 0
  | .leaving => 1
  | .failed _ => 2
  | .accepting => 3
  | .accepted => 17

noncomputable def Handler.work : Handler → ℕ
  | .running prog => prog.remaining + 1
  | .gone => 0

def Closer.work : Closer → ℕ
  | .calling => 5
  | .stopping => 4
  | .closing => 3
  | .waiting => 2
  | .removing => 1
  | .returned => 0

noncomputable def State.work (state : State) : ℕ :=
  state.acceptor.work + (state.handlers.map Handler.work).sum +
    (state.closers.map Closer.work).sum

/-- Every connection has a bounded number of calls left. -/
def State.Bounded (state : State) : Prop :=
  ∀ prog, .running prog ∈ state.handlers → prog.Within 12

/-- The listener is closed. -/
structure Closing (state : State) : Prop where
  sound : Sound state
  closed : state.listening = false
  bounded : state.Bounded

section Closing

variable {unicode : Unicode} {server : Server} {state next : State} {action : Action}

theorem State.Bounded.step (hbounded : state.Bounded)
    (hstep : Stepped unicode server state action next) : next.Bounded := by
  cases hstep with
  | dispatch haccepted =>
      intro prog hprog
      rcases List.mem_append.1 hprog with hold | hnew
      · exact hbounded prog hold
      · cases List.mem_singleton.1 hnew
        exact within_handleConn
  | advance index answers op rest hhandler =>
      intro prog hprog
      rcases List.mem_or_eq_of_mem_set hprog with hold | hnew
      · exact hbounded prog hold
      · cases hnew
        exact (hbounded _ (List.mem_of_getElem? hhandler) (answers op)).mono (by decide)
  | done index value hhandler =>
      intro prog hprog
      rcases List.mem_or_eq_of_mem_set hprog with hold | hnew
      · exact hbounded prog hold
      · cases hnew
  | proceed index removed closer next hcloser hproceeds =>
      cases hproceeds <;> exact hbounded
  | _ => exact hbounded

theorem bounded_of_reachable {allowed : State → Action → Prop}
    (hstate : (lifecycle unicode server).Reachable allowed state) : state.Bounded := by
  refine hstate.invariant ?_ fun state action next _ (hbounded : state.Bounded) _ hstep =>
    hbounded.step (stepped_of_step hstep)
  exact fun prog hprog => absurd hprog List.not_mem_nil

theorem closed_step (hclosed : state.listening = false)
    (hstep : Stepped unicode server state action next) : next.listening = false := by
  cases hstep with
  | proceed index removed closer next hcloser hproceeds =>
      cases hproceeds with
      | close => rfl
      | _ => exact hclosed
  | _ => exact hclosed

theorem Acceptor.Moves.work_lt {acceptor following : Acceptor} {change : ℤ}
    (hmoves : acceptor.Moves true false following change) : following.work < acceptor.work := by
  cases hmoves with
  | accept hlistening => cases hlistening
  | acceptFails err herr => exact Nat.lt_succ_self 2
  | retry err hstopped => cases hstopped
  | giveUp err => exact Nat.lt_succ_self 1
  | leave => exact Nat.zero_lt_one

theorem Proceeds.work_lt {index : ℕ} {removed : Bool} {closer : Closer}
    (hcloser : state.closers[index]? = some closer)
    (hproceeds : Proceeds state index removed closer next) :
    (next.closers.map Closer.work).sum < (state.closers.map Closer.work).sum := by
  have hsum (moved : Closer) := sum_map_set Closer.work hcloser moved
  cases hproceeds with
  | enter hfresh =>
      have henter := hsum .stopping
      simp only [Closer.work] at henter ⊢
      omega
  | skip hfinished =>
      have hskip := hsum .returned
      simp only [Closer.work] at hskip ⊢
      omega
  | stop =>
      have hstop := hsum .closing
      simp only [Closer.work] at hstop ⊢
      omega
  | close =>
      have hclose := hsum .waiting
      simp only [Closer.work] at hclose ⊢
      omega
  | wait hwg =>
      have hwait := hsum .removing
      simp only [Closer.work] at hwait ⊢
      omega
  | remove =>
      have hremove := hsum .returned
      simp only [Closer.work] at hremove ⊢
      omega

/-- Every step leaves less to do. -/
theorem Closing.work_lt (hclosing : Closing state) (hinternal : Internal state action)
    (hstep : Stepped unicode server state action next) : next.work < state.work := by
  cases hstep with
  | serve habsent => exact hinternal.elim
  | close => exact hinternal.elim
  | acceptor action following change hmoves =>
      rw [hclosing.closed, hclosing.sound.closed hclosing.closed] at hmoves
      have hlower := hmoves.work_lt
      simp only [State.work]
      omega
  | dispatch haccepted =>
      have hprog : (handleConn unicode server).remaining ≤ 12 := within_handleConn.remaining_le
      simp only [State.work, haccepted, List.map_append, List.map_cons, List.map_nil,
        List.sum_append, List.sum_cons, List.sum_nil, Acceptor.work, Handler.work]
      omega
  | advance index answers op rest hhandler =>
      have hsum := sum_map_set Handler.work hhandler (.running (rest (answers op)))
      have hlower := (hclosing.bounded _ (List.mem_of_getElem? hhandler)).remaining_lt (answers op)
      simp only [Handler.work] at hsum
      simp only [State.work]
      omega
  | done index value hhandler =>
      have hsum := sum_map_set Handler.work hhandler .gone
      simp only [Handler.work] at hsum
      simp only [State.work]
      omega
  | proceed index removed closer next hcloser hproceeds =>
      have hlower := hproceeds.work_lt hcloser
      have hsame : next.acceptor = state.acceptor ∧ next.handlers = state.handlers := by
        cases hproceeds <;> exact ⟨rfl, rfl⟩
      simp only [State.work, hsame.1, hsame.2]
      omega

/-- What is left to do is bounded by the number of connections and of calls of `Close`. -/
theorem Closing.work_le (hclosing : Closing state) :
    state.work ≤ 17 + 13 * state.handlers.length + 5 * state.closers.length := by
  have hacceptor : state.acceptor.work ≤ 17 := by
    cases state.acceptor <;> simp [Acceptor.work]
  have hhandlers : (state.handlers.map Handler.work).sum ≤ state.handlers.length * 13 := by
    rw [← List.length_map Handler.work]
    refine List.sum_le_card_nsmul _ _ fun work hwork => ?_
    obtain ⟨handler, hhandler, rfl⟩ := List.mem_map.1 hwork
    cases handler with
    | gone => simp [Handler.work]
    | running prog => exact Nat.succ_le_succ (hclosing.bounded prog hhandler).remaining_le
  have hclosers : (state.closers.map Closer.work).sum ≤ state.closers.length * 5 := by
    rw [← List.length_map Closer.work]
    refine List.sum_le_card_nsmul _ _ fun work hwork => ?_
    obtain ⟨closer, _, rfl⟩ := List.mem_map.1 hwork
    cases closer <;> simp [Closer.work]
  simp only [State.work]
  omega

theorem nonempty_ans (op : Op) : Nonempty op.Ans := by
  cases op with
  | identify pid => exact ⟨({}, none)⟩
  | _ => infer_instance

/-- Everything is done. -/
structure State.Settled (state : State) : Prop where
  acceptor : state.acceptor.live = 0
  handlers : ∀ handler ∈ state.handlers, handler = .gone
  closers : ∀ closer ∈ state.closers, closer = .returned

/-- Nothing that serves is left where no step is possible. -/
theorem served_of_stuck
    (hstuck : ∀ action, Internal state action → step unicode server state action = none) :
    state.goroutines = 0 := by
  have hacceptor : state.acceptor.live = 0 := by
    cases hacceptor : state.acceptor with
    | absent => rfl
    | gone => rfl
    | accepting =>
        cases hlistening : state.listening with
        | true => simpa [step, hacceptor, hlistening] using hstuck .accept trivial
        | false => simpa [step, hacceptor, hlistening] using hstuck (.acceptFails .closed) trivial
    | failed err => simpa [step, hacceptor] using hstuck .select trivial
    | accepted => simpa [step, hacceptor] using hstuck .dispatch trivial
    | leaving => simpa [step, hacceptor] using hstuck .leave trivial
  have hhandlers : (state.handlers.map Handler.live).sum = 0 := by
    rw [List.sum_eq_zero_iff_forall_eq_nat]
    intro live hlive
    obtain ⟨handler, hhandler, rfl⟩ := List.mem_map.1 hlive
    obtain ⟨index, hindex⟩ := List.mem_iff_getElem?.1 hhandler
    cases handler with
    | gone => rfl
    | running prog =>
        cases prog with
        | ret value => simpa [step, hindex] using hstuck (.done index) trivial
        | call op rest =>
            simpa [step, hindex] using
              hstuck (.advance index fun op => Classical.choice (nonempty_ans op)) trivial
  rw [State.goroutines, hacceptor, hhandlers]

/-- Nor is a call of `Close`. -/
theorem returned_of_stuck (hsound : Sound state)
    (hstuck : ∀ action, Internal state action → step unicode server state action = none) :
    ∀ closer ∈ state.closers, closer = .returned := by
  have hwg : state.wg = 0 := by
    rw [hsound.counted, served_of_stuck hstuck]
    rfl
  have hstopped (closer : Closer) (hcloser : closer ∈ state.closers) : ∃ index,
      state.proceed index true closer = none := by
    obtain ⟨index, hindex⟩ := List.mem_iff_getElem?.1 hcloser
    refine ⟨index, ?_⟩
    have hnone := hstuck (.proceed index true) trivial
    rwa [step, hindex, Option.bind_some] at hnone
  have hactive (closer : Closer) (hcloser : closer ∈ state.closers) : ¬ closer.Active := by
    intro hactive
    obtain ⟨index, hnone⟩ := hstopped closer hcloser
    cases closer with
    | waiting => simp [State.proceed, hwg] at hnone
    | calling => exact hactive
    | returned => exact hactive
    | _ => cases hnone
  intro closer hcloser
  obtain ⟨index, hnone⟩ := hstopped closer hcloser
  cases closer with
  | returned => rfl
  | calling =>
      cases honce : state.once with
      | fresh => simp [State.proceed, honce] at hnone
      | finished => simp [State.proceed, honce] at hnone
      | busy =>
          obtain ⟨other, hother, hbusy⟩ := hsound.busy honce
          exact absurd hbusy (hactive other hother)
  | _ => exact absurd trivial (hactive _ hcloser)

/-- The steps come to an end exactly when everything is done. -/
theorem stuck_iff_settled (hsound : Sound state) :
    (∀ action, Internal state action → step unicode server state action = none) ↔
      state.Settled := by
  constructor
  · intro hstuck
    have hserved : state.goroutines = 0 := served_of_stuck hstuck
    exact ⟨(Nat.add_eq_zero_iff.1 hserved).1, (quiet_of_no_goroutines hserved).2,
      returned_of_stuck hsound hstuck⟩
  · intro hsettled action hinternal
    cases hnext : step unicode server state action with
    | none => rfl
    | some next =>
        exfalso
        cases stepped_of_step hnext with
        | serve habsent => exact hinternal
        | close => exact hinternal
        | acceptor action following change hmoves =>
            have hlive := hsettled.acceptor
            generalize state.acceptor = acceptor at hmoves hlive
            cases hmoves <;> cases hlive
        | dispatch haccepted =>
            have hlive := hsettled.acceptor
            rw [haccepted] at hlive
            cases hlive
        | advance index answers op rest hhandler =>
            exact nomatch hsettled.handlers _ (List.mem_of_getElem? hhandler)
        | done index value hhandler =>
            exact nomatch hsettled.handlers _ (List.mem_of_getElem? hhandler)
        | proceed index removed closer next hcloser hproceeds =>
            rw [hsettled.closers closer (List.mem_of_getElem? hcloser)] at hproceeds
            cases hproceeds

/-- `Close` has been called. -/
structure Called (state : State) : Prop where
  sound : Sound state
  bounded : state.Bounded
  called : state.closers ≠ []

theorem Stepped.closers_ne_nil (hstep : Stepped unicode server state action next)
    (hcalled : state.closers ≠ []) : next.closers ≠ [] := by
  have hset (index : ℕ) (closer : Closer) : state.closers.set index closer ≠ [] := by
    rw [Ne, List.set_eq_nil_iff]
    exact hcalled
  cases hstep with
  | close => exact List.append_ne_nil_of_right_ne_nil _ (List.cons_ne_nil _ _)
  | proceed index removed closer next hcloser hproceeds =>
      cases hproceeds <;> exact hset index _
  | _ => exact hcalled

theorem Called.stepped (hcalled : Called state)
    (hstep : Stepped unicode server state action next) : Called next :=
  ⟨hcalled.sound.step hstep, hcalled.bounded.step hstep, hstep.closers_ne_nil hcalled.called⟩

/-- A call of `Close` that has returned is left alone. -/
theorem returned_step (hreturned : .returned ∈ state.closers)
    (hstep : Stepped unicode server state action next) : .returned ∈ next.closers := by
  cases hstep with
  | close => exact List.mem_append_left _ hreturned
  | proceed index removed closer next hcloser hproceeds =>
      obtain ⟨other, hother⟩ := List.mem_iff_getElem?.1 hreturned
      have hset (hne : closer ≠ .returned) (moved : Closer) :
          .returned ∈ state.closers.set index moved := by
        have hindex : index ≠ other := by
          rintro rfl
          exact hne (Option.some.inj (hcloser.symm.trans hother))
        exact List.mem_of_getElem? ((List.getElem?_set_ne hindex).trans hother)
      cases hproceeds <;> exact hset nofun _
  | _ => exact hreturned

/-- While the listener is open, some call of `Close` can go on. -/
theorem Called.exists_proceed (hcalled : Called state) (hlistening : state.listening = true) :
    ∃ index next, step unicode server state (.proceed index true) = some next := by
  have hopen : state.listening ≠ false := by
    rw [hlistening]
    decide
  have hproceed {index : ℕ} {closer : Closer} {next : State}
      (hindex : state.closers[index]? = some closer)
      (hnext : state.proceed index true closer = some next) :
      ∃ index next, step unicode server state (.proceed index true) = some next :=
    ⟨index, next, by rw [step, hindex, Option.bind_some, hnext]⟩
  cases honce : state.once with
  | fresh =>
      obtain ⟨closer, hcloser⟩ := List.exists_mem_of_ne_nil _ hcalled.called
      obtain ⟨index, hindex⟩ := List.mem_iff_getElem?.1 hcloser
      rw [hcalled.sound.fresh honce closer hcloser] at hindex
      exact hproceed hindex (by rw [State.proceed, honce])
  | busy =>
      obtain ⟨closer, hcloser, hactive⟩ := hcalled.sound.busy honce
      obtain ⟨index, hindex⟩ := List.mem_iff_getElem?.1 hcloser
      have hreached := hcalled.sound.reached closer hcloser
      cases closer with
      | stopping => exact hproceed hindex rfl
      | closing => exact hproceed hindex rfl
      | waiting => exact absurd hreached.2 hopen
      | removing => exact absurd hreached.2.1 hopen
      | calling => exact hactive.elim
      | returned => exact hactive.elim
  | finished => exact absurd (hcalled.sound.finished honce).2.1 hopen

theorem Called.exists_runs_closed (hcalled : Called state) :
    ∃ schedule final, (lifecycle unicode server).Runs Internal state schedule final ∧
      Called final ∧ final.listening = false := by
  refine System.exists_runs (fun state => (state.closers.map Closer.work).sum)
    (fun state hcalled hopen => ?_) hcalled
  obtain ⟨index, next, hnext⟩ :
      ∃ index next, step unicode server state (.proceed index true) = some next :=
    hcalled.exists_proceed (Bool.eq_true_of_not_eq_false hopen)
  have hstepped := stepped_of_step hnext
  refine ⟨[.proceed index true], next, .cons trivial hnext (.nil next),
    hcalled.stepped hstepped, ?_⟩
  obtain ⟨closer, hcloser, hproceed⟩ := Option.bind_eq_some_iff.1 hnext
  exact (proceeds_of_proceed hproceed).work_lt hcloser

/-- Once `Close` has been called, every call of it can return. -/
theorem Called.exists_runs_returned (hcalled : Called state) :
    ∃ schedule final, (lifecycle unicode server).Runs Internal state schedule final ∧
      .returned ∈ final.closers := by
  obtain ⟨first, closed, hfirst, hclosed, hlistening⟩ :
      ∃ schedule final, (lifecycle unicode server).Runs Internal state schedule final ∧
        Called final ∧ final.listening = false := hcalled.exists_runs_closed
  obtain ⟨rest, final, hrest, ⟨hfinal, _⟩, hsettled⟩ :
      ∃ schedule final, (lifecycle unicode server).Runs Internal closed schedule final ∧
        (Called final ∧ final.listening = false) ∧ final.Settled := by
    refine System.exists_runs State.work (fun state hstate hunsettled => ?_) ⟨hclosed, hlistening⟩
    obtain ⟨hcalled, hlistening⟩ := hstate
    obtain ⟨action, hinternal, hsome⟩ : ∃ action, Internal state action ∧
        step unicode server state action ≠ none := by
      by_contra hnone
      have hstuck (action : Action) (hinternal : Internal state action) :
          step unicode server state action = none :=
        not_not.1 fun hsome => hnone ⟨action, hinternal, hsome⟩
      exact hunsettled ((stuck_iff_settled hcalled.sound).1 hstuck)
    obtain ⟨next, hnext⟩ := Option.ne_none_iff_exists'.1 hsome
    have hstepped := stepped_of_step hnext
    have hclosing : Closing state := ⟨hcalled.sound, hlistening, hcalled.bounded⟩
    exact ⟨[action], next, .cons hinternal hnext (.nil next),
      ⟨hcalled.stepped hstepped, closed_step hlistening hstepped⟩,
      hclosing.work_lt hinternal hstepped⟩
  obtain ⟨closer, hcloser⟩ := List.exists_mem_of_ne_nil _ hfinal.called
  rw [hsettled.closers closer hcloser] at hcloser
  exact ⟨first ++ rest, final, hfirst.trans hrest, hcloser⟩

end Closing

/-- Once the listener is closed, every run without new calls of `Serve` and `Close` ends,
after a number of steps that depends only on how many connections and calls of `Close`
there are, and it can go on until every call of `Close` has returned and every connection
has been served. -/
theorem close_completes (unicode : Unicode) (server : Server) {state final : State}
    {schedule : List Action}
    (hstate : (lifecycle unicode server).Reachable System.Unrestricted state)
    (hclosed : state.listening = false)
    (hruns : (lifecycle unicode server).Runs Internal state schedule final) :
    schedule.length ≤ 17 + 13 * state.handlers.length + 5 * state.closers.length ∧
    ((∀ action, Internal final action → step unicode server final action = none) ↔
      final.Settled) := by
  have hclosing : Closing state :=
    ⟨sound_of_reachable hstate, hclosed, bounded_of_reachable hstate⟩
  have hpreserved (state : State) (action : Action) (next : State) (hclosing : Closing state)
      (hinternal : Internal state action)
      (hstep : (lifecycle unicode server).step state action = some next) :
      Closing next ∧ next.work < state.work := by
    have hstepped := stepped_of_step hstep
    exact ⟨⟨hclosing.sound.step hstepped, closed_step hclosing.closed hstepped,
      hclosing.bounded.step hstepped⟩, hclosing.work_lt hinternal hstepped⟩
  constructor
  · have hlength := hruns.length_le hpreserved hclosing
    have hbound := hclosing.work_le
    omega
  · have hfinal : Closing final := hruns.preserves
      (fun state action next hclosing hinternal hstep =>
        (hpreserved state action next hclosing hinternal hstep).1) hclosing
    exact stuck_iff_settled hfinal.sound

/-- Of the run that is closed while it serves, nothing is left after the drain, which is
short enough. -/
theorem drain_settles :
    ∃ state final, (lifecycle Unicode.ascii emptyServer).Reachable System.Unrestricted state ∧
      state.listening = false ∧
      (lifecycle Unicode.ascii emptyServer).Runs Internal state drain final ∧
      drain.length ≤ 17 + 13 * state.handlers.length + 5 * state.closers.length ∧
      ∀ action, Internal final action → step Unicode.ascii emptyServer final action = none := by
  obtain ⟨state, hstate⟩ : ∃ state, (lifecycle Unicode.ascii emptyServer).replay
      System.Unrestricted {} interrupted = some state := Option.isSome_iff_exists.1 rfl
  obtain ⟨final, hfinal⟩ : ∃ final, (lifecycle Unicode.ascii emptyServer).replay
      Internal state drain = some final := by
    cases hstate
    exact Option.isSome_iff_exists.1 rfl
  have hreachable := System.reachable_of_replay (.init) hstate
  have hcompletes := close_completes Unicode.ascii emptyServer hreachable
    (by cases hstate; rfl) (System.runs_of_replay hfinal)
  refine ⟨state, final, hreachable, by cases hstate; rfl, System.runs_of_replay hfinal,
    hcompletes.1, hcompletes.2.2 ?_⟩
  cases hstate
  cases hfinal
  exact ⟨rfl, by simp, by simp⟩

end KernelSeal.Lifecycle

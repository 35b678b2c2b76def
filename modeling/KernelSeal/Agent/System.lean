import KernelSeal.Core.Transition
import KernelSeal.Server.Release
import Mathlib.Data.Finset.Basic

/-!
# The agent and its processes

The agent's actors run concurrently over the kernel's state: any number of
connections, the handler of exec-monitor events and the reconciler's sweep.
Processes come and go meanwhile.  A process instance is a PID with a start
time; a PID that became free may be given to a new instance.

Every actor is one of the programs of the model, suspended at its next call;
one step of the system answers one call of one actor, or is a step of the
environment.  Each actor keeps the calls it made together with the kernel state
in which they were answered.
-/

namespace KernelSeal.Agent

open KernelSeal.Text
open KernelSeal.Resumption
open KernelSeal.Resumption.Prog
open KernelSeal.Transition
open KernelSeal.Delivery

/-! ## Event handler and reconciler -/

inductive ExecEventType where
  | exec
  | exit
  deriving DecidableEq

/-- The part of an exec-monitor event that its handler acts on. -/
structure ExecEvent where
  eventType : ExecEventType
  pid : UInt32
  deriving DecidableEq

/-- `handleExecEvent`: an exit releases the PID unconditionally, an exec is only
counted. -/
def handleExecEvent (event : ExecEvent) : Program Unit :=
  match event.eventType with
  | .exec => pure ()
  | .exit => do
      let _ ← unprotectPID event.pid

/-- The loop of `Sweep` over the PIDs still to be checked. -/
def sweepPids : List UInt32 → ℕ → Program ℕ
  | [], removed => pure removed
  | pid :: rest, removed =>
      call (Op.alive pid) fun alive =>
        if alive then sweepPids rest removed
        else call (Op.unprotectPID pid) fun err =>
          match err with
          | some _ => sweepPids rest removed
          | none => sweepPids rest (removed + 1)

/-- `(*Reconciler).Sweep`. -/
def sweep : Program (Except GoError ℕ) :=
  call Op.listProtectedPIDs fun listed =>
    match listed with
    | .error err => pure (.error err)
    | .ok pids => do
        let removed ← sweepPids pids 0
        pure (.ok removed)

/-! ## Kernel state -/

/-- A process instance. -/
structure Instance where
  pid : UInt32
  start : UInt64
  deriving DecidableEq

/-- The start time of the process that holds a PID. -/
abbrev Table := UInt32 → Option UInt64

/-- What the agent reads from and writes to the kernel. -/
structure Kernel where
  table : Table := fun _ => none
  protectedPids : Finset UInt32 := ∅

/-- The instance is running. -/
def Kernel.Live (kernel : Kernel) (inst : Instance) : Prop :=
  kernel.table inst.pid = some inst.start

instance (kernel : Kernel) : DecidablePred kernel.Live := fun _ =>
  inferInstanceAs (Decidable (_ = _))

/-- Who runs a program. -/
inductive Actor where
  | connection (peer : Instance)
  | handler (event : ExecEvent)
  | sweep
  deriving DecidableEq

/-- The answers the kernel and the identifier may give.

* `SO_PEERCRED` is the PID of the process that connected;
* identifying a PID nobody holds fails;
* a start time that is read is that of the holder, and reading it may fail;
* the protected PIDs are listed in any order;
* a PID that is found alive has a holder, and looking for one may fail.

Everything else, including whether a write to a map succeeds, is arbitrary. -/
def answerable (kernel : Kernel) (actor : Actor) : (op : Op) → op.Ans → Bool
  | .peerCred => fun answer =>
      match answer, actor with
      | .ok cred, .connection peer => cred.pid.toUInt32 = peer.pid
      | _, _ => true
  | .identify pid => fun answer => (kernel.table pid).isSome || answer.2.isSome
  | .processStartTime pid => fun answer =>
      match answer with
      | .ok start => kernel.table pid = some start
      | .error _ => true
  | .listProtectedPIDs => fun answer =>
      match answer with
      | .ok pids => pids.toFinset = kernel.protectedPids
      | .error _ => true
  | .alive pid => fun answer => !answer || (kernel.table pid).isSome
  | _ => fun _ => true

/-- The effect of a call that succeeds on the protected PIDs. -/
def Kernel.apply (kernel : Kernel) (call : Step) : Kernel :=
  match call with
  | ⟨.protectPID pid, none⟩ =>
      { kernel with protectedPids := insert pid kernel.protectedPids }
  | ⟨.unprotectPID pid, none⟩ =>
      { kernel with protectedPids := kernel.protectedPids.erase pid }
  | _ => kernel

/-! ## The system -/

/-- An answered call and the kernel state it was answered in. -/
structure Event where
  call : Step
  kernel : Kernel

/-- A running actor: what it did and what it will do. -/
structure Thread where
  actor : Actor
  trace : List Event := []
  prog : Program Unit

def Thread.calls (thread : Thread) : List Step := thread.trace.map Event.call

structure State where
  kernel : Kernel := {}
  born : List Instance := []
  events : List ExecEvent := []
  threads : List Thread := []

/-- The steps of the environment and of the agent. -/
inductive Action where
  | spawn (inst : Instance)
  | exit (pid : UInt32) (reported : Bool)
  | exec (pid : UInt32)
  | connect (peer : Instance)
  | deliver
  | sweep
  | advance (index : ℕ) (answers : (op : Op) → op.Ans)

section System

variable (unicode : Unicode) (server : Server)

/-- The program of an actor. -/
def Actor.program : Actor → Program Unit
  | .connection _ => handleConn unicode server
  | .handler event => handleExecEvent event
  | .sweep => Agent.sweep >>= fun _ => pure ()

/-- The thread of an actor that has not made a call yet. -/
def Thread.start (actor : Actor) : Thread where
  actor := actor
  prog := actor.program unicode server

/-- Answer the pending call of a thread. -/
def Thread.answer (thread : Thread) (kernel : Kernel) (op : Op) (next : op.Ans → Program Unit)
    (answer : op.Ans) : Thread :=
  { thread with
    trace := thread.trace ++ [⟨⟨op, answer⟩, kernel⟩]
    prog := next answer }

@[simp]
theorem Thread.calls_answer (thread : Thread) (kernel : Kernel) (op : Op)
    (next : op.Ans → Program Unit) (answer : op.Ans) :
    (thread.answer kernel op next answer).calls = thread.calls ++ [⟨op, answer⟩] := by
  simp [Thread.calls, Thread.answer]

theorem Thread.mem_trace_answer (thread : Thread) (kernel : Kernel) (op : Op)
    (next : op.Ans → Program Unit) (answer : op.Ans) :
    ⟨⟨op, answer⟩, kernel⟩ ∈ (thread.answer kernel op next answer).trace :=
  List.mem_append_right _ (List.mem_singleton_self _)

/-- One step.  The exit of a process may go unreported: the map of tracked PIDs
evicts entries and the ring buffer may be full.  A process is identified by its PID and its
start time, so that start times, which count clock ticks of 10 ms, are taken to tell the
successive holders of a PID apart. -/
def step (state : State) : Action → Option State
  | .spawn inst =>
      if state.kernel.table inst.pid = none ∧ inst ∉ state.born then
        some { state with
          kernel := { state.kernel with
            table := Function.update state.kernel.table inst.pid (some inst.start) }
          born := inst :: state.born }
      else none
  | .exit pid reported =>
      if state.kernel.table pid = none then none
      else some { state with
        kernel := { state.kernel with table := Function.update state.kernel.table pid none }
        events := if reported then state.events ++ [⟨.exit, pid⟩] else state.events }
  | .exec pid =>
      if state.kernel.table pid = none then none
      else some { state with events := state.events ++ [⟨.exec, pid⟩] }
  | .connect peer =>
      if state.kernel.Live peer then
        some { state with
          threads := state.threads ++ [Thread.start unicode server (.connection peer)] }
      else none
  | .deliver =>
      match state.events with
      | [] => none
      | event :: rest =>
          some { state with
            events := rest
            threads := state.threads ++ [Thread.start unicode server (.handler event)] }
  | .sweep =>
      some { state with threads := state.threads ++ [Thread.start unicode server .sweep] }
  | .advance index answers =>
      match state.threads[index]? with
      | none => none
      | some thread =>
          match thread.prog with
          | .ret _ => none
          | .call op next =>
              if answerable state.kernel thread.actor op (answers op) then
                some { state with
                  kernel := state.kernel.apply ⟨op, answers op⟩
                  threads := state.threads.set index
                    (thread.answer state.kernel op next (answers op)) }
              else none

/-- The agent, started before any process it serves. -/
def agent : System State Action where
  init := {}
  step := step unicode server

end System

/-! ## What a step can do -/

/-- The steps of the system, one constructor for each action. -/
inductive Stepped (unicode : Unicode) (server : Server) (state : State) : Action → State → Prop
  | spawn (inst : Instance) (hfree : state.kernel.table inst.pid = none)
      (hfresh : inst ∉ state.born) :
      Stepped unicode server state (.spawn inst)
        { state with
          kernel := { state.kernel with
            table := Function.update state.kernel.table inst.pid (some inst.start) }
          born := inst :: state.born }
  | exit (pid : UInt32) (reported : Bool) (hheld : state.kernel.table pid ≠ none) :
      Stepped unicode server state (.exit pid reported)
        { state with
          kernel := { state.kernel with table := Function.update state.kernel.table pid none }
          events := if reported then state.events ++ [⟨.exit, pid⟩] else state.events }
  | exec (pid : UInt32) (hheld : state.kernel.table pid ≠ none) :
      Stepped unicode server state (.exec pid)
        { state with events := state.events ++ [⟨.exec, pid⟩] }
  | connect (peer : Instance) (hlive : state.kernel.Live peer) :
      Stepped unicode server state (.connect peer)
        { state with
          threads := state.threads ++ [Thread.start unicode server (.connection peer)] }
  | deliver (event : ExecEvent) (rest : List ExecEvent) (hevents : state.events = event :: rest) :
      Stepped unicode server state .deliver
        { state with
          events := rest
          threads := state.threads ++ [Thread.start unicode server (.handler event)] }
  | sweep :
      Stepped unicode server state .sweep
        { state with threads := state.threads ++ [Thread.start unicode server .sweep] }
  | advance (index : ℕ) (answers : (op : Op) → op.Ans) (thread : Thread) (op : Op)
      (next : op.Ans → Program Unit) (hthread : state.threads[index]? = some thread)
      (hprog : thread.prog = .call op next)
      (hanswerable : answerable state.kernel thread.actor op (answers op) = true) :
      Stepped unicode server state (.advance index answers)
        { state with
          kernel := state.kernel.apply ⟨op, answers op⟩
          threads := state.threads.set index
            (thread.answer state.kernel op next (answers op)) }

theorem stepped_of_step {unicode : Unicode} {server : Server} {state next : State}
    {action : Action} (hstep : step unicode server state action = some next) :
    Stepped unicode server state action next := by
  cases action with
  | spawn inst =>
      obtain ⟨hguard, hnext⟩ := Option.ite_none_right_eq_some.1 hstep
      cases hnext
      exact .spawn inst hguard.1 hguard.2
  | exit pid reported =>
      obtain ⟨hheld, hnext⟩ := Option.ite_none_left_eq_some.1 hstep
      cases hnext
      exact .exit pid reported hheld
  | exec pid =>
      obtain ⟨hheld, hnext⟩ := Option.ite_none_left_eq_some.1 hstep
      cases hnext
      exact .exec pid hheld
  | connect peer =>
      obtain ⟨hlive, hnext⟩ := Option.ite_none_right_eq_some.1 hstep
      cases hnext
      exact .connect peer hlive
  | deliver =>
      cases hevents : state.events with
      | nil => simp [step, hevents] at hstep
      | cons event rest =>
          simp only [step, hevents, Option.some.injEq] at hstep
          subst hstep
          exact .deliver event rest hevents
  | sweep =>
      cases hstep
      exact .sweep
  | advance index answers =>
      cases hthread : state.threads[index]? with
      | none => simp [step, hthread] at hstep
      | some thread =>
          cases hprog : thread.prog with
          | ret value => simp [step, hthread, hprog] at hstep
          | call op next =>
              simp only [step, hthread, hprog] at hstep
              obtain ⟨hanswerable, hnext⟩ := Option.ite_none_right_eq_some.1 hstep
              cases hnext
              exact .advance index answers thread op next hthread hprog hanswerable

/-! ## What is true of every thread -/

@[simp]
theorem Kernel.apply_table (kernel : Kernel) (call : Step) :
    (kernel.apply call).table = kernel.table := by
  simp only [Kernel.apply]
  split <;> rfl

theorem Kernel.apply_live (kernel : Kernel) (call : Step) (inst : Instance) :
    (kernel.apply call).Live inst ↔ kernel.Live inst := by
  rw [Kernel.Live, Kernel.Live, Kernel.apply_table]

/-- Only removing a PID takes it from the protected set. -/
theorem Kernel.mem_apply_of_mem {kernel : Kernel} {call : Step} {pid : UInt32}
    (hpid : pid ∈ kernel.protectedPids) (hop : call.op ≠ .unprotectPID pid) :
    pid ∈ (kernel.apply call).protectedPids := by
  simp only [Kernel.apply]
  split
  · exact Finset.mem_insert_of_mem hpid
  · rename_i removed
    exact Finset.mem_erase.2 ⟨fun hsame => hop (hsame ▸ rfl), hpid⟩
  · exact hpid

theorem Kernel.live_spawn_iff (kernel : Kernel) (inst other : Instance) :
    Kernel.Live { kernel with
        table := Function.update kernel.table inst.pid (some inst.start) } other ↔
      other = inst ∨ (other.pid ≠ inst.pid ∧ kernel.Live other) := by
  obtain ⟨pid, start⟩ := inst
  obtain ⟨otherPid, otherStart⟩ := other
  by_cases hpid : otherPid = pid
  · subst hpid
    simp [Kernel.Live, eq_comm]
  · simp [Kernel.Live, hpid]

theorem Kernel.live_exit_iff (kernel : Kernel) (pid : UInt32) (other : Instance) :
    Kernel.Live { kernel with table := Function.update kernel.table pid none } other ↔
      other.pid ≠ pid ∧ kernel.Live other := by
  by_cases hpid : other.pid = pid
  · simp [Kernel.Live, hpid]
  · simp [Kernel.Live, hpid]

/-- The thread followed its program, its calls were answered as the kernel
could answer them, and the process that connected was running when it did: it
is never found running later than a moment at which it was gone. -/
structure Thread.Sound (unicode : Unicode) (server : Server) (kernel : Kernel)
    (born : List Instance) (thread : Thread) : Prop where
  path : Path (thread.actor.program unicode server) thread.calls thread.prog
  answered : ∀ event ∈ thread.trace,
    answerable event.kernel thread.actor event.call.op event.call.answer = true
  peerBorn : ∀ peer, thread.actor = .connection peer → peer ∈ born
  peerGone : ∀ peer, thread.actor = .connection peer →
    (thread.trace.map Event.kernel ++ [kernel]).Pairwise fun earlier later =>
      later.Live peer → earlier.Live peer

/-- Every running process was born, and every thread is sound. -/
structure State.Sound (unicode : Unicode) (server : Server) (state : State) : Prop where
  liveBorn : ∀ inst, state.kernel.Live inst → inst ∈ state.born
  threads : ∀ thread ∈ state.threads, thread.Sound unicode server state.kernel state.born

section Sound

variable {unicode : Unicode} {server : Server}

theorem Thread.Sound.connection {kernel : Kernel} {born : List Instance} {thread : Thread}
    {peer : Instance} (hsound : thread.Sound unicode server kernel born)
    (hactor : thread.actor = .connection peer) :
    Path (handleConn unicode server) thread.calls thread.prog := by
  have hpath := hsound.path
  rw [hactor] at hpath
  exact hpath

theorem Thread.Sound.start {kernel : Kernel} {born : List Instance} {actor : Actor}
    (hborn : ∀ peer, actor = .connection peer → peer ∈ born) :
    (Thread.start unicode server actor).Sound unicode server kernel born where
  path := Path.nil _
  answered _ hevent := absurd hevent List.not_mem_nil
  peerBorn := hborn
  peerGone _ _ := List.pairwise_singleton _ _

/-- A step of somebody else keeps a thread sound, as long as no process that was
already born starts to run. -/
theorem Thread.Sound.mono {kernel kernel' : Kernel} {born born' : List Instance}
    {thread : Thread} (hsound : thread.Sound unicode server kernel born)
    (hborn : born ⊆ born')
    (hlive : ∀ inst ∈ born, kernel'.Live inst → kernel.Live inst) :
    thread.Sound unicode server kernel' born' where
  path := hsound.path
  answered := hsound.answered
  peerBorn peer hpeer := hborn (hsound.peerBorn peer hpeer)
  peerGone peer hpeer := by
    have hpairs := List.pairwise_append.1 (hsound.peerGone peer hpeer)
    refine List.pairwise_append.2 ⟨hpairs.1, List.pairwise_singleton _ _, ?_⟩
    intro earlier hearlier later hlater hpeerLive
    rw [List.mem_singleton.1 hlater] at hpeerLive
    exact hpairs.2.2 earlier hearlier kernel (List.mem_singleton_self _)
      (hlive peer (hsound.peerBorn peer hpeer) hpeerLive)

theorem Thread.Sound.answer {kernel : Kernel} {born : List Instance} {thread : Thread}
    {op : Op} {next : op.Ans → Program Unit} {answer : op.Ans}
    (hsound : thread.Sound unicode server kernel born) (hprog : thread.prog = .call op next)
    (hanswerable : answerable kernel thread.actor op answer = true) :
    (thread.answer kernel op next answer).Sound unicode server kernel born where
  path := by
    have hpath := hsound.path
    rw [hprog] at hpath
    rw [Thread.calls_answer]
    exact hpath.snoc answer
  answered event hevent := by
    rcases List.mem_append.1 hevent with hold | hnew
    · exact hsound.answered event hold
    · rw [List.mem_singleton.1 hnew]
      exact hanswerable
  peerBorn := hsound.peerBorn
  peerGone peer hpeer := by
    have hpairs := hsound.peerGone peer hpeer
    rw [Thread.answer, List.map_append]
    refine List.pairwise_append.2 ⟨hpairs, List.pairwise_singleton _ _, ?_⟩
    intro earlier hearlier later hlater hpeerLive
    rw [List.mem_singleton.1 hlater] at hpeerLive
    rcases List.mem_append.1 hearlier with hold | hnow
    · exact (List.pairwise_append.1 hpairs).2.2 earlier hold kernel
        (List.mem_singleton_self _) hpeerLive
    · rwa [List.mem_singleton.1 hnow]

/-- Every step keeps the system sound. -/
theorem State.Sound.step {state next : State} {action : Action}
    (hsound : state.Sound unicode server)
    (hstep : Stepped unicode server state action next) : next.Sound unicode server := by
  have hstarted {actor : Actor} (hborn : ∀ peer, actor = .connection peer → peer ∈ state.born) :
      ∀ thread ∈ state.threads ++ [Thread.start unicode server actor],
        thread.Sound unicode server state.kernel state.born := by
    intro thread hthread
    rcases List.mem_append.1 hthread with hold | hnew
    · exact hsound.threads thread hold
    · rw [List.mem_singleton.1 hnew]
      exact Thread.Sound.start hborn
  cases hstep with
  | spawn inst hfree hfresh =>
      refine ⟨fun other hlive => ?_, fun thread hthread => ?_⟩
      · rcases (state.kernel.live_spawn_iff inst other).1 hlive with rfl | hold
        · exact List.mem_cons_self
        · exact List.mem_cons_of_mem _ (hsound.liveBorn other hold.2)
      · apply (hsound.threads thread hthread).mono (List.subset_cons_self _ _)
        intro other hborn hlive
        rcases (state.kernel.live_spawn_iff inst other).1 hlive with rfl | hold
        · exact absurd hborn hfresh
        · exact hold.2
  | exit pid reported hheld =>
      refine ⟨fun other hlive => ?_, fun thread hthread => ?_⟩
      · exact hsound.liveBorn other ((state.kernel.live_exit_iff pid other).1 hlive).2
      · apply (hsound.threads thread hthread).mono (List.Subset.refl _)
        intro other _ hlive
        exact ((state.kernel.live_exit_iff pid other).1 hlive).2
  | exec pid hheld => exact ⟨hsound.liveBorn, hsound.threads⟩
  | connect peer hlive =>
      refine ⟨hsound.liveBorn, hstarted fun other hother => ?_⟩
      cases hother
      exact hsound.liveBorn peer hlive
  | deliver event rest hevents =>
      exact ⟨hsound.liveBorn, hstarted fun other hother => nomatch hother⟩
  | sweep => exact ⟨hsound.liveBorn, hstarted fun other hother => nomatch hother⟩
  | advance index answers thread op rest hthread hprog hanswerable =>
      have hsame (inst : Instance) :
          (state.kernel.apply ⟨op, answers op⟩).Live inst → state.kernel.Live inst :=
        (state.kernel.apply_live ⟨op, answers op⟩ inst).1
      refine ⟨fun other hlive => hsound.liveBorn other (hsame other hlive), fun other hother => ?_⟩
      rcases List.mem_or_eq_of_mem_set hother with hold | rfl
      · exact (hsound.threads other hold).mono (List.Subset.refl _) fun inst _ => hsame inst
      · have hadvanced := hsound.threads thread (List.mem_of_getElem? hthread)
        exact (hadvanced.answer hprog hanswerable).mono (List.Subset.refl _)
          fun inst _ => hsame inst

/-- Every reachable state is sound. -/
theorem sound_of_reachable {allowed : State → Action → Prop} {state : State}
    (hstate : (agent unicode server).Reachable allowed state) : state.Sound unicode server := by
  refine hstate.invariant ⟨?_, ?_⟩ fun state action next _ hsound _ hstep =>
    hsound.step (stepped_of_step hstep)
  · intro inst hlive
    exact absurd hlive (by simp [agent, Kernel.Live])
  · intro thread hthread
    exact absurd hthread List.not_mem_nil

end Sound

end KernelSeal.Agent

import KernelSeal.Core.Resumption
import KernelSeal.Core.Transition
import KernelSeal.Bpf.Events
import Mathlib.Logic.Function.Basic

/-!
# The exec monitor

This file models `bpf/exec_monitor.bpf.c` over thread groups.  The kernel counts
the live threads of a group and decrements the counter before an exiting thread
reaches the tracepoint; between the two, and between any two helper calls of a
handler, threads on other CPUs run.  The handlers are programs over their helper
calls, and one step of the system answers one call of one thread.
-/

namespace KernelSeal.ExecMonitor

open KernelSeal.Text
open KernelSeal.Resumption
open KernelSeal.Resumption.Prog
open KernelSeal.Transition
open KernelSeal.Events

/-! ## Handlers -/

/-- The maps that select what is monitored. -/
structure Filters where
  cgroupFilterEnabled : Option UInt8
  targetCgroups : UInt64 → Option UInt8
  binaryFilterEnabled : Option UInt8
  targetBinaries : Chars 16 → Option UInt8

/-- `should_monitor_cgroup`. -/
def shouldMonitorCgroup (filters : Filters) (cgid : UInt64) : Bool :=
  match filters.cgroupFilterEnabled with
  | none => true
  | some enabled => enabled = 0 ∨ filters.targetCgroups cgid = some 1

/-- `should_monitor_binary`. -/
def shouldMonitorBinary (filters : Filters) (comm : Chars 16) : Bool :=
  match filters.binaryFilterEnabled with
  | none => true
  | some enabled => enabled = 0 ∨ filters.targetBinaries comm = some 1

/-- What a handler asks of the kernel. -/
inductive Op where
  | binaryFilterEnabled
  | shouldMonitorCgroup (cgid : UInt64)
  | shouldMonitorBinary (comm : Chars 16)
  | signalLive
  | lookupSeen (pid : UInt32)
  | updateSeen (pid : UInt32) (now : UInt64)
  | deleteSeen (pid : UInt32)
  | reserve
  | submit (event : KsExecEvent)

/-- The counter is absent if the signal structure cannot be read; reserving fails
if the ring buffer has no room, and otherwise gives a record with old contents. -/
@[reducible]
def Op.Ans : Op → Type
  | .binaryFilterEnabled => Option UInt8
  | .shouldMonitorCgroup _ => Bool
  | .shouldMonitorBinary _ => Bool
  | .signalLive => Option ℕ
  | .lookupSeen _ => Option UInt64
  | .updateSeen _ _ => Unit
  | .deleteSeen _ => Unit
  | .reserve => Option KsExecEvent
  | .submit _ => Unit

abbrev Program := Prog Op Op.Ans Unit

/-- The PID was seen during the last 100 ms. -/
def recent (current : Current) (existing : Option UInt64) : Bool :=
  existing.any fun seen => current.now - seen < 100000000

/-- Reserve a record and submit it when it is filled. -/
def send (fill : KsExecEvent → KsExecEvent) : Program :=
  call Op.reserve fun reserved =>
    match reserved with
    | none => ret ()
    | some record => call (Op.submit (fill record)) ret

/-- Report an exec unless the PID was seen just before. -/
def sendExec (current : Current) (fill : KsExecEvent → KsExecEvent) : Program :=
  call (Op.lookupSeen current.pid) fun existing =>
    if recent current existing then ret ()
    else call (Op.updateSeen current.pid current.now) fun _ => send fill

/-- `handle_sys_enter_execve`. -/
def handleSysEnterExecve (current : Current) (argument : Option (Option GoString)) : Program :=
  call Op.binaryFilterEnabled fun enabled =>
    if enabled = some 1 then ret ()
    else call (Op.shouldMonitorCgroup current.cgroupId) fun monitored =>
      if monitored then sendExec current fun record => record.fillExecve current argument
      else ret ()

/-- `handle_sched_process_exec`. -/
def handleSchedProcessExec (current : Current) : Program :=
  call Op.binaryFilterEnabled fun enabled =>
    if enabled = none ∨ enabled = some 0 then ret ()
    else call (Op.shouldMonitorCgroup current.cgroupId) fun monitored =>
      if monitored then
        call (Op.shouldMonitorBinary current.comm) fun monitored =>
          if monitored then sendExec current fun record => record.fillSchedExec current
          else ret ()
      else ret ()

/-- `thread_group_dead`. -/
def threadGroupDead : Option ℕ → Bool
  | none => true
  | some live => live = 0

/-- The end of `handle_sched_process_exit`: the exit passes the filter and is sent. -/
def reportExit (current : Current) : Program :=
  call (Op.shouldMonitorCgroup current.cgroupId) fun monitored =>
    if monitored then send fun record => record.fillExit current else ret ()

/-- The PID is removed from the seen map before the exit is reported. -/
def forgetExit (current : Current) : Program :=
  call (Op.deleteSeen current.pid) fun _ => reportExit current

/-- Only a tracked PID is reported. -/
def trackedExit (current : Current) : Program :=
  call (Op.lookupSeen current.pid) fun existing =>
    match existing with
    | none => ret ()
    | some _ => forgetExit current

/-- `handle_sched_process_exit`. -/
def handleSchedProcessExit (current : Current) : Program :=
  call Op.signalLive fun live =>
    if threadGroupDead live then trackedExit current else ret ()

/-! ## Thread groups -/

/-- A thread with the handler it is in.  A doomed thread was told to exit by a
sibling's `execve`; an exiting one no longer counts as live. -/
inductive Task where
  | running (doomed : Bool) (handler : Program)
  | exiting (handler : Program)

def Task.isLive : Task → Bool
  | .running _ _ => true
  | .exiting _ => false

/-- The handler of the exiting thread has run. -/
def Task.Finished : Task → Prop
  | .exiting (.ret _) => True
  | _ => False

instance : DecidablePred Task.Finished
  | .running _ _ => isFalse id
  | .exiting (.ret _) => isTrue trivial
  | .exiting (.call _ _) => isFalse id

/-- A thread group; `live` is `signal->live`. -/
structure Group where
  live : ℕ := 0
  threads : List Task := []

/-- Every thread that the group ever had is gone. -/
def Group.Gone (group : Group) : Prop := ∀ task ∈ group.threads, task.Finished

instance : DecidablePred Group.Gone := fun _ => inferInstanceAs (Decidable (∀ _ ∈ _, _))

structure State where
  groups : UInt32 → Group := fun _ => {}
  filters : Filters
  seenPids : UInt32 → Option UInt64 := fun _ => none
  ring : List KsExecEvent := []

/-- The steps of threads and of their environment, to which the agent belongs.
`reserved` is the record that the ring buffer gives if the call is for one. -/
inductive Action where
  | fork (tgid : UInt32)
  | clone (tgid : UInt32) (index : ℕ)
  | enterExecve (tgid : UInt32) (index : ℕ) (current : Current)
      (argument : Option (Option GoString))
  | dethread (tgid : UInt32) (index : ℕ)
  | execed (tgid : UInt32) (index : ℕ) (current : Current)
  | exit (tgid : UInt32) (index : ℕ) (current : Current)
  | advance (tgid : UInt32) (index : ℕ) (reserved : Option KsExecEvent)
  | evict (pid : UInt32)
  | trackPID (pid : UInt32)
  | configure (filters : Filters)

def State.setGroup (state : State) (tgid : UInt32) (group : Group) : State :=
  { state with groups := Function.update state.groups tgid group }

@[simp]
theorem State.setGroup_self (state : State) (tgid : UInt32) (group : Group) :
    (state.setGroup tgid group).groups tgid = group := by
  simp [State.setGroup]

theorem State.setGroup_of_ne (state : State) {tgid other : UInt32} (group : Group)
    (hother : other ≠ tgid) : (state.setGroup tgid group).groups other = state.groups other := by
  simp [State.setGroup, hother]

def Group.setTask (group : Group) (index : ℕ) (task : Task) : Group :=
  { group with threads := group.threads.set index task }

/-- A thread told to exit. -/
def Task.doom : Task → Task
  | .running _ handler => .running true handler
  | task => task

/-- All threads but one are told to exit. -/
def Group.dethread (group : Group) (index : ℕ) : Group :=
  { group with
    threads := group.threads.mapIdx fun other task => if other = index then task else task.doom }

/-- The answer to a call of a thread.  The kernel's own structures are taken to be
readable: an exiting task has a signal structure, so `signalLive` is always answered. -/
def State.answer (state : State) (group : Group) (reserved : Option KsExecEvent) :
    (op : Op) → op.Ans
  | .binaryFilterEnabled => state.filters.binaryFilterEnabled
  | .shouldMonitorCgroup cgid => shouldMonitorCgroup state.filters cgid
  | .shouldMonitorBinary comm => shouldMonitorBinary state.filters comm
  | .signalLive => some group.live
  | .lookupSeen pid => state.seenPids pid
  | .updateSeen _ _ => ()
  | .deleteSeen _ => ()
  | .reserve => reserved
  | .submit _ => ()

/-- The effect of a call. -/
def State.apply (state : State) : Op → State
  | .updateSeen pid now => { state with seenPids := Function.update state.seenPids pid (some now) }
  | .deleteSeen pid => { state with seenPids := Function.update state.seenPids pid none }
  | .submit event => { state with ring := state.ring ++ [event] }
  | _ => state

/-- The events that a call submits. -/
def Op.submitted : Op → List KsExecEvent
  | .submit event => [event]
  | _ => []

theorem State.apply_ring (state : State) (op : Op) :
    (state.apply op).ring = state.ring ++ op.submitted := by
  cases op with
  | submit event => rfl
  | _ => exact (List.append_nil _).symm

/-- Only a removal takes a PID from the seen map. -/
theorem State.apply_seenPids {state : State} {op : Op} {pid : UInt32}
    (hop : op ≠ .deleteSeen pid) (hseen : (state.seenPids pid).isSome) :
    ((state.apply op).seenPids pid).isSome := by
  cases op with
  | updateSeen other now =>
      by_cases hother : pid = other
      · simp [State.apply, hother]
      · simpa [State.apply, hother] using hseen
  | deleteSeen other =>
      have hother : pid ≠ other := fun hsame => hop (hsame ▸ rfl)
      simpa [State.apply, hother] using hseen
  | _ => exact hseen

@[simp]
theorem State.apply_groups (state : State) (op : Op) : (state.apply op).groups = state.groups := by
  cases op with
  | _ => rfl

/-- The handler a thread is in, and the thread with another one. -/
def Task.handler : Task → Program
  | .running _ handler => handler
  | .exiting handler => handler

def Task.resume (task : Task) (handler : Program) : Task :=
  match task with
  | .running doomed _ => .running doomed handler
  | .exiting _ => .exiting handler

/-- One step.  A group ID is free once its threads are gone; only a live thread
that is not doomed clones or executes; `execve` returns when all siblings are
gone; an exiting thread decrements the counter and enters the tracepoint.  `TrackPID` of
the agent writes a time long ago. -/
def step (state : State) : Action → Option State
  | .fork tgid =>
      if (state.groups tgid).Gone then
        some (state.setGroup tgid ⟨1, [.running false (ret ())]⟩)
      else none
  | .clone tgid index =>
      let group := state.groups tgid
      match group.threads[index]? with
      | some (.running false (.ret _)) =>
          some (state.setGroup tgid
            ⟨group.live + 1, group.threads ++ [.running false (ret ())]⟩)
      | _ => none
  | .enterExecve tgid index current argument =>
      let group := state.groups tgid
      match group.threads[index]? with
      | some (.running false (.ret _)) =>
          if current.pid = tgid then
            some (state.setGroup tgid
              (group.setTask index (.running false (handleSysEnterExecve current argument))))
          else none
      | _ => none
  | .dethread tgid index =>
      let group := state.groups tgid
      match group.threads[index]? with
      | some (.running false (.ret _)) => some (state.setGroup tgid (group.dethread index))
      | _ => none
  | .execed tgid index current =>
      let group := state.groups tgid
      match group.threads[index]? with
      | some (.running false (.ret _)) =>
          if current.pid = tgid ∧ ∀ task ∈ group.threads.eraseIdx index, task.Finished then
            some (state.setGroup tgid
              (group.setTask index (.running false (handleSchedProcessExec current))))
          else none
      | _ => none
  | .exit tgid index current =>
      let group := state.groups tgid
      match group.threads[index]? with
      | some (.running _ (.ret _)) =>
          if current.pid = tgid then
            some (state.setGroup tgid
              ⟨group.live - 1, group.threads.set index (.exiting (handleSchedProcessExit current))⟩)
          else none
      | _ => none
  | .advance tgid index reserved =>
      let group := state.groups tgid
      match group.threads[index]? with
      | none => none
      | some task =>
          match task.handler with
          | .ret _ => none
          | .call op next =>
              some ((state.apply op).setGroup tgid
                (group.setTask index (task.resume (next (state.answer group reserved op)))))
  | .evict pid => some { state with seenPids := Function.update state.seenPids pid none }
  | .trackPID pid => some { state with seenPids := Function.update state.seenPids pid (some 0) }
  | .configure filters => some { state with filters }

/-- The monitor, attached before the processes it reports on. -/
def monitor (filters : Filters) : System State Action where
  init := { filters }
  step := step

/-! ## What a step can do -/

/-- The steps of the system, one constructor for each action. -/
inductive Stepped (state : State) : Action → State → Prop
  | fork (tgid : UInt32) (hgone : (state.groups tgid).Gone) :
      Stepped state (.fork tgid) (state.setGroup tgid ⟨1, [.running false (ret ())]⟩)
  | clone (tgid : UInt32) (index : ℕ)
      (htask : (state.groups tgid).threads[index]? = some (.running false (ret ()))) :
      Stepped state (.clone tgid index)
        (state.setGroup tgid ⟨(state.groups tgid).live + 1,
          (state.groups tgid).threads ++ [.running false (ret ())]⟩)
  | enterExecve (tgid : UInt32) (index : ℕ) (current : Current)
      (argument : Option (Option GoString))
      (htask : (state.groups tgid).threads[index]? = some (.running false (ret ()))) :
      Stepped state (.enterExecve tgid index current argument)
        (state.setGroup tgid ((state.groups tgid).setTask index
          (.running false (handleSysEnterExecve current argument))))
  | dethread (tgid : UInt32) (index : ℕ)
      (htask : (state.groups tgid).threads[index]? = some (.running false (ret ()))) :
      Stepped state (.dethread tgid index)
        (state.setGroup tgid ((state.groups tgid).dethread index))
  | execed (tgid : UInt32) (index : ℕ) (current : Current)
      (htask : (state.groups tgid).threads[index]? = some (.running false (ret ()))) :
      Stepped state (.execed tgid index current)
        (state.setGroup tgid ((state.groups tgid).setTask index
          (.running false (handleSchedProcessExec current))))
  | exit (tgid : UInt32) (index : ℕ) (current : Current) (doomed : Bool)
      (htask : (state.groups tgid).threads[index]? = some (.running doomed (ret ())))
      (hpid : current.pid = tgid) :
      Stepped state (.exit tgid index current)
        (state.setGroup tgid ⟨(state.groups tgid).live - 1,
          (state.groups tgid).threads.set index (.exiting (handleSchedProcessExit current))⟩)
  | advance (tgid : UInt32) (index : ℕ) (reserved : Option KsExecEvent) (task : Task) (op : Op)
      (next : op.Ans → Program) (htask : (state.groups tgid).threads[index]? = some task)
      (hhandler : task.handler = call op next) :
      Stepped state (.advance tgid index reserved)
        ((state.apply op).setGroup tgid ((state.groups tgid).setTask index
          (task.resume (next (state.answer (state.groups tgid) reserved op)))))
  | evict (pid : UInt32) :
      Stepped state (.evict pid)
        { state with seenPids := Function.update state.seenPids pid none }
  | trackPID (pid : UInt32) :
      Stepped state (.trackPID pid)
        { state with seenPids := Function.update state.seenPids pid (some 0) }
  | configure (filters : Filters) : Stepped state (.configure filters) { state with filters }

theorem stepped_of_step {state next : State} {action : Action}
    (hstep : step state action = some next) : Stepped state action next := by
  cases action with
  | fork tgid =>
      obtain ⟨hgone, hnext⟩ := Option.ite_none_right_eq_some.1 hstep
      cases hnext
      exact .fork tgid hgone
  | clone tgid index =>
      simp only [step] at hstep
      split at hstep
      · cases hstep
        exact .clone tgid index ‹_›
      · cases hstep
  | enterExecve tgid index current argument =>
      simp only [step] at hstep
      split at hstep
      · obtain ⟨_, hnext⟩ := Option.ite_none_right_eq_some.1 hstep
        cases hnext
        exact .enterExecve tgid index current argument ‹_›
      · cases hstep
  | dethread tgid index =>
      simp only [step] at hstep
      split at hstep
      · cases hstep
        exact .dethread tgid index ‹_›
      · cases hstep
  | execed tgid index current =>
      simp only [step] at hstep
      split at hstep
      · obtain ⟨_, hnext⟩ := Option.ite_none_right_eq_some.1 hstep
        cases hnext
        exact .execed tgid index current ‹_›
      · cases hstep
  | exit tgid index current =>
      simp only [step] at hstep
      split at hstep
      · obtain ⟨hpid, hnext⟩ := Option.ite_none_right_eq_some.1 hstep
        cases hnext
        exact .exit tgid index current _ ‹_› hpid
      · cases hstep
  | advance tgid index reserved =>
      cases htask : (state.groups tgid).threads[index]? with
      | none => simp [step, htask] at hstep
      | some task =>
          cases hhandler : task.handler with
          | ret value => simp [step, htask, hhandler] at hstep
          | call op next =>
              simp only [step, htask, hhandler, Option.some.injEq] at hstep
              subst hstep
              exact .advance tgid index reserved task op next htask hhandler
  | evict pid =>
      cases hstep
      exact .evict pid
  | trackPID pid =>
      cases hstep
      exact .trackPID pid
  | configure filters =>
      cases hstep
      exact .configure filters

end KernelSeal.ExecMonitor

import KernelSeal.Bpf.ExecMonitor

/-!
# Exit events of thread groups

The counter of a group is the number of its live threads, and a group that has
none never gains one.  A handler that read the counter as zero may therefore
take its time: whatever it interleaves with, its event is about a process that
is gone.  The last thread to leave reads zero, so one event is sent as long as
nobody else removes the group from the seen map before a handler has found it there.
-/

namespace KernelSeal.ExitEvents

open KernelSeal.Text
open KernelSeal.Resumption
open KernelSeal.Resumption.Prog
open KernelSeal.Transition
open KernelSeal.Transition.System
open KernelSeal.Events
open KernelSeal.ExecMonitor

/-! ## Where a handler is -/

/-- The points of `handle_sched_process_exit`.  Beyond the first the group was
found dead. -/
inductive Stage (tgid : UInt32) (live : ℕ) : Program → Prop
  | entered (current : Current) (hpid : current.pid = tgid) :
      Stage tgid live (handleSchedProcessExit current)
  | tracked (hdead : live = 0) (current : Current) (hpid : current.pid = tgid) :
      Stage tgid live (trackedExit current)
  | forgetting (hdead : live = 0) (current : Current) (hpid : current.pid = tgid) :
      Stage tgid live (forgetExit current)
  | reporting (hdead : live = 0) (current : Current) (hpid : current.pid = tgid) :
      Stage tgid live (reportExit current)
  | sending (hdead : live = 0) (current : Current) (hpid : current.pid = tgid) :
      Stage tgid live (send fun record => record.fillExit current)
  | submitting (hdead : live = 0) (event : KsExecEvent) (hpid : event.pid = tgid) :
      Stage tgid live (call (Op.submit event) ret)
  | returned : Stage tgid live (ret ())

section Stage

variable {tgid : UInt32} {live : ℕ}

/-- A group that is dead stays dead. -/
theorem Stage.mono {later : ℕ} {handler : Program} (hstage : Stage tgid live handler)
    (hdead : live = 0 → later = 0) : Stage tgid later handler := by
  cases hstage with
  | entered current hpid => exact .entered current hpid
  | tracked hzero current hpid => exact .tracked (hdead hzero) current hpid
  | forgetting hzero current hpid => exact .forgetting (hdead hzero) current hpid
  | reporting hzero current hpid => exact .reporting (hdead hzero) current hpid
  | sending hzero current hpid => exact .sending (hdead hzero) current hpid
  | submitting hzero event hpid => exact .submitting (hdead hzero) event hpid
  | returned => exact .returned

/-- A handler whose call is answered is at a point again. -/
theorem Stage.resume {group : Group} {handler : Program} {op : Op} {next : op.Ans → Program}
    (hstage : Stage tgid group.live handler) (hhandler : handler = call op next) (state : State)
    (reserved : Option KsExecEvent) :
    Stage tgid group.live (next (state.answer group reserved op)) := by
  cases hstage with
  | entered current hpid =>
      cases hhandler
      by_cases hdead : group.live = 0
      · simp only [State.answer, threadGroupDead, hdead, decide_true, if_true]
        exact .tracked rfl current hpid
      · simp only [State.answer, threadGroupDead, hdead, decide_false, Bool.false_eq_true, if_false]
        exact .returned
  | tracked hdead current hpid =>
      cases hhandler
      cases hseen : state.seenPids current.pid with
      | none =>
          simp only [State.answer, hseen]
          exact .returned
      | some seen =>
          simp only [State.answer, hseen]
          exact .forgetting hdead current hpid
  | forgetting hdead current hpid =>
      cases hhandler
      exact .reporting hdead current hpid
  | reporting hdead current hpid =>
      cases hhandler
      by_cases hmonitored : shouldMonitorCgroup state.filters current.cgroupId = true
      · simp only [State.answer, hmonitored, if_true]
        exact .sending hdead current hpid
      · simp only [State.answer, hmonitored, Bool.false_eq_true, if_false]
        exact .returned
  | sending hdead current hpid =>
      cases hhandler
      cases reserved with
      | none => exact .returned
      | some record => exact .submitting hdead _ hpid
  | submitting hdead event hpid =>
      cases hhandler
      exact .returned
  | returned => cases hhandler

end Stage

/-- Calls that the exec handlers make. -/
def ExecOp : Op → Prop
  | .deleteSeen _ => False
  | .submit event => event.eventType ≠ eventExit
  | _ => True

theorem opsIn_send {fill : KsExecEvent → KsExecEvent}
    (hfill : ∀ record, (fill record).eventType ≠ eventExit) : (send fill).OpsIn ExecOp := by
  refine ⟨trivial, fun reserved => ?_⟩
  cases reserved with
  | none => trivial
  | some record => exact ⟨hfill record, fun _ => trivial⟩

theorem opsIn_sendExec (current : Current) {fill : KsExecEvent → KsExecEvent}
    (hfill : ∀ record, (fill record).eventType ≠ eventExit) :
    (sendExec current fill).OpsIn ExecOp :=
  ⟨trivial, fun _ => opsIn_ite trivial ⟨trivial, fun _ => opsIn_send hfill⟩⟩

theorem opsIn_handleSysEnterExecve (current : Current) (argument : Option (Option GoString)) :
    (handleSysEnterExecve current argument).OpsIn ExecOp := by
  have hsend : (sendExec current fun record => record.fillExecve current argument).OpsIn ExecOp :=
    opsIn_sendExec current fun _ => (by decide : eventExec ≠ eventExit)
  exact ⟨trivial, fun _ => opsIn_ite trivial ⟨trivial, fun _ => opsIn_ite hsend trivial⟩⟩

theorem opsIn_handleSchedProcessExec (current : Current) :
    (handleSchedProcessExec current).OpsIn ExecOp := by
  have hsend : (sendExec current fun record => record.fillSchedExec current).OpsIn ExecOp :=
    opsIn_sendExec current fun _ => (by decide : eventExec ≠ eventExit)
  exact ⟨trivial, fun _ => opsIn_ite trivial ⟨trivial, fun _ =>
    opsIn_ite ⟨trivial, fun _ => opsIn_ite hsend trivial⟩ trivial⟩⟩

/-! ## The counter -/

/-- A live thread is in an exec handler, if in any; an exiting one is in the exit
handler. -/
def TaskSound (tgid : UInt32) (live : ℕ) : Task → Prop
  | .running _ handler => handler.OpsIn ExecOp
  | .exiting handler => Stage tgid live handler

/-- The counter counts the live threads. -/
structure GroupSound (tgid : UInt32) (group : Group) : Prop where
  count : group.live = group.threads.countP Task.isLive
  tasks : ∀ task ∈ group.threads, TaskSound tgid group.live task

def Sound (state : State) : Prop := ∀ tgid, GroupSound tgid (state.groups tgid)

section Sound

variable {tgid : UInt32} {group : Group} {task : Task} {index : ℕ}

theorem TaskSound.mono {live later : ℕ} (hsound : TaskSound tgid live task)
    (hdead : live = 0 → later = 0) : TaskSound tgid later task := by
  cases task with
  | running doomed handler => exact hsound
  | exiting handler => exact Stage.mono hsound hdead

theorem GroupSound.live_ne_zero (hsound : GroupSound tgid group) (htask : task ∈ group.threads)
    (hlive : task.isLive = true) : group.live ≠ 0 := by
  rw [hsound.count]
  exact (List.countP_pos_iff.2 ⟨task, htask, hlive⟩).ne'

theorem GroupSound.isLive_eq_false (hsound : GroupSound tgid group) (hdead : group.live = 0)
    (htask : task ∈ group.threads) : task.isLive = false := by
  by_contra hlive
  exact hsound.live_ne_zero htask (Bool.eq_true_of_not_eq_false hlive) hdead

/-- A thread changes and stays live, or stays dead. -/
theorem GroupSound.setTask {changed : Task} (hsound : GroupSound tgid group)
    (htask : group.threads[index]? = some task) (hlive : changed.isLive = task.isLive)
    (hchanged : TaskSound tgid group.live changed) :
    GroupSound tgid (group.setTask index changed) := by
  obtain ⟨hindex, hget⟩ := List.getElem?_eq_some_iff.1 htask
  constructor
  · rw [Group.setTask, hsound.count, List.countP_set hindex, hget, hlive]
    have hpos : (if task.isLive = true then 1 else 0) ≤ group.threads.countP Task.isLive := by
      split
      · exact List.countP_pos_iff.2 ⟨task, hget ▸ List.getElem_mem hindex, ‹_›⟩
      · exact Nat.zero_le _
    omega
  · intro other hother
    rcases List.mem_or_eq_of_mem_set hother with hother | rfl
    · exact hsound.tasks other hother
    · exact hchanged

theorem GroupSound.exit {current : Current} {doomed : Bool} {handler : Program}
    (hsound : GroupSound tgid group)
    (htask : group.threads[index]? = some (.running doomed handler)) (hpid : current.pid = tgid) :
    GroupSound tgid ⟨group.live - 1,
      group.threads.set index (.exiting (handleSchedProcessExit current))⟩ := by
  obtain ⟨hindex, hget⟩ := List.getElem?_eq_some_iff.1 htask
  constructor
  · rw [hsound.count, List.countP_set hindex, hget]
    rfl
  · intro other hother
    rcases List.mem_or_eq_of_mem_set hother with hother | rfl
    · refine (hsound.tasks other hother).mono fun hdead => ?_
      change group.live - 1 = 0
      omega
    · exact Stage.entered current hpid

theorem GroupSound.clone (hsound : GroupSound tgid group) (htask : task ∈ group.threads)
    (hlive : task.isLive = true) :
    GroupSound tgid ⟨group.live + 1, group.threads ++ [.running false (ret ())]⟩ := by
  constructor
  · rw [List.countP_append, hsound.count]
    rfl
  · intro other hother
    rcases List.mem_append.1 hother with hother | hother
    · exact (hsound.tasks other hother).mono fun hdead =>
        absurd hdead (hsound.live_ne_zero htask hlive)
    · rw [List.mem_singleton.1 hother]
      trivial

theorem isLive_doom (task : Task) : task.doom.isLive = task.isLive := by
  cases task with
  | running doomed handler => rfl
  | exiting handler => rfl

theorem TaskSound.doom {live : ℕ} (hsound : TaskSound tgid live task) :
    TaskSound tgid live task.doom := by
  cases task with
  | running doomed handler => exact hsound
  | exiting handler => exact hsound

theorem GroupSound.dethread (hsound : GroupSound tgid group) (index : ℕ) :
    GroupSound tgid (group.dethread index) := by
  constructor
  · have hlive : (Task.isLive ∘ fun pair : Task × ℕ =>
        if pair.2 = index then pair.1 else pair.1.doom) = Task.isLive ∘ Prod.fst := by
      funext pair
      by_cases hindex : pair.2 = index
      · simp [hindex]
      · simp [hindex, isLive_doom]
    rw [Group.dethread, hsound.count, List.mapIdx_eq_zipIdx_map, List.countP_map, hlive,
      ← List.countP_map, List.zipIdx_map_fst]
  · intro other hother
    obtain ⟨position, hposition, rfl⟩ := List.mem_mapIdx.1 hother
    have htask := hsound.tasks _ (List.getElem_mem hposition)
    by_cases hindex : position = index
    · rw [if_pos hindex]
      exact htask
    · rw [if_neg hindex]
      exact htask.doom

theorem TaskSound.resume {op : Op} {next : op.Ans → Program}
    (hsound : TaskSound tgid group.live task) (hhandler : task.handler = call op next)
    (state : State) (reserved : Option KsExecEvent) :
    TaskSound tgid group.live (task.resume (next (state.answer group reserved op))) := by
  cases task with
  | running doomed handler =>
      have hops : handler.OpsIn ExecOp := hsound
      rw [show handler = call op next from hhandler] at hops
      exact hops.2 _
  | exiting handler => exact Stage.resume hsound hhandler state reserved

theorem isLive_resume (task : Task) (handler : Program) :
    (task.resume handler).isLive = task.isLive := by
  cases task with
  | running doomed other => rfl
  | exiting other => rfl

/-- A step that changes one group keeps all sound if it keeps that one sound. -/
theorem Sound.setGroup {state : State} {changed : Group} (hsound : Sound state)
    (hchanged : GroupSound tgid changed) : Sound (state.setGroup tgid changed) := by
  intro other
  by_cases hother : other = tgid
  · subst hother
    rw [State.setGroup_self]
    exact hchanged
  · rw [State.setGroup_of_ne _ _ hother]
    exact hsound other

theorem Sound.step {state next : State} {action : Action} (hsound : Sound state)
    (hstepped : Stepped state action next) : Sound next := by
  cases hstepped with
  | fork tgid hgone =>
      refine hsound.setGroup ⟨rfl, fun task htask => ?_⟩
      rw [List.mem_singleton.1 htask]
      trivial
  | clone tgid index htask =>
      exact hsound.setGroup ((hsound tgid).clone (List.mem_of_getElem? htask) rfl)
  | enterExecve tgid index current argument htask =>
      exact hsound.setGroup ((hsound tgid).setTask htask rfl
        (opsIn_handleSysEnterExecve current argument))
  | dethread tgid index htask => exact hsound.setGroup ((hsound tgid).dethread index)
  | execed tgid index current htask =>
      exact hsound.setGroup ((hsound tgid).setTask htask rfl
        (opsIn_handleSchedProcessExec current))
  | exit tgid index current doomed htask hpid =>
      exact hsound.setGroup ((hsound tgid).exit htask hpid)
  | advance tgid index reserved task op next htask hhandler =>
      have happly : Sound (state.apply op) := by
        intro other
        rw [State.apply_groups]
        exact hsound other
      exact happly.setGroup ((hsound tgid).setTask htask (isLive_resume _ _)
        (((hsound tgid).tasks task (List.mem_of_getElem? htask)).resume hhandler state reserved))
  | evict pid => exact hsound
  | trackPID pid => exact hsound
  | configure filters => exact hsound

theorem sound_of_reachable {filters : Filters} {state : State}
    (hstate : Reachable (monitor filters) Unrestricted state) : Sound state := by
  refine hstate.invariant ?_ ?_
  · intro tgid
    exact ⟨rfl, fun task htask => absurd htask List.not_mem_nil⟩
  · intro state action next _ hsound _ hstep
    exact hsound.step (stepped_of_step hstep)

end Sound

/-! ## Safety -/

/-- A handler that is about to submit an exit event found its group dead. -/
theorem TaskSound.of_submit {tgid : UInt32} {live : ℕ} {task : Task} {event : KsExecEvent}
    {next : (Op.submit event).Ans → Program} (hsound : TaskSound tgid live task)
    (hhandler : task.handler = call (Op.submit event) next) (hexit : event.eventType = eventExit) :
    event.pid = tgid ∧ live = 0 := by
  cases task with
  | running doomed handler =>
      have hops : handler.OpsIn ExecOp := hsound
      rw [show handler = call (Op.submit event) next from hhandler] at hops
      exact absurd hexit hops.1
  | exiting handler =>
      have hstage : Stage tgid live handler := hsound
      cases hstage with
      | entered current hpid => cases hhandler
      | tracked hdead current hpid => cases hhandler
      | forgetting hdead current hpid => cases hhandler
      | reporting hdead current hpid => cases hhandler
      | sending hdead current hpid => cases hhandler
      | submitting hdead event hpid =>
          cases hhandler
          exact ⟨hpid, hdead⟩
      | returned => cases hhandler

/-- An exit event is submitted only while no thread of the group is live. -/
theorem exit_of_dead {state next : State} {action : Action} {event : KsExecEvent}
    (hsound : Sound state) (hstepped : Stepped state action next)
    (hring : next.ring = state.ring ++ [event]) (hexit : event.eventType = eventExit) :
    ∀ task ∈ (state.groups event.pid).threads, task.isLive = false := by
  have hkept : next.ring ≠ state.ring := by
    rw [hring]
    simp
  cases hstepped with
  | advance tgid index reserved task op next htask hhandler =>
      cases op with
      | submit submitted =>
          have hsame : submitted = event := by
            simpa [State.setGroup, State.apply] using hring
          subst hsame
          obtain ⟨hpid, hdead⟩ := TaskSound.of_submit
            ((hsound tgid).tasks task (List.mem_of_getElem? htask)) hhandler hexit
          intro other hother
          rw [hpid] at hother
          exact (hsound tgid).isLive_eq_false hdead hother
      | _ => exact absurd rfl hkept
  | _ => exact absurd rfl hkept

/-! ## At least one event -/

/-- A handler that will report the group as long as it is not hindered. -/
inductive Committed (tgid : UInt32) : Program → Prop
  | forgetting (current : Current) (hpid : current.pid = tgid) :
      Committed tgid (forgetExit current)
  | reporting (current : Current) (hpid : current.pid = tgid) :
      Committed tgid (reportExit current)
  | sending (current : Current) (hpid : current.pid = tgid) :
      Committed tgid (send fun record => record.fillExit current)
  | submitting (event : KsExecEvent) (hpid : event.pid = tgid)
      (hexit : event.eventType = eventExit) :
      Committed tgid (call (Op.submit event) ret)

/-- A handler that has not looked the group up yet. -/
inductive Undecided (tgid : UInt32) : Program → Prop
  | entered (current : Current) (hpid : current.pid = tgid) :
      Undecided tgid (handleSchedProcessExit current)
  | tracked (current : Current) (hpid : current.pid = tgid) :
      Undecided tgid (trackedExit current)

/-- Some exiting thread of the group is in such a handler. -/
def Has (group : ExecMonitor.Group) (point : Program → Prop) : Prop :=
  ∃ (index : ℕ) (handler : Program), group.threads[index]? = some (.exiting handler) ∧
    point handler

/-- `reported` has an exit event of the group. -/
def Reported (tgid : UInt32) (reported : List KsExecEvent) : Prop :=
  ∃ event ∈ reported, event.eventType = eventExit ∧ event.pid = tgid

/-- The group was reported, or it is tracked and alive, or one of its handlers will
report it. -/
inductive Awaited (tgid : UInt32) (state : State) (reported : List KsExecEvent) : Prop
  | done (hreported : Reported tgid reported)
  | alive (hlive : (state.groups tgid).live ≠ 0) (hseen : (state.seenPids tgid).isSome)
  | committed (hcommitted : Has (state.groups tgid) (Committed tgid))
  | undecided (hdead : (state.groups tgid).live = 0) (hseen : (state.seenPids tgid).isSome)
      (hundecided : Has (state.groups tgid) (Undecided tgid))

/-- A thread that removes a group from the seen map is an exiting thread of that
group, and the group is dead. -/
theorem TaskSound.of_delete {tgid pid : UInt32} {live : ℕ} {task : Task}
    {next : (Op.deleteSeen pid).Ans → Program} (hsound : TaskSound tgid live task)
    (hhandler : task.handler = call (Op.deleteSeen pid) next) :
    ∃ current, task = .exiting (forgetExit current) ∧ current.pid = tgid ∧ pid = tgid ∧
      live = 0 := by
  cases task with
  | running doomed handler =>
      have hops : handler.OpsIn ExecOp := hsound
      rw [show handler = call (Op.deleteSeen pid) next from hhandler] at hops
      exact absurd hops.1 id
  | exiting handler =>
      have hstage : Stage tgid live handler := hsound
      cases hstage with
      | forgetting hdead current hpid =>
          cases hhandler
          exact ⟨current, rfl, hpid, hpid, hdead⟩
      | entered current hpid => cases hhandler
      | tracked hdead current hpid => cases hhandler
      | reporting hdead current hpid => cases hhandler
      | sending hdead current hpid => cases hhandler
      | submitting hdead event hpid => cases hhandler
      | returned => cases hhandler

section Awaited

variable {tgid : UInt32} {state next : State} {reported later : List KsExecEvent}

theorem Reported.mono (hreported : Reported tgid reported) (hlater : reported ⊆ later) :
    Reported tgid later := by
  obtain ⟨event, hevent, hexit⟩ := hreported
  exact ⟨event, hlater hevent, hexit⟩

/-- What another group does is not noticed. -/
theorem Awaited.frame (hawaited : Awaited tgid state reported)
    (hgroup : next.groups tgid = state.groups tgid)
    (hseen : (state.seenPids tgid).isSome → (next.seenPids tgid).isSome)
    (hlater : reported ⊆ later) : Awaited tgid next later := by
  cases hawaited with
  | done hreported => exact .done (hreported.mono hlater)
  | alive hlive htracked => exact .alive (hgroup ▸ hlive) (hseen htracked)
  | committed hcommitted => exact .committed (hgroup ▸ hcommitted)
  | undecided hdead htracked hundecided =>
      exact .undecided (hgroup ▸ hdead) (hseen htracked) (hgroup ▸ hundecided)

/-- A thread of the group that is not exiting yet does something that leaves the
exiting threads alone. -/
theorem Awaited.regroup {changed : ExecMonitor.Group} (hawaited : Awaited tgid state reported)
    (hkeep : ∀ (index : ℕ) (handler : Program),
      (state.groups tgid).threads[index]? = some (.exiting handler) →
        changed.threads[index]? = some (.exiting handler))
    (halive : (state.groups tgid).live ≠ 0)
    (hchanged : changed.live = 0 → Has changed (Undecided tgid)) :
    Awaited tgid (state.setGroup tgid changed) reported := by
  cases hawaited with
  | done hreported => exact .done hreported
  | alive hlive htracked =>
      by_cases hdead : changed.live = 0
      · exact .undecided (by rwa [State.setGroup_self]) htracked
          (by rw [State.setGroup_self]; exact hchanged hdead)
      · exact .alive (by rwa [State.setGroup_self]) htracked
  | committed hcommitted =>
      obtain ⟨index, handler, hindex, hpoint⟩ := hcommitted
      refine .committed ?_
      rw [State.setGroup_self]
      exact ⟨index, handler, hkeep index handler hindex, hpoint⟩
  | undecided hdead htracked hundecided => exact absurd hdead halive

/-- When all threads are gone the group was reported. -/
theorem Awaited.reported_of_gone (hsound : Sound state) (hawaited : Awaited tgid state reported)
    (hgone : (state.groups tgid).Gone) : Reported tgid reported := by
  cases hawaited with
  | done hreported => exact hreported
  | alive hlive htracked =>
      rw [(hsound tgid).count] at hlive
      obtain ⟨task, htask, hrunning⟩ := List.countP_pos_iff.1 (Nat.pos_of_ne_zero hlive)
      have hfinished := hgone task htask
      cases task with
      | running doomed handler => exact absurd hfinished id
      | exiting handler => cases hrunning
  | committed hcommitted =>
      obtain ⟨index, handler, hindex, hpoint⟩ := hcommitted
      have hfinished := hgone _ (List.mem_of_getElem? hindex)
      cases hpoint with
      | _ => exact absurd hfinished id
  | undecided hdead htracked hundecided =>
      obtain ⟨index, handler, hindex, hpoint⟩ := hundecided
      have hfinished := hgone _ (List.mem_of_getElem? hindex)
      cases hpoint with
      | _ => exact absurd hfinished id

end Awaited

/-- The filter passes the exit of a thread, or the ring buffer has room for it. -/
def unhindered (state : State) (reserved : Option KsExecEvent) : Option Task → Bool
  | some (.exiting (.call (.shouldMonitorCgroup cgid) _)) => shouldMonitorCgroup state.filters cgid
  | some (.exiting (.call .reserve _)) => reserved.isSome
  | _ => true

/-- The kernel evicts the group from the seen map only in such states, the exits of
the group pass the filter and the ring buffer has room for them. -/
def Undisturbed (tgid : UInt32) (evictable : State → Prop) (state : State) : Action → Prop
  | .evict pid => pid = tgid → evictable state
  | .advance group index reserved =>
      group = tgid → unhindered state reserved (state.groups group).threads[index]? = true
  | _ => True

instance (tgid : UInt32) (evictable : State → Prop) [DecidablePred evictable] (state : State) :
    DecidablePred (Undisturbed tgid evictable state)
  | .evict pid => inferInstanceAs (Decidable (pid = tgid → evictable state))
  | .advance group index reserved => inferInstanceAs (Decidable (group = tgid →
      unhindered state reserved (state.groups group).threads[index]? = true))
  | .fork _ => isTrue trivial
  | .clone _ _ => isTrue trivial
  | .enterExecve _ _ _ _ => isTrue trivial
  | .dethread _ _ => isTrue trivial
  | .execed _ _ _ => isTrue trivial
  | .exit _ _ _ => isTrue trivial
  | .trackPID _ => isTrue trivial
  | .configure _ => isTrue trivial

/-- The exiting thread has found its group in the seen map and is about to remove it. -/
def removing : Task → Bool
  | .exiting (.call (.deleteSeen _) _) => true
  | _ => false

/-- If the group is still in the seen map, an exit handler has found it there, or all
its threads are gone. -/
def Found (tgid : UInt32) (state : State) : Prop :=
  (state.seenPids tgid).isSome →
    (state.groups tgid).Gone ∨ ∃ task ∈ (state.groups tgid).threads, removing task = true

instance (tgid : UInt32) : DecidablePred (Found tgid) := fun _ =>
  inferInstanceAs (Decidable (_ → _ ∨ ∃ _ ∈ _, _))

/-- Nobody else removes the group from the seen map before an exit handler has found
it there, its exits pass the filter and the ring buffer has room for them. -/
def Favourable (tgid : UInt32) : State → Action → Prop := Undisturbed tgid (Found tgid)

instance (tgid : UInt32) (state : State) : DecidablePred (Favourable tgid state) :=
  inferInstanceAs (DecidablePred (Undisturbed tgid (Found tgid) state))

section Advance

variable {tgid : UInt32} {state : State} {reported : List KsExecEvent} {index : ℕ} {task : Task}
  {op : Op} {next : op.Ans → Program} {reserved : Option KsExecEvent}

/-- The state after an answered call. -/
def advanced (state : State) (tgid : UInt32) (index : ℕ) (task : Task) (op : Op)
    (answer : Program) : State :=
  (state.apply op).setGroup tgid ((state.groups tgid).setTask index (task.resume answer))

/-- A committed handler goes on, or has just reported the group. -/
theorem Committed.resume {handler : Program} (hcommitted : Committed tgid handler)
    (hhandler : handler = call op next)
    (htask : (state.groups tgid).threads[index]? = some (.exiting handler))
    (hfavourable : Favourable tgid state (.advance tgid index reserved)) :
    Committed tgid (next (state.answer (state.groups tgid) reserved op)) ∨
      Reported tgid op.submitted := by
  have hcondition := hfavourable rfl
  rw [htask] at hcondition
  cases hcommitted with
  | forgetting current hpid =>
      cases hhandler
      exact Or.inl (.reporting current hpid)
  | reporting current hpid =>
      cases hhandler
      have hmonitored : shouldMonitorCgroup state.filters current.cgroupId = true := hcondition
      simp only [State.answer, hmonitored, if_true]
      exact Or.inl (.sending current hpid)
  | sending current hpid =>
      cases hhandler
      have hroom : reserved.isSome = true := hcondition
      cases reserved with
      | none => cases hroom
      | some record => exact Or.inl (.submitting _ hpid rfl)
  | submitting event hpid hexit =>
      cases hhandler
      exact Or.inr ⟨event, List.mem_singleton_self event, hexit, hpid⟩

/-- An undecided handler of a dead group that is tracked stays undecided or
commits itself. -/
theorem Undecided.resume {handler : Program} (hundecided : Undecided tgid handler)
    (hhandler : handler = call op next) (hdead : (state.groups tgid).live = 0)
    (hseen : (state.seenPids tgid).isSome) :
    Undecided tgid (next (state.answer (state.groups tgid) reserved op)) ∨
      Committed tgid (next (state.answer (state.groups tgid) reserved op)) := by
  cases hundecided with
  | entered current hpid =>
      cases hhandler
      simp only [State.answer, threadGroupDead, hdead, decide_true, if_true]
      exact Or.inl (.tracked current hpid)
  | tracked current hpid =>
      cases hhandler
      obtain ⟨seen, hseen⟩ := Option.isSome_iff_exists.1 hseen
      simp only [State.answer, hpid, hseen]
      exact Or.inr (.forgetting current hpid)

/-- Another thread of the group keeps its handler. -/
theorem Has.setTask {point : Program → Prop} {group : ExecMonitor.Group}
    (hhas : Has group point) (index : ℕ) (changed : Task) :
    Has (group.setTask index changed) point ∨
      ∃ handler, group.threads[index]? = some (.exiting handler) ∧ point handler := by
  obtain ⟨position, handler, hposition, hpoint⟩ := hhas
  by_cases hindex : index = position
  · subst hindex
    exact Or.inr ⟨handler, hposition, hpoint⟩
  · refine Or.inl ⟨position, handler, ?_, hpoint⟩
    rw [Group.setTask, List.getElem?_set_ne hindex]
    exact hposition

theorem Has.of_setTask {point : Program → Prop} {group : ExecMonitor.Group} {handler : Program}
    (htask : group.threads[index]? = some task) (hpoint : point handler) :
    Has (group.setTask index (.exiting handler)) point := by
  obtain ⟨hindex, _⟩ := List.getElem?_eq_some_iff.1 htask
  exact ⟨index, handler, List.getElem?_set_self hindex, hpoint⟩

theorem Awaited.advance (hsound : Sound state) (hawaited : Awaited tgid state reported)
    (htask : (state.groups tgid).threads[index]? = some task)
    (hhandler : task.handler = call op next)
    (hfavourable : Favourable tgid state (.advance tgid index reserved)) :
    Awaited tgid (advanced state tgid index task op
      (next (state.answer (state.groups tgid) reserved op))) (reported ++ op.submitted) := by
  have htaskSound := (hsound tgid).tasks task (List.mem_of_getElem? htask)
  have hgroup (answer : Program) : (advanced state tgid index task op answer).groups tgid =
      (state.groups tgid).setTask index (task.resume answer) := by
    rw [advanced, State.setGroup_self]
  cases hawaited with
  | done hreported => exact .done (hreported.mono (List.subset_append_left _ _))
  | alive hlive hseen =>
      have hop : op ≠ .deleteSeen tgid := by
        rintro rfl
        obtain ⟨_, _, _, _, hdead⟩ := htaskSound.of_delete hhandler
        exact hlive hdead
      exact .alive (by rw [hgroup]; exact hlive) (State.apply_seenPids hop hseen)
  | committed hcommitted =>
      rcases hcommitted.setTask index
        (task.resume (next (state.answer (state.groups tgid) reserved op))) with
        hother | ⟨handler, hself, hpoint⟩
      · exact .committed (by rw [hgroup]; exact hother)
      · rw [htask, Option.some.injEq] at hself
        subst hself
        rcases hpoint.resume hhandler htask hfavourable with hnext | hreported
        · refine .committed ?_
          rw [hgroup]
          exact Has.of_setTask htask hnext
        · exact .done (hreported.mono (List.subset_append_right _ _))
  | undecided hdead hseen hundecided =>
      by_cases hop : op = .deleteSeen tgid
      · subst hop
        obtain ⟨current, rfl, hpid, _, _⟩ := htaskSound.of_delete hhandler
        cases hhandler
        refine .committed ?_
        rw [hgroup]
        exact Has.of_setTask htask (.reporting current hpid)
      · have hstays := State.apply_seenPids hop hseen
        rcases hundecided.setTask index
          (task.resume (next (state.answer (state.groups tgid) reserved op))) with
          hother | ⟨handler, hself, hpoint⟩
        · exact .undecided (by rw [hgroup]; exact hdead) hstays (by rw [hgroup]; exact hother)
        · rw [htask, Option.some.injEq] at hself
          subst hself
          rcases hpoint.resume hhandler hdead hseen with hnext | hnext
          · refine .undecided (by rw [hgroup]; exact hdead) hstays ?_
            rw [hgroup]
            exact Has.of_setTask htask hnext
          · refine .committed ?_
            rw [hgroup]
            exact Has.of_setTask htask hnext

end Advance

section Run

variable {tgid : UInt32} {state next : State} {reported : List KsExecEvent} {action : Action}

theorem getElem?_set_exiting {threads : List Task} {index position : ℕ} {task changed : Task}
    {handler : Program} (htask : threads[index]? = some task) (hlive : task.isLive = true)
    (hposition : threads[position]? = some (.exiting handler)) :
    (threads.set index changed)[position]? = some (.exiting handler) := by
  have hindex : index ≠ position := by
    rintro rfl
    rw [htask, Option.some.injEq] at hposition
    subst hposition
    cases hlive
  rw [List.getElem?_set_ne hindex]
  exact hposition

/-- What happens in other groups does not matter. -/
theorem Awaited.setGroup {group : UInt32} {changed : ExecMonitor.Group}
    (hawaited : Awaited tgid state reported)
    (hown : tgid = group → Awaited tgid (state.setGroup group changed) reported) :
    Awaited tgid (state.setGroup group changed) reported := by
  by_cases hgroup : tgid = group
  · exact hown hgroup
  · exact hawaited.frame (State.setGroup_of_ne _ _ hgroup) id (List.Subset.refl _)

/-- A live thread of the group is replaced by a live one. -/
theorem Awaited.setTask {index : ℕ} {task changed : Task} (hsound : Sound state)
    (hawaited : Awaited tgid state reported)
    (htask : (state.groups tgid).threads[index]? = some task) (hlive : task.isLive = true) :
    Awaited tgid (state.setGroup tgid ((state.groups tgid).setTask index changed)) reported := by
  have halive := (hsound tgid).live_ne_zero (List.mem_of_getElem? htask) hlive
  exact hawaited.regroup (fun position handler => getElem?_set_exiting htask hlive) halive
    fun hdead => absurd hdead halive

theorem has_committed_of_removing {task : Task} (hsound : Sound state)
    (htask : task ∈ (state.groups tgid).threads) (hremoving : removing task = true) :
    Has (state.groups tgid) (Committed tgid) := by
  obtain ⟨pid, next, hhandler⟩ :
      ∃ (pid : UInt32) (next : Unit → Program), task.handler = call (Op.deleteSeen pid) next := by
    match task, hremoving with
    | .exiting (.call (.deleteSeen pid) next), _ => exact ⟨pid, next, rfl⟩
  obtain ⟨current, rfl, hpid, _, _⟩ :=
    ((hsound tgid).tasks task htask).of_delete hhandler
  obtain ⟨index, hindex⟩ := List.getElem?_of_mem htask
  exact ⟨index, forgetExit current, hindex, .forgetting current hpid⟩

/-- A group that is evicted once it was found stays awaited. -/
theorem Awaited.evict {pid : UInt32} (hsound : Sound state)
    (hawaited : Awaited tgid state reported) (hfound : pid = tgid → Found tgid state) :
    Awaited tgid { state with seenPids := Function.update state.seenPids pid none } reported := by
  have hkept (hseen : (state.seenPids tgid).isSome → pid ≠ tgid) :
      Awaited tgid { state with seenPids := Function.update state.seenPids pid none } reported :=
    hawaited.frame rfl (fun htracked => by
      simpa [Function.update_of_ne (Ne.symm (hseen htracked))] using htracked)
      (List.Subset.refl _)
  by_cases hpid : pid = tgid
  · by_cases hseen : (state.seenPids tgid).isSome
    · rcases hfound hpid hseen with hgone | ⟨task, htask, hremoving⟩
      · exact .done (hawaited.reported_of_gone hsound hgone)
      · exact .committed (has_committed_of_removing hsound htask hremoving)
    · exact hkept fun htracked => absurd htracked hseen
  · exact hkept fun _ => hpid

/-- A favourable step keeps the group awaited. -/
theorem Awaited.step (hsound : Sound state) (hawaited : Awaited tgid state reported)
    (hfavourable : Favourable tgid state action) (hstepped : Stepped state action next) :
    ∃ events, next.ring = state.ring ++ events ∧ Awaited tgid next (reported ++ events) := by
  have hquiet (hnext : Awaited tgid next reported) (hring : next.ring = state.ring) :
      ∃ events, next.ring = state.ring ++ events ∧ Awaited tgid next (reported ++ events) :=
    ⟨[], by rw [hring, List.append_nil], by rwa [List.append_nil]⟩
  cases hstepped with
  | fork group hgone =>
      refine hquiet (hawaited.setGroup ?_) rfl
      rintro rfl
      exact .done (hawaited.reported_of_gone hsound hgone)
  | clone group index htask =>
      refine hquiet (hawaited.setGroup ?_) rfl
      rintro rfl
      refine hawaited.regroup (fun position handler hposition => ?_)
        ((hsound tgid).live_ne_zero (List.mem_of_getElem? htask) rfl)
        fun hdead => absurd hdead (Nat.succ_ne_zero _)
      rw [List.getElem?_append_left (List.getElem?_eq_some_iff.1 hposition).1]
      exact hposition
  | enterExecve group index current argument htask =>
      refine hquiet (hawaited.setGroup ?_) rfl
      rintro rfl
      exact hawaited.setTask hsound htask rfl
  | dethread group index htask =>
      refine hquiet (hawaited.setGroup ?_) rfl
      rintro rfl
      have halive := (hsound tgid).live_ne_zero (List.mem_of_getElem? htask) rfl
      refine hawaited.regroup (fun position handler hposition => ?_) halive
        fun hdead => absurd hdead halive
      rw [Group.dethread, List.getElem?_mapIdx, hposition]
      simp [Task.doom]
  | execed group index current htask =>
      refine hquiet (hawaited.setGroup ?_) rfl
      rintro rfl
      exact hawaited.setTask hsound htask rfl
  | exit group index current doomed htask hpid =>
      refine hquiet (hawaited.setGroup ?_) rfl
      rintro rfl
      refine hawaited.regroup (fun position handler => getElem?_set_exiting htask rfl)
        ((hsound tgid).live_ne_zero (List.mem_of_getElem? htask) rfl) fun _ => ?_
      exact Has.of_setTask htask (.entered current hpid)
  | advance group index reserved task op next htask hhandler =>
      refine ⟨op.submitted, state.apply_ring op, ?_⟩
      by_cases hgroup : tgid = group
      · subst hgroup
        exact hawaited.advance hsound htask hhandler hfavourable
      · have hop : op ≠ .deleteSeen tgid := by
          rintro rfl
          obtain ⟨_, _, _, hpid, _⟩ :=
            ((hsound group).tasks task (List.mem_of_getElem? htask)).of_delete hhandler
          exact hgroup hpid
        refine hawaited.frame ?_ (State.apply_seenPids hop) (List.subset_append_left _ _)
        rw [State.setGroup_of_ne _ _ hgroup, State.apply_groups]
  | evict pid =>
      exact hquiet (hawaited.evict hsound hfavourable) rfl
  | trackPID pid =>
      -- what `TrackPID` writes over an entry is an entry
      refine hquiet (hawaited.frame rfl (fun htracked => ?_) (List.Subset.refl _)) rfl
      by_cases hpid : tgid = pid
      · simp [hpid]
      · simpa [Function.update_of_ne hpid] using htracked
  | configure filters =>
      exact hquiet (hawaited.frame rfl id (List.Subset.refl _)) rfl

/-- Since `start` the group is awaited. -/
structure Pursued (tgid : UInt32) (start state : State) : Prop where
  sound : Sound state
  awaited : ∃ events, state.ring = start.ring ++ events ∧ Awaited tgid state events

theorem Pursued.step {start : State} (hpursued : Pursued tgid start state)
    (hfavourable : Favourable tgid state action) (hstepped : Stepped state action next) :
    Pursued tgid start next := by
  obtain ⟨events, hring, hevents⟩ := hpursued.awaited
  obtain ⟨more, hmore, hnext⟩ := hevents.step hpursued.sound hfavourable hstepped
  exact ⟨hpursued.sound.step hstepped, events ++ more, by rw [hmore, hring, List.append_assoc],
    hnext⟩

theorem pursued_of_reachable {filters : Filters} {start final : State} (hsound : Sound start)
    (hawaited : Awaited tgid start [])
    (hfinal : Reachable { monitor filters with init := start } (Favourable tgid) final) :
    Pursued tgid start final := by
  refine hfinal.invariant ⟨hsound, [], (List.append_nil _).symm, hawaited⟩ ?_
  intro state action next _ hpursued hfavourable hstep
  exact hpursued.step hfavourable (stepped_of_step hstep)

end Run

/-- An exit event is submitted only when no thread of the group is live; and if the
group is tracked while it is alive, one is submitted by the time all its handlers
have run, provided nobody else removes the group from the seen map before one of them
has found it there, the filter passes and the ring buffer has room. -/
theorem exit_events_sound_and_complete (filters : Filters) :
    (∀ state action next event, Reachable (monitor filters) Unrestricted state →
      (monitor filters).step state action = some next → next.ring = state.ring ++ [event] →
      event.eventType = eventExit →
      ∀ task ∈ (state.groups event.pid).threads, task.isLive = false) ∧
    (∀ state tgid final, Reachable (monitor filters) Unrestricted state →
      (∃ task ∈ (state.groups tgid).threads, task.isLive = true) →
      (state.seenPids tgid).isSome →
      Reachable { monitor filters with init := state } (Favourable tgid) final →
      (final.groups tgid).Gone →
      ∃ events, final.ring = state.ring ++ events ∧
        ∃ event ∈ events, event.eventType = eventExit ∧ event.pid = tgid) := by
  constructor
  · intro state action next event hstate hstep hring hexit
    exact exit_of_dead (sound_of_reachable hstate) (stepped_of_step hstep) hring hexit
  · intro state tgid final hstate halive hseen hfinal hgone
    obtain ⟨task, htask, hlive⟩ := halive
    have hsound := sound_of_reachable hstate
    have hawaited : Awaited tgid state [] :=
      .alive ((hsound tgid).live_ne_zero htask hlive) hseen
    have hpursued := pursued_of_reachable hsound hawaited hfinal
    obtain ⟨events, hring, hevents⟩ := hpursued.awaited
    exact ⟨events, hring, hevents.reported_of_gone hpursued.sound hgone⟩

/-- Nothing is filtered. -/
def noFilters : Filters := ⟨none, fun _ => none, none, fun _ => none⟩

/-- A process executes `psql`, which starts a second thread. -/
def tracking : List Action :=
  [.fork 42, .enterExecve 42 0 psqlTask none] ++
    List.replicate 6 (.advance 42 0 (some staleRecord)) ++ [.clone 42 0]

/-- Both threads decrement the counter before either handler runs. -/
def leaving : List Action :=
  [.exit 42 0 psqlTask, .exit 42 1 psqlTask] ++
    List.replicate 3 (.advance 42 1 none) ++ List.replicate 2 (.advance 42 0 none) ++
    List.replicate 3 (.advance 42 1 (some staleRecord))

def trackedState : State :=
  ((monitor noFilters).replay Unrestricted (monitor noFilters).init tracking).get
    (by decide +kernel)

theorem reachable_trackedState : Reachable (monitor noFilters) Unrestricted trackedState :=
  reachable_of_replay .init (Option.some_get _).symm

def leftState : State :=
  (({ monitor noFilters with init := trackedState } : System State Action).replay
    (Favourable 42) trackedState leaving).get (by decide +kernel)

/-- The two handlers race for the group, and it is reported. -/
theorem two_threads_reported :
    ∃ events, leftState.ring = trackedState.ring ++ events ∧
      ∃ event ∈ events, event.eventType = eventExit ∧ event.pid = 42 := by
  have hleft : Reachable { monitor noFilters with init := trackedState } (Favourable 42)
      leftState :=
    reachable_of_replay .init (Option.some_get _).symm
  exact (exit_events_sound_and_complete noFilters).2 trackedState 42 leftState
    reachable_trackedState (by decide +kernel) (by decide +kernel) hleft (by decide +kernel)

/-- No thread of the group is live. -/
def Dead (tgid : UInt32) (state : State) : Prop :=
  ∀ task ∈ (state.groups tgid).threads, task.isLive = false

instance (tgid : UInt32) : DecidablePred (Dead tgid) := fun _ =>
  inferInstanceAs (Decidable (∀ _ ∈ _, _))

/-- The group is evicted after its last thread has left and before the handler of that
thread looks it up. -/
def evicting : List Action :=
  [.exit 42 0 psqlTask, .exit 42 1 psqlTask, .evict 42] ++
    List.replicate 2 (.advance 42 0 none) ++ List.replicate 2 (.advance 42 1 none)

def evictedState : State :=
  (({ monitor noFilters with init := trackedState } : System State Action).replay
    (Undisturbed 42 (Dead 42)) trackedState evicting).get (by decide +kernel)

/-- It does not suffice that the group stays in the seen map until it is dead. -/
theorem evicted_group_unreported :
    ∃ state final, Reachable (monitor noFilters) Unrestricted state ∧
      (∃ task ∈ (state.groups 42).threads, task.isLive = true) ∧
      (state.seenPids 42).isSome ∧
      Reachable { monitor noFilters with init := state } (Undisturbed 42 (Dead 42)) final ∧
      (final.groups 42).Gone ∧
      ∀ event ∈ final.ring, ¬ (event.eventType = eventExit ∧ event.pid = 42) := by
  have hevicted : Reachable { monitor noFilters with init := trackedState }
      (Undisturbed 42 (Dead 42)) evictedState :=
    reachable_of_replay .init (Option.some_get _).symm
  exact ⟨trackedState, evictedState, reachable_trackedState, by decide +kernel,
    by decide +kernel, hevicted, by decide +kernel, by decide +kernel⟩

end KernelSeal.ExitEvents

import KernelSeal.Agent.Holders

/-!
# What a sweep leaves protected

A sweep drops the protected PIDs that nobody holds.  It cannot tell the process
that a PID was marked for from a later one with the same PID.  This file records
for each PID whose connection marked it last, and shows that what a finished
sweep leaves protected is held by that process, provided that no PID is reused
while its entry is still there and that nothing changes behind the sweep's back.
-/

namespace KernelSeal.Reconciliation

open KernelSeal.Text
open KernelSeal.Resumption
open KernelSeal.Resumption.Prog
open KernelSeal.Transition
open KernelSeal.Transition.System
open KernelSeal.Delivery
open KernelSeal.Connection
open KernelSeal.Agent
open KernelSeal.PidReuse

/-! ## The calls of a sweep -/

/-- The calls `Sweep` makes for the PIDs it listed. -/
inductive Sweeps : Op → Prop
  | alive (pid : UInt32) : Sweeps (.alive pid)
  | unprotectPID (pid : UInt32) : Sweeps (.unprotectPID pid)

/-- The PID whose process a call looks for. -/
def checkedPid : Op → Option UInt32
  | .alive pid => some pid
  | _ => none

/-- The PIDs that the thread has looked for. -/
def checked (thread : Thread) : List UInt32 :=
  thread.calls.filterMap fun call => checkedPid call.op

/-- The PIDs that a call listed. -/
def listing : Step → Option (List UInt32)
  | ⟨.listProtectedPIDs, .ok pids⟩ => some pids
  | _ => none

section Sweep

variable {calls front : List Step} {pids : List UInt32} {pid : UInt32} {removed : ℕ}

theorem checkedPid_eq_some_iff {op : Op} : checkedPid op = some pid ↔ op = .alive pid := by
  cases op <;> simp [checkedPid]

theorem listing_eq_some_iff {call : Step} :
    listing call = some pids ↔ call = ⟨.listProtectedPIDs, .ok pids⟩ := by
  constructor
  · intro hlisting
    obtain ⟨op, answer⟩ := call
    cases op with
    | listProtectedPIDs =>
        cases answer with
        | error err => cases hlisting
        | ok listed =>
            cases hlisting
            rfl
    | _ => cases hlisting
  · rintro rfl
    rfl

theorem mem_checked_iff {thread : Thread} :
    pid ∈ checked thread ↔ ∃ call ∈ thread.calls, call.op = .alive pid := by
  simp [checked, checkedPid_eq_some_iff]

theorem checked_answer (thread : Thread) (kernel : Kernel) (op : Op)
    (rest : op.Ans → Program Unit) (answer : op.Ans) :
    checked (thread.answer kernel op rest answer) = checked thread ++ (checkedPid op).toList := by
  rw [checked, Thread.calls_answer, List.filterMap_append, checked]
  cases hop : checkedPid op <;> simp [hop]

theorem opsIn_sweepPids (pids : List UInt32) (removed : ℕ) :
    (sweepPids pids removed).OpsIn Sweeps := by
  induction pids generalizing removed with
  | nil => trivial
  | cons first rest ih =>
      refine ⟨.alive first, fun alive => ?_⟩
      cases alive with
      | true => exact ih removed
      | false =>
          refine ⟨.unprotectPID first, fun err => ?_⟩
          cases err with
          | some err => exact ih removed
          | none => exact ih (removed + 1)

/-- A PID that is not found is removed next. -/
theorem sweepPids_gone {final : Program ℕ}
    (hpath : Path (sweepPids pids removed) (front ++ [⟨.alive pid, false⟩]) final) :
    final.pending = some (.unprotectPID pid) := by
  induction pids generalizing removed front with
  | nil =>
      obtain ⟨hcalls, _⟩ := path_ret_iff.1 hpath
      simp at hcalls
  | cons first rest ih =>
      rcases path_call_iff.1 hpath with ⟨hcalls, _⟩ | ⟨alive, afterCheck, hcalls, hcheck⟩
      · simp at hcalls
      rcases List.append_eq_cons_iff.1 hcalls with ⟨rfl, hlast⟩ | ⟨middle, rfl, rfl⟩
      · cases hlast
        cases hcheck with
        | nil => rfl
      cases alive with
      | true => exact ih hcheck
      | false =>
      rcases path_call_iff.1 hcheck with ⟨hcalls, _⟩ | ⟨err, afterRemoval, hcalls, hremoval⟩
      · simp at hcalls
      rcases List.append_eq_cons_iff.1 hcalls with ⟨rfl, hlast⟩ | ⟨later, rfl, rfl⟩
      · cases hlast
      cases err with
      | some err => exact ih hremoval
      | none => exact ih hremoval

/-- The loop looks for every PID of its list. -/
theorem sweepPids_checks {value : ℕ} (hpath : Path (sweepPids pids removed) calls (.ret value))
    (hpid : pid ∈ pids) : ∃ call ∈ calls, call.op = .alive pid := by
  induction pids generalizing removed calls with
  | nil => cases hpid
  | cons first rest ih =>
      obtain ⟨alive, afterCheck, rfl, hcheck⟩ := path_call_ret_iff.1 hpath
      rcases List.mem_cons.1 hpid with rfl | hpid
      · exact ⟨_, List.mem_cons_self, rfl⟩
      cases alive with
      | true =>
          obtain ⟨call, hcall, hop⟩ := ih hcheck hpid
          exact ⟨call, List.mem_cons_of_mem _ hcall, hop⟩
      | false =>
          obtain ⟨err, afterRemoval, rfl, hremoval⟩ := path_call_ret_iff.1 hcheck
          have hrest : ∃ call ∈ afterRemoval, call.op = .alive pid := by
            cases err with
            | some err => exact ih hremoval hpid
            | none => exact ih hremoval hpid
          obtain ⟨call, hcall, hop⟩ := hrest
          exact ⟨call, List.mem_cons_of_mem _ (List.mem_cons_of_mem _ hcall), hop⟩

theorem sweep_gone {final : Program (Except GoError ℕ)}
    (hpath : Path sweep (front ++ [⟨.alive pid, false⟩]) final) :
    final.pending = some (.unprotectPID pid) := by
  rcases path_call_iff.1 hpath with ⟨hcalls, _⟩ | ⟨listed, afterList, hcalls, hlist⟩
  · simp at hcalls
  rcases List.append_eq_cons_iff.1 hcalls with ⟨rfl, hlast⟩ | ⟨middle, rfl, rfl⟩
  · cases hlast
  cases listed with
  | error err =>
      obtain ⟨hnone, _⟩ := path_ret_iff.1 hlist
      simp at hnone
  | ok pids =>
      obtain ⟨loop, hloop, rfl⟩ := path_map_iff.1 hlist
      rw [pending_map]
      exact sweepPids_gone hloop

/-- A sweep that returns looked for every PID it was given. -/
theorem sweep_checks {value : Except GoError ℕ} (hpath : Path sweep calls (.ret value))
    (hlisted : ⟨.listProtectedPIDs, .ok pids⟩ ∈ calls) (hpid : pid ∈ pids) :
    ∃ call ∈ calls, call.op = .alive pid := by
  obtain ⟨listed, rest, rfl, hlist⟩ := path_call_ret_iff.1 hpath
  cases listed with
  | error err =>
      obtain ⟨rfl, _⟩ := path_ret_iff.1 hlist
      cases List.mem_singleton.1 hlisted
  | ok given =>
      obtain ⟨loop, hloop, hfinal⟩ := path_map_iff.1 hlist
      obtain ⟨removed, rfl⟩ : ∃ removed, loop = .ret removed := by
        cases loop with
        | ret removed => exact ⟨removed, rfl⟩
        | call op next => cases hfinal
      have hgiven : given = pids := by
        rcases List.mem_cons.1 hlisted with hhead | hlater
        · cases hhead
          rfl
        · cases (hloop.opsIn (opsIn_sweepPids given 0)).1 _ hlater
      obtain ⟨call, hcall, hop⟩ := sweepPids_checks hloop (hgiven ▸ hpid)
      exact ⟨call, List.mem_cons_of_mem _ hcall, hop⟩

end Sweep

/-! ## Who a PID is marked for -/

/-- For each PID, the process whose connection last marked it protected. -/
abbrev Marks := UInt32 → Option Instance

/-- A successful `ProtectPID` of a connection is recorded. -/
def record (actor : Actor) (call : Step) (marks : Marks) : Marks :=
  match actor, call with
  | .connection peer, ⟨.protectPID pid, none⟩ => Function.update marks pid (some peer)
  | _, _ => marks

def mark (state : State) (action : Action) (marks : Marks) : Marks :=
  match action with
  | .advance index answers =>
      match state.threads[index]? with
      | none => marks
      | some thread =>
          match thread.prog.pending with
          | none => marks
          | some op => record thread.actor ⟨op, answers op⟩ marks
  | _ => marks

/-- The agent with the marks of its connections. -/
def marking (unicode : Unicode) (server : Server) : System (State × Marks) Action :=
  (agent unicode server).recording (fun _ => none) mark

/-- Whoever holds a protected PID is the process it was last marked for. -/
def Marked (kernel : Kernel) (marks : Marks) : Prop :=
  ∀ pid ∈ kernel.protectedPids, ∃ inst,
    marks pid = some inst ∧ inst.pid = pid ∧ (kernel.table pid = none ∨ kernel.Live inst)

/-- The PIDs that a sweep has looked for and is not about to remove have a holder, if
they are protected. -/
def Cleared (kernel : Kernel) (thread : Thread) : Prop :=
  ∀ pid ∈ checked thread, thread.prog.pending ≠ some (.unprotectPID pid) →
    pid ∈ kernel.protectedPids → kernel.table pid ≠ none

/-! ## Prompt runs -/

/-- A connection marks the PID of a running peer, and the removals of a sweep
succeed. -/
def prompt (kernel : Kernel) (actor : Actor) : (op : Op) → op.Ans → Bool
  | .protectPID _ => fun _ =>
      match actor with
      | .connection peer => kernel.Live peer
      | _ => true
  | .unprotectPID _ => fun err =>
      match actor with
      | .sweep => err.isNone
      | _ => true
  | _ => fun _ => true

/-- No PID is reused while its entry is still there, and no process that a sweep has
found exits before the sweep is finished. -/
def Prompt (recorded : State × Marks) : Action → Prop
  | .spawn inst => inst.pid ∉ recorded.1.kernel.protectedPids
  | .exit pid _ => ∀ thread ∈ recorded.1.threads, thread.actor = .sweep →
      thread.prog.pending ≠ none → pid ∉ checked thread
  | .advance index answers =>
      ∀ thread ∈ recorded.1.threads[index]?, ∀ op ∈ thread.prog.pending,
        prompt recorded.1.kernel thread.actor op (answers op) = true
  | _ => True

instance (recorded : State × Marks) (action : Action) : Decidable (Prompt recorded action) :=
  match action with
  | .spawn _ => inferInstanceAs (Decidable (¬ _))
  | .exit _ _ => inferInstanceAs (Decidable (∀ _ ∈ _, _))
  | .advance _ _ => inferInstanceAs (Decidable (∀ _ ∈ _, _))
  | .exec _ | .connect _ | .deliver | .sweep => .isTrue trivial

/-- What is known of the state of a prompt run. -/
structure Kept (recorded : State × Marks) : Prop where
  marked : Marked recorded.1.kernel recorded.2
  cleared : ∀ thread ∈ recorded.1.threads, thread.actor = .sweep → thread.prog.pending ≠ none →
    Cleared recorded.1.kernel thread

section Kept

variable {unicode : Unicode} {server : Server} {kernel kernel' : Kernel} {born : List Instance}
variable {thread : Thread} {marks : Marks} {recorded next : State × Marks}

/-- Only connections mark PIDs. -/
theorem connection_of_protect {actor : Actor} {calls : List Step} {pid : UInt32}
    {rest : Option GoError → Program Unit}
    (hpath : Path (actor.program unicode server) calls (.call (.protectPID pid) rest)) :
    ∃ peer, actor = .connection peer := by
  cases actor with
  | connection peer => exact ⟨peer, rfl⟩
  | handler event =>
      obtain ⟨_, hop, _⟩ := Holders.handler_call hpath
      cases hop
  | sweep =>
      obtain ⟨after, hsweep⟩ := path_map_call hpath
      obtain ⟨pids, _, _, loop, hloop⟩ := Holders.sweep_call hsweep nofun
      cases (hloop.opsIn (opsIn_sweepPids pids 0)).2.1

/-- In a prompt run a PID is marked for the process that holds it. -/
theorem live_of_protect {op : Op} {rest : op.Ans → Program Unit} {answer : op.Ans}
    (hsound : (thread.answer kernel op rest answer).Sound unicode server kernel born)
    (hpath : Path (thread.actor.program unicode server) thread.calls (.call op rest))
    (hprompt : prompt kernel thread.actor op answer = true) (pid : UInt32)
    (hop : op = .protectPID pid) :
    ∃ peer, thread.actor = .connection peer ∧ pid = peer.pid ∧ kernel.Live peer := by
  subst hop
  obtain ⟨peer, hactor⟩ := connection_of_protect hpath
  refine ⟨peer, hactor, ?_, ?_⟩
  · exact pid_eq_peer hsound hactor (thread.mem_trace_answer kernel _ rest answer) rfl
  · rw [hactor] at hprompt
    exact of_decide_eq_true hprompt

theorem Marked.apply {actor : Actor} {call : Step} (hmarked : Marked kernel marks)
    (hprotect : ∀ pid, call.op = .protectPID pid →
      ∃ peer, actor = .connection peer ∧ pid = peer.pid ∧ kernel.Live peer) :
    Marked (kernel.apply call) (record actor call marks) := by
  intro pid hpid
  obtain ⟨op, answer⟩ := call
  cases op with
  | protectPID protectedPid =>
      obtain ⟨peer, rfl, rfl, hlive⟩ := hprotect protectedPid rfl
      cases answer with
      | some err => exact hmarked pid hpid
      | none =>
          by_cases hsame : pid = peer.pid
          · refine ⟨peer, ?_, hsame.symm, Or.inr hlive⟩
            rw [hsame]
            exact Function.update_self _ _ _
          · obtain ⟨inst, hinst, hrest⟩ :=
              hmarked pid ((Finset.mem_insert.1 hpid).resolve_left hsame)
            exact ⟨inst, (Function.update_of_ne hsame _ _).trans hinst, hrest⟩
  | unprotectPID removed =>
      cases answer with
      | some err => cases actor <;> exact hmarked pid hpid
      | none => cases actor <;> exact hmarked pid (Finset.mem_of_mem_erase hpid)
  | _ => cases actor <;> exact hmarked pid hpid

theorem Cleared.mono (hcleared : Cleared kernel thread)
    (hkernel : ∀ pid ∈ checked thread, pid ∈ kernel'.protectedPids → kernel'.table pid = none →
      pid ∈ kernel.protectedPids ∧ kernel.table pid = none) : Cleared kernel' thread := by
  intro pid hchecked hpending hprotected hfree
  obtain ⟨hbefore, hgone⟩ := hkernel pid hchecked hprotected hfree
  exact hcleared pid hchecked hpending hbefore hgone

/-- A call protects no PID that nobody holds. -/
theorem unheld_of_apply {actor : Actor} {call : Step}
    (hprotect : ∀ pid, call.op = .protectPID pid →
      ∃ peer, actor = .connection peer ∧ pid = peer.pid ∧ kernel.Live peer) {pid : UInt32}
    (hprotected : pid ∈ (kernel.apply call).protectedPids)
    (hfree : (kernel.apply call).table pid = none) :
    pid ∈ kernel.protectedPids ∧ kernel.table pid = none := by
  rw [Kernel.apply_table] at hfree
  refine ⟨?_, hfree⟩
  obtain ⟨op, answer⟩ := call
  cases op with
  | protectPID protectedPid =>
      obtain ⟨peer, rfl, rfl, hlive⟩ := hprotect protectedPid rfl
      cases answer with
      | some err => exact hprotected
      | none =>
          refine (Finset.mem_insert.1 hprotected).resolve_left ?_
          intro hsame
          rw [hsame] at hfree
          exact absurd (hlive.symm.trans hfree) (Option.some_ne_none _)
  | unprotectPID removed =>
      cases answer with
      | some err => exact hprotected
      | none => exact Finset.mem_of_mem_erase hprotected
  | _ => exact hprotected

/-- What the sweep has looked for stays cleared by its own calls. -/
theorem Cleared.answer {op : Op} {rest : op.Ans → Program Unit} {answer : op.Ans}
    (hcleared : Cleared kernel thread) (hprog : thread.prog = .call op rest)
    (hactor : thread.actor = .sweep)
    (hsound : (thread.answer kernel op rest answer).Sound unicode server kernel born)
    (hprotect : ∀ pid, op = .protectPID pid →
      ∃ peer, thread.actor = .connection peer ∧ pid = peer.pid ∧ kernel.Live peer)
    (hprompt : prompt kernel thread.actor op answer = true) :
    Cleared (kernel.apply ⟨op, answer⟩) (thread.answer kernel op rest answer) := by
  intro pid hchecked hpending hprotected hfree
  have hlast := thread.mem_trace_answer kernel op rest answer
  have hanswerable := hsound.answered _ hlast
  obtain ⟨hbefore, hgone⟩ := unheld_of_apply hprotect hprotected hfree
  rw [checked_answer] at hchecked
  rcases List.mem_append.1 hchecked with hold | hnew
  · -- The PID was looked for before; if it was about to be removed, it is removed now.
    refine hcleared pid hold ?_ hbefore hgone
    intro hremoving
    rw [hprog] at hremoving
    cases hremoving
    rw [hactor] at hprompt
    obtain rfl := Option.isNone_iff_eq_none.1 hprompt
    exact absurd hprotected (Finset.notMem_erase _ _)
  · -- The PID was looked for just now, and not found.
    obtain rfl := checkedPid_eq_some_iff.1 (Option.mem_toList.1 hnew)
    cases answer with
    | true =>
        replace hanswerable : (kernel.table pid).isSome = true := hanswerable
        rw [hgone] at hanswerable
        cases hanswerable
    | false =>
        have hpath := hsound.path
        rw [Thread.calls_answer] at hpath
        replace hpath : Path (thread.actor.program unicode server)
          (thread.calls ++ [⟨.alive pid, false⟩]) (rest false) := hpath
        rw [hactor] at hpath
        obtain ⟨middle, hmiddle, hfinal⟩ := path_map_iff.1 hpath
        apply hpending
        change (rest false).pending = _
        rw [hfinal, pending_map]
        exact sweep_gone hmiddle

theorem mark_advance {state : State} {index : ℕ} {answers : (op : Op) → op.Ans} {op : Op}
    {rest : op.Ans → Program Unit} (hthread : state.threads[index]? = some thread)
    (hprog : thread.prog = .call op rest) (marks : Marks) :
    mark state (.advance index answers) marks = record thread.actor ⟨op, answers op⟩ marks := by
  simp [mark, hthread, hprog, pending]

/-- Answering the pending call of a sweep keeps it cleared. -/
theorem Kept.cleared_answer {index : ℕ} {answers : (op : Op) → op.Ans} {op : Op}
    {rest : op.Ans → Program Unit} (hkept : Kept recorded)
    (hsound : recorded.1.Sound unicode server) (hprompt : Prompt recorded (.advance index answers))
    (hthread : recorded.1.threads[index]? = some thread) (hprog : thread.prog = .call op rest)
    (hanswerable : answerable recorded.1.kernel thread.actor op (answers op) = true)
    (hactor : thread.actor = .sweep) :
    Cleared (recorded.1.kernel.apply ⟨op, answers op⟩)
      (thread.answer recorded.1.kernel op rest (answers op)) := by
  have hmem := List.mem_of_getElem? hthread
  have hbefore := hsound.threads thread hmem
  have hafter := hbefore.answer hprog hanswerable
  have hprompt := hprompt thread hthread op (pending_eq_some_iff.2 ⟨rest, hprog⟩)
  have hrunning : thread.prog.pending ≠ none := by
    rw [hprog]
    exact Option.some_ne_none op
  exact (hkept.cleared thread hmem hactor hrunning).answer hprog hactor hafter
    (live_of_protect hafter (hprog ▸ hbefore.path) hprompt) hprompt

theorem Kept.step {action : Action} (hkept : Kept recorded)
    (hsound : recorded.1.Sound unicode server) (hprompt : Prompt recorded action)
    (hstepped : Stepped unicode server recorded.1 action next.1)
    (hmarks : next.2 = mark recorded.1 action recorded.2) : Kept next := by
  obtain ⟨state, marks⟩ := recorded
  obtain ⟨following, followingMarks⟩ := next
  have hmarked := hkept.marked
  have hcleared := hkept.cleared
  subst hmarks
  have hstarted {actor : Actor} :
      ∀ thread ∈ state.threads ++ [Thread.start unicode server actor], thread.actor = .sweep →
        thread.prog.pending ≠ none → Cleared state.kernel thread := by
    intro thread hthread hactor hpending
    rcases List.mem_append.1 hthread with hold | hnew
    · exact hcleared thread hold hactor hpending
    · rw [List.mem_singleton.1 hnew]
      exact fun pid hchecked => absurd hchecked List.not_mem_nil
  cases hstepped with
  | spawn inst hfree hfresh =>
      refine ⟨fun pid hpid => ?_, fun thread hthread hactor hpending => ?_⟩
      · obtain ⟨marked, hmark, rfl, hholder⟩ := hmarked pid hpid
        have hother : marked.pid ≠ inst.pid := fun hsame => hprompt (hsame ▸ hpid)
        refine ⟨marked, hmark, rfl, ?_⟩
        rcases hholder with hnone | hlive
        · exact Or.inl ((Function.update_of_ne hother _ _).trans hnone)
        · exact Or.inr ((state.kernel.live_spawn_iff inst marked).2 (Or.inr ⟨hother, hlive⟩))
      · apply (hcleared thread hthread hactor hpending).mono
        intro pid _ hprotected hnone
        refine ⟨hprotected, ?_⟩
        by_cases hsame : pid = inst.pid
        · rw [hsame]
          exact hfree
        · exact (Function.update_of_ne hsame _ _).symm.trans hnone
  | exit pid reported hheld =>
      refine ⟨fun other hother => ?_, fun thread hthread hactor hpending => ?_⟩
      · obtain ⟨marked, hmark, rfl, hholder⟩ := hmarked other hother
        refine ⟨marked, hmark, rfl, ?_⟩
        by_cases hsame : marked.pid = pid
        · rw [hsame]
          exact Or.inl (Function.update_self _ _ _)
        · rcases hholder with hnone | hlive
          · exact Or.inl ((Function.update_of_ne hsame _ _).trans hnone)
          · exact Or.inr ((state.kernel.live_exit_iff pid marked).2 ⟨hsame, hlive⟩)
      · apply (hcleared thread hthread hactor hpending).mono
        intro other hchecked hprotected hnone
        have hother : other ≠ pid := fun hsame =>
          hprompt thread hthread hactor hpending (hsame ▸ hchecked)
        exact ⟨hprotected, (Function.update_of_ne hother _ _).symm.trans hnone⟩
  | exec pid hheld => exact ⟨hmarked, hcleared⟩
  | connect peer hlive => exact ⟨hmarked, hstarted⟩
  | deliver event rest hevents => exact ⟨hmarked, hstarted⟩
  | sweep => exact ⟨hmarked, hstarted⟩
  | advance index answers thread op rest hthread hprog hanswerable =>
      have hbefore := hsound.threads thread (List.mem_of_getElem? hthread)
      have hprotect := live_of_protect (hbefore.answer hprog hanswerable) (hprog ▸ hbefore.path)
        (hprompt thread hthread op (pending_eq_some_iff.2 ⟨rest, hprog⟩))
      refine ⟨?_, fun other hother hactor hpending => ?_⟩
      · rw [mark_advance hthread hprog]
        exact hmarked.apply hprotect
      · rcases List.mem_or_eq_of_mem_set hother with hold | rfl
        · apply (hcleared other hold hactor hpending).mono
          exact fun pid _ => unheld_of_apply hprotect
        · exact hkept.cleared_answer hsound hprompt hthread hprog hanswerable hactor

theorem kept_of_reachable (hrecorded : Reachable (marking unicode server) Prompt recorded) :
    Kept recorded := by
  have hinit : Kept (marking unicode server).init :=
    ⟨fun pid hpid => absurd hpid (Finset.notMem_empty pid),
      fun thread hthread => absurd hthread List.not_mem_nil⟩
  refine hrecorded.invariant hinit ?_
  intro recorded action next hrecorded hkept hprompt hstep
  obtain ⟨hnext, hmarks⟩ := recording_step_iff.1 hstep
  exact hkept.step (sound_of_reachable hrecorded.forget) hprompt (stepped_of_step hnext) hmarks

end Kept

/-- The thread is a sweep that listed these PIDs without error and has returned. -/
def Returned (state : State) (index : ℕ) (pids : List UInt32) : Prop :=
  ∃ thread ∈ state.threads[index]?, thread.actor = .sweep ∧ thread.prog.pending = none ∧
    pids ∈ thread.calls.filterMap listing

instance (state : State) (index : ℕ) (pids : List UInt32) : Decidable (Returned state index pids) :=
  inferInstanceAs (Decidable (∃ _ ∈ _, _))

/-- In every prompt run, when a sweep finishes without error, every PID that it listed
and that is still protected is held by the process for which it was last marked. -/
theorem swept_pids_held {unicode : Unicode} {server : Server} {before after : State × Marks}
    (hbefore : Reachable (marking unicode server) Prompt before) {index : ℕ}
    {answers : (op : Op) → op.Ans} (hprompt : Prompt before (.advance index answers))
    (hstep : (marking unicode server).step before (.advance index answers) = some after)
    {pids : List UInt32} (hreturned : Returned after.1 index pids) {pid : UInt32}
    (hpid : pid ∈ pids) (hprotected : pid ∈ after.1.kernel.protectedPids) :
    ∃ inst, after.2 pid = some inst ∧ holder after.1.kernel pid = some inst := by
  obtain ⟨thread, hthread, hactor, hdone, hlisted⟩ := hreturned
  obtain ⟨call, hcall, hlisting⟩ := List.mem_filterMap.1 hlisted
  obtain rfl := listing_eq_some_iff.1 hlisting
  have hsound : before.1.Sound unicode server := sound_of_reachable hbefore.forget
  have hafter := sound_of_reachable (hbefore.tail hprompt hstep).forget
  have hkept := kept_of_reachable (hbefore.tail hprompt hstep)
  obtain ⟨inst, hmark, rfl, hholder⟩ := hkept.marked pid hprotected
  refine ⟨inst, hmark, holder_eq_iff.2 ⟨rfl, hholder.resolve_left ?_⟩⟩
  have hcleared : Cleared after.1.kernel thread := by
    obtain ⟨state, marks⟩ := after
    have hnext : step unicode server before.1 (.advance index answers) = some state :=
      (recording_step_iff.1 hstep).1
    cases stepped_of_step hnext with
    | advance index answers earlier op rest hearlier hprog hanswerable =>
        obtain ⟨hindex, _⟩ := List.getElem?_eq_some_iff.1 hearlier
        rw [List.getElem?_set_self hindex] at hthread
        cases hthread
        exact (kept_of_reachable hbefore).cleared_answer hsound hprompt hearlier hprog hanswerable
          hactor
  have hchecked : inst.pid ∈ checked thread := by
    have hpath := (hafter.threads thread (List.mem_of_getElem? hthread)).path
    rw [hactor] at hpath
    obtain ⟨middle, hmiddle, hfinal⟩ := path_map_iff.1 hpath
    rw [hfinal, pending_map] at hdone
    cases middle with
    | ret value => exact mem_checked_iff.2 (sweep_checks hmiddle hcall hpid)
    | call op next => cases hdone
  exact hcleared inst.pid hchecked (by rw [hdone]; exact nofun) hprotected

/-! ## A PID that is reused before the sweep -/

/-- Nobody disturbs the sweep that follows a release. -/
def sweptInTime : List Action := undisturbed ++ [.sweep] ++ advances 1 1 1

/-- The process exits unreported after its release, and its PID is given to another
one before the sweep. -/
def sweptLate : List Action :=
  undisturbed ++ [.exit 5 false, .spawn successor, .sweep] ++ advances 1 1 2

theorem undisturbed_pid_held :
    ∃ recorded, Reachable (marking Unicode.ascii tenantServer) Prompt recorded ∧
      recorded.2 5 = some connecting ∧ holder recorded.1.kernel 5 = some connecting := by
  obtain ⟨before, hbefore, hprompt, hmark, hnext⟩ :
      ∃ before, Reachable (marking Unicode.ascii tenantServer) Prompt before ∧
        Prompt before (.advance 1 (answers 1)) ∧ before.2 5 = some connecting ∧
          ∃ after ∈ (marking Unicode.ascii tenantServer).step before (.advance 1 (answers 1)),
            Returned after.1 1 [5] ∧ 5 ∈ after.1.kernel.protectedPids ∧ after.2 5 = before.2 5 :=
    exists_reachable sweptInTime (by decide +kernel)
  obtain ⟨after, hstep, hreturned, hprotected, hsame⟩ := hnext
  obtain ⟨inst, hinst, hholder⟩ :=
    swept_pids_held hbefore hprompt hstep hreturned (List.mem_singleton_self 5) hprotected
  have hmarked : after.2 5 = some connecting := hsame.trans hmark
  obtain rfl : inst = connecting := Option.some.inj (hinst.symm.trans hmarked)
  exact ⟨after, hbefore.tail hprompt hstep, hmarked, hholder⟩

/-- A sweep keeps the entry of a process that is gone, because its PID was given to
another process. -/
theorem recycled_pid_protected :
    ∃ before, Reachable (marking Unicode.ascii tenantServer) Unrestricted before ∧
      ∃ after ∈ (marking Unicode.ascii tenantServer).step before (.advance 1 (answers 2)),
        Returned after.1 1 [5] ∧ 5 ∈ after.1.kernel.protectedPids ∧
          after.2 5 = some connecting ∧ holder after.1.kernel 5 = some successor :=
  exists_reachable sweptLate (by decide +kernel)

end KernelSeal.Reconciliation

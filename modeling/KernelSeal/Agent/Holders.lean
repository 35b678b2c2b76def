import KernelSeal.Agent.PidReuse

/-!
# Protection of live secret holders

Three actors remove PIDs from the protected set: the handler of exit events, the
sweep, and a connection that rolls back.  Each acts on an observation made
earlier.  This file shows that the observation is right when it is made, that it
stays right as long as the PID is not reused meanwhile, and that a process which
was sent secrets under protection is then protected for as long as it lives.
-/

namespace KernelSeal.Holders

open KernelSeal.Text
open KernelSeal.Resumption
open KernelSeal.Resumption.Prog
open KernelSeal.Transition
open KernelSeal.Delivery
open KernelSeal.Release
open KernelSeal.Connection
open KernelSeal.Agent
open KernelSeal.PidReuse

/-! ## Why an actor removes a PID -/

/-- The observation on which an actor that made these calls is about to remove a
PID. -/
inductive Observed : Actor → List Step → UInt32 → Prop
  | exited (pid : UInt32) : Observed (.handler ⟨.exit, pid⟩) [] pid
  | gone (pid : UInt32) (front : List Step) :
      Observed .sweep (front ++ [⟨.alive pid, false⟩]) pid
  | recycled (pid : UInt32) (peer : Instance) (front : List Step) (startBefore : UInt64)
      (startAfter : Except GoError UInt64)
      (hbefore : startReads front = [.ok startBefore])
      (hdiffers : agrees startBefore startAfter = false) :
      Observed (.connection peer) (front ++ [⟨.processStartTime pid, startAfter⟩]) pid

section Removals

variable {unicode : Unicode} {server : Server}

theorem sweepPids_removal {pids : List UInt32} {removed : ℕ} {calls : List Step} {pid : UInt32}
    {next : Option GoError → Program ℕ}
    (hpath : Path (sweepPids pids removed) calls (.call (.unprotectPID pid) next)) :
    ∃ front, calls = front ++ [⟨.alive pid, false⟩] := by
  induction pids generalizing removed calls with
  | nil =>
      obtain ⟨_, hfinal⟩ := path_ret_iff.1 hpath
      cases hfinal
  | cons first rest ih =>
      rcases path_call_iff.1 hpath with ⟨_, hfinal⟩ | ⟨alive, afterCheck, rfl, hcheck⟩
      · cases hfinal
      cases alive with
      | true =>
          obtain ⟨front, rfl⟩ := ih hcheck
          exact ⟨⟨.alive first, true⟩ :: front, rfl⟩
      | false =>
      rcases path_call_iff.1 hcheck with ⟨rfl, hfinal⟩ | ⟨err, afterRemoval, rfl, hremoval⟩
      · cases hfinal
        exact ⟨[], rfl⟩
      have hrest : ∃ front, afterRemoval = front ++ [⟨.alive pid, false⟩] := by
        cases err with
        | some err => exact ih hremoval
        | none => exact ih hremoval
      obtain ⟨front, rfl⟩ := hrest
      exact ⟨⟨.alive first, false⟩ :: ⟨.unprotectPID first, err⟩ :: front, rfl⟩

/-- Every call of a sweep but the first is made by its loop. -/
theorem sweep_call {calls : List Step} {op : Op} {next : op.Ans → Program _}
    (hpath : Path sweep calls (.call op next)) (hop : op ≠ .listProtectedPIDs) :
    ∃ pids after, calls = ⟨.listProtectedPIDs, .ok pids⟩ :: after ∧
      ∃ rest, Path (sweepPids pids 0) after (.call op rest) := by
  rcases path_call_iff.1 hpath with ⟨_, hfinal⟩ | ⟨listed, afterList, rfl, hlist⟩
  · cases hfinal
    exact absurd rfl hop
  cases listed with
  | error err =>
      obtain ⟨_, hfinal⟩ := path_ret_iff.1 hlist
      cases hfinal
  | ok pids => exact ⟨pids, afterList, rfl, path_map_call hlist⟩

theorem sweep_removal {calls : List Step} {pid : UInt32} {next : Option GoError → Program _}
    (hpath : Path sweep calls (.call (.unprotectPID pid) next)) :
    ∃ front, calls = front ++ [⟨.alive pid, false⟩] := by
  obtain ⟨pids, after, rfl, rest, hpids⟩ := sweep_call hpath nofun
  obtain ⟨front, rfl⟩ := sweepPids_removal hpids
  exact ⟨⟨.listProtectedPIDs, .ok pids⟩ :: front, rfl⟩

/-- The one call of the handler. -/
theorem handler_call {event : ExecEvent} {calls : List Step} {op : Op}
    {next : op.Ans → Program Unit} (hpath : Path (handleExecEvent event) calls (.call op next)) :
    event.eventType = .exit ∧ op = .unprotectPID event.pid ∧ calls = [] := by
  obtain ⟨eventType, eventPid⟩ := event
  cases eventType with
  | exec =>
      obtain ⟨_, hfinal⟩ := path_ret_iff.1 hpath
      cases hfinal
  | exit =>
      rcases path_call_iff.1 hpath with ⟨rfl, hfinal⟩ | ⟨err, rest, rfl, hrest⟩
      · cases hfinal
        exact ⟨rfl, rfl, rfl⟩
      · obtain ⟨_, hfinal⟩ := path_ret_iff.1 hrest
        cases hfinal

theorem handler_removal {event : ExecEvent} {calls : List Step} {pid : UInt32}
    {next : Option GoError → Program Unit}
    (hpath : Path (handleExecEvent event) calls (.call (.unprotectPID pid) next)) :
    event = ⟨.exit, pid⟩ ∧ calls = [] := by
  obtain ⟨eventType, eventPid⟩ := event
  obtain ⟨rfl, hop, hcalls⟩ := handler_call hpath
  cases hop
  exact ⟨rfl, hcalls⟩

/-- No actor removes a PID without an observation. -/
theorem observed_of_path {actor : Actor} {calls : List Step} {pid : UInt32}
    {next : Option GoError → Program Unit}
    (hpath : Path (actor.program unicode server) calls (.call (.unprotectPID pid) next)) :
    Observed actor calls pid := by
  cases actor with
  | connection peer =>
      obtain ⟨cred, req, before, startBefore, startAfter, protectErr, trackErr, rfl, hbefore,
        hdiffers⟩ := connection_rollback hpath
      have hobserved := Observed.recycled pid peer
        (preamble cred req ++ before ++ [⟨.processStartTime pid, .ok startBefore⟩,
          ⟨.protectPID pid, protectErr⟩, ⟨.trackPID pid, trackErr⟩]) startBefore startAfter
        (by simp [preamble, (observe_identify hbefore).2.1]) hdiffers
      simpa [handshake] using hobserved
  | handler event =>
      obtain ⟨rfl, rfl⟩ := handler_removal hpath
      exact .exited pid
  | sweep =>
      obtain ⟨rest, hsweep⟩ := path_map_call hpath
      obtain ⟨front, rfl⟩ := sweep_removal hsweep
      exact .gone pid front

end Removals

/-! ## Orderly runs -/

/-- The process that a connection between its two start-time reads expects to
find again. -/
def expected (thread : Thread) : Option Instance :=
  match thread.actor, startReads thread.calls with
  | .connection peer, [.ok start] => some ⟨peer.pid, start⟩
  | _, _ => none

/-- A removal of the PID is under way: the exit of a process that held it is
still to be handled, an actor is about to remove it, or a connection will if the
PID has another holder by then. -/
def Removing (state : State) (pid : UInt32) : Prop :=
  ⟨.exit, pid⟩ ∈ state.events ∨
    ∃ thread ∈ state.threads, thread.prog.pending = some (.unprotectPID pid) ∨
      ∃ inst ∈ expected thread, inst.pid = pid

instance (state : State) : DecidablePred (Removing state) := fun _ =>
  inferInstanceAs (Decidable (_ ∨ _))

/-- A process is not found in `/proc` only when nobody holds its PID. -/
def readable (kernel : Kernel) : (op : Op) → op.Ans → Bool
  | .processStartTime pid => fun answer =>
      match answer with
      | .ok _ => true
      | .error _ => kernel.table pid = none
  | .alive pid => fun answer => answer || kernel.table pid = none
  | _ => fun _ => true

/-- No PID is reused while a removal of it is under way, and running processes
are found in `/proc`. -/
def Orderly (state : State) : Action → Prop
  | .spawn inst => ¬ Removing state inst.pid
  | .advance index answers =>
      ∀ thread ∈ state.threads[index]?, ∀ op ∈ thread.prog.pending,
        readable state.kernel op (answers op) = true
  | _ => True

instance (state : State) (action : Action) : Decidable (Orderly state action) :=
  match action with
  | .spawn _ => inferInstanceAs (Decidable (¬ _))
  | .advance _ _ => inferInstanceAs (Decidable (∀ _ ∈ _, _))
  | .exit _ _ | .exec _ | .connect _ | .deliver | .sweep => .isTrue trivial

/-- Every removal under way is of a PID that nobody holds, and a PID that a
connection expects to find with the same holder has no other. -/
structure Justified (state : State) : Prop where
  exits : ∀ pid, ⟨.exit, pid⟩ ∈ state.events → state.kernel.table pid = none
  removals : ∀ thread ∈ state.threads, ∀ pid,
    thread.prog.pending = some (.unprotectPID pid) → state.kernel.table pid = none
  expectations : ∀ thread ∈ state.threads, ∀ inst ∈ expected thread,
    state.kernel.Live inst ∨ state.kernel.table inst.pid = none

section Justified

variable {unicode : Unicode} {server : Server} {state next : State}

theorem startRead_eq_some_iff {call : Step} {answer : Except GoError UInt64} :
    startRead call = some answer ↔ ∃ pid, call = ⟨.processStartTime pid, answer⟩ := by
  obtain ⟨op, given⟩ := call
  cases op <;> simp

theorem mem_expected_iff {thread : Thread} {inst : Instance} :
    inst ∈ expected thread ↔
      ∃ peer, thread.actor = .connection peer ∧ inst.pid = peer.pid ∧
        startReads thread.calls = [.ok inst.start] := by
  obtain ⟨pid, start⟩ := inst
  rw [expected]
  split
  · rename_i peer found hactor hreads
    simp [hactor, hreads, eq_comm]
  · rename_i hother
    simp only [Option.mem_def, reduceCtorEq, false_iff]
    rintro ⟨peer, hactor, _, hreads⟩
    exact hother peer start hactor hreads

/-- A connection comes to expect a process by reading its start time. -/
theorem expected_answer {thread : Thread} {kernel : Kernel} {op : Op}
    {rest : op.Ans → Program Unit} {answer : op.Ans} {inst : Instance}
    (hinst : inst ∈ expected (thread.answer kernel op rest answer)) :
    inst ∈ expected thread ∨
      ∃ peer pid, thread.actor = .connection peer ∧ inst.pid = peer.pid ∧
        (⟨op, answer⟩ : Step) = ⟨.processStartTime pid, .ok inst.start⟩ := by
  obtain ⟨peer, hactor, hpid, hreads⟩ := mem_expected_iff.1 hinst
  have hsplit : startReads thread.calls ++ (startRead ⟨op, answer⟩).toList = [.ok inst.start] := by
    simpa using hreads
  cases hread : startRead ⟨op, answer⟩ with
  | none =>
      rw [hread, Option.toList_none, List.append_nil] at hsplit
      exact Or.inl (mem_expected_iff.2 ⟨peer, hactor, hpid, hsplit⟩)
  | some found =>
      rw [hread, Option.toList_some] at hsplit
      obtain ⟨_, rfl⟩ : startReads thread.calls = [] ∧ found = .ok inst.start := by
        simpa [List.append_eq_singleton_iff] using hsplit
      obtain ⟨pid, hcall⟩ := startRead_eq_some_iff.1 hread
      exact Or.inr ⟨peer, pid, hactor, hpid, hcall⟩

/-- Two start-time reads disagree only when the PID is free again, provided that
it has had no holder but the expected one. -/
theorem free_of_disagreement {kernel : Kernel} {actor : Actor} {pid : UInt32}
    {startBefore : UInt64} {startAfter : Except GoError UInt64}
    (hexpected : kernel.Live ⟨pid, startBefore⟩ ∨ kernel.table pid = none)
    (hanswerable : answerable kernel actor (.processStartTime pid) startAfter = true)
    (hreadable : readable kernel (.processStartTime pid) startAfter = true)
    (hdiffers : agrees startBefore startAfter = false) : kernel.table pid = none := by
  cases startAfter with
  | error err => exact of_decide_eq_true hreadable
  | ok start =>
      have hfound : kernel.table pid = some start := of_decide_eq_true hanswerable
      have hne : start ≠ startBefore := of_decide_eq_false hdiffers
      rcases hexpected with hlive | hfree
      · exact absurd (Option.some.inj (hfound.symm.trans hlive)) hne
      · exact hfree

/-- The observation on which an actor will remove a PID is right when it is
made. -/
theorem free_of_answer {kernel : Kernel} {born : List Instance} {thread : Thread} {op : Op}
    {rest : op.Ans → Program Unit} {answer : op.Ans} {pid : UInt32}
    (hsound : (thread.answer kernel op rest answer).Sound unicode server kernel born)
    (hreadable : readable kernel op answer = true)
    (hexpected : ∀ inst ∈ expected thread, kernel.Live inst ∨ kernel.table inst.pid = none)
    (hpending : (rest answer).pending = some (.unprotectPID pid)) :
    kernel.table pid = none := by
  obtain ⟨after, hafter⟩ := pending_eq_some_iff.1 hpending
  have hlast := thread.mem_trace_answer kernel op rest answer
  have hanswerable := hsound.answered _ hlast
  have hpath : Path (thread.actor.program unicode server) (thread.calls ++ [⟨op, answer⟩])
      (.call (.unprotectPID pid) after) := by
    rw [← hafter, ← Thread.calls_answer]
    exact hsound.path
  generalize hactor : thread.actor = actor at hpath
  generalize hmade : thread.calls ++ [⟨op, answer⟩] = made at hpath
  cases observed_of_path hpath with
  | exited => simp at hmade
  | gone pid front =>
      cases (List.append_inj' hmade rfl).2
      exact of_decide_eq_true hreadable
  | recycled pid peer front startBefore startAfter hbefore hdiffers =>
      obtain ⟨rfl, hcall⟩ := List.append_inj' hmade rfl
      cases hcall
      have hpid : pid = peer.pid := pid_eq_peer hsound hactor hlast rfl
      have hinst : ⟨pid, startBefore⟩ ∈ expected thread :=
        mem_expected_iff.2 ⟨peer, hactor, hpid, hbefore⟩
      exact free_of_disagreement (hexpected _ hinst) hanswerable hreadable hdiffers

/-- A change of holders keeps removals justified if no PID that is being removed
gets a holder. -/
theorem Justified.retable {table : Table} (born : List Instance)
    (hjustified : Justified state)
    (htable : ∀ pid, Removing state pid →
      table pid = state.kernel.table pid ∨ table pid = none) :
    Justified { state with kernel := { state.kernel with table := table }, born := born } where
  exits pid hevent := by
    rcases htable pid (Or.inl hevent) with hsame | hfree
    · exact hsame.trans (hjustified.exits pid hevent)
    · exact hfree
  removals thread hthread pid hpending := by
    rcases htable pid (Or.inr ⟨thread, hthread, Or.inl hpending⟩) with hsame | hfree
    · exact hsame.trans (hjustified.removals thread hthread pid hpending)
    · exact hfree
  expectations thread hthread inst hinst := by
    rcases htable inst.pid (Or.inr ⟨thread, hthread, Or.inr ⟨inst, hinst, rfl⟩⟩) with hsame | hfree
    · rcases hjustified.expectations thread hthread inst hinst with hlive | hgone
      · exact Or.inl (hsame.trans hlive)
      · exact Or.inr (hsame.trans hgone)
    · exact Or.inr hfree

/-- A new actor keeps removals justified if its first call does. -/
theorem Justified.start {actor : Actor} {events : List ExecEvent}
    (hjustified : Justified state) (hevents : events ⊆ state.events)
    (hactor : ∀ pid, (actor.program unicode server).pending = some (.unprotectPID pid) →
      state.kernel.table pid = none) :
    Justified
      { state with
        events := events
        threads := state.threads ++ [Thread.start unicode server actor] } where
  exits pid hevent := hjustified.exits pid (hevents hevent)
  removals thread hthread pid hpending := by
    rcases List.mem_append.1 hthread with hold | hnew
    · exact hjustified.removals thread hold pid hpending
    · rw [List.mem_singleton.1 hnew] at hpending
      exact hactor pid hpending
  expectations thread hthread inst hinst := by
    rcases List.mem_append.1 hthread with hold | hnew
    · exact hjustified.expectations thread hold inst hinst
    · rw [List.mem_singleton.1 hnew] at hinst
      obtain ⟨_, _, _, hreads⟩ := mem_expected_iff.1 hinst
      cases hreads

/-- Answering a call keeps removals justified. -/
theorem Justified.advance {index : ℕ} {thread : Thread} {op : Op}
    {rest : op.Ans → Program Unit} {answer : op.Ans}
    (hjustified : Justified state) (hthread : thread ∈ state.threads)
    (hsound : (thread.answer state.kernel op rest answer).Sound unicode server state.kernel
      state.born)
    (hreadable : readable state.kernel op answer = true) :
    Justified
      { state with
        kernel := state.kernel.apply ⟨op, answer⟩
        threads := state.threads.set index (thread.answer state.kernel op rest answer) } where
  exits pid hevent := by
    rw [Kernel.apply_table]
    exact hjustified.exits pid hevent
  removals other hother pid hpending := by
    rw [Kernel.apply_table]
    rcases List.mem_or_eq_of_mem_set hother with hold | rfl
    · exact hjustified.removals other hold pid hpending
    · exact free_of_answer hsound hreadable (hjustified.expectations thread hthread) hpending
  expectations other hother inst hinst := by
    rw [Kernel.apply_live, Kernel.apply_table]
    rcases List.mem_or_eq_of_mem_set hother with hold | rfl
    · exact hjustified.expectations other hold inst hinst
    · rcases expected_answer hinst with hold | ⟨peer, pid, hactor, hpid, hcall⟩
      · exact hjustified.expectations thread hthread inst hold
      · have hread := table_of_read hsound hactor (thread.mem_trace_answer _ op rest answer) hcall
        rw [← hpid] at hread
        exact Or.inl hread

/-- Every step of an orderly run keeps removals justified. -/
theorem Justified.step {action : Action} (hjustified : Justified state)
    (hsound : state.Sound unicode server) (horderly : Orderly state action)
    (hstep : Stepped unicode server state action next) : Justified next := by
  cases hstep with
  | spawn inst hfree hfresh =>
      apply hjustified.retable
      intro pid hremoving
      have hpid : pid ≠ inst.pid := fun hpid => horderly (hpid ▸ hremoving)
      exact Or.inl (Function.update_of_ne hpid _ _)
  | exit pid reported hheld =>
      have htable (other : UInt32) :
          Function.update state.kernel.table pid none other = state.kernel.table other ∨
            Function.update state.kernel.table pid none other = none := by
        by_cases hother : other = pid
        · exact Or.inr (hother ▸ Function.update_self _ _ _)
        · exact Or.inl (Function.update_of_ne hother _ _)
      have hgone := hjustified.retable state.born fun other _ => htable other
      refine ⟨fun other hevent => ?_, hgone.removals, hgone.expectations⟩
      cases reported with
      | false => exact hgone.exits other hevent
      | true =>
          rcases List.mem_append.1 hevent with hold | hnew
          · exact hgone.exits other hold
          · cases List.mem_singleton.1 hnew
            exact Function.update_self _ _ _
  | exec pid hheld =>
      refine ⟨fun other hevent => ?_, hjustified.removals, hjustified.expectations⟩
      apply hjustified.exits
      simpa using hevent
  | connect peer hlive =>
      exact hjustified.start (List.Subset.refl _) fun pid hpending => nomatch hpending
  | deliver event rest hevents =>
      apply hjustified.start (hevents ▸ List.subset_cons_self _ _)
      intro pid hpending
      obtain ⟨after, hafter⟩ := pending_eq_some_iff.1 hpending
      have hpath : Path (handleExecEvent event) [] (.call (.unprotectPID pid) after) :=
        hafter ▸ Path.nil _
      apply hjustified.exits
      rw [hevents, (handler_removal hpath).1]
      exact List.mem_cons_self
  | sweep => exact hjustified.start (List.Subset.refl _) fun pid hpending => nomatch hpending
  | advance index answers thread op rest hthread hprog hanswerable =>
      have hmem := List.mem_of_getElem? hthread
      apply hjustified.advance hmem ((hsound.threads thread hmem).answer hprog hanswerable)
      exact horderly thread hthread op (pending_eq_some_iff.2 ⟨rest, hprog⟩)

theorem justified_of_reachable (hstate : (agent unicode server).Reachable Orderly state) :
    Justified state := by
  refine hstate.invariant ⟨?_, ?_, ?_⟩ fun state action next hstate hjustified horderly hstep =>
    hjustified.step (sound_of_reachable hstate) horderly (stepped_of_step hstep)
  · exact fun pid hevent => absurd hevent List.not_mem_nil
  · exact fun thread hthread => absurd hthread List.not_mem_nil
  · exact fun thread hthread => absurd hthread List.not_mem_nil

end Justified

/-! ## Holders -/

/-- The process was sent secrets and told that it is protected. -/
def Holder (state : State) (inst : Instance) : Prop :=
  ∃ thread ∈ state.threads, thread.actor = .connection inst ∧
    ∃ response, Delivered thread response ∧ response.env ≠ ∅ ∧ response.isProtected = true

/-- The connection marked a PID protected. -/
def Protects (thread : Thread) : Prop :=
  ∃ pid, ⟨.protectPID pid, none⟩ ∈ thread.calls

/-- Every running process that a connection of its own marked protected is
protected. -/
def Guarded (state : State) : Prop :=
  ∀ thread ∈ state.threads, ∀ peer, thread.actor = .connection peer → Protects thread →
    state.kernel.Live peer → peer.pid ∈ state.kernel.protectedPids

section Guarded

variable {unicode : Unicode} {server : Server} {state next : State}

/-- Answering a call takes the protection from no running process, as long as
removals are justified. -/
theorem Guarded.kept {thread : Thread} {op : Op} {answer : op.Ans} {peer : Instance}
    (hjustified : Justified state) (hthread : thread ∈ state.threads)
    (hpending : thread.prog.pending = some op) (hlive : state.kernel.Live peer)
    (hpid : peer.pid ∈ state.kernel.protectedPids) :
    peer.pid ∈ (state.kernel.apply ⟨op, answer⟩).protectedPids := by
  apply Kernel.mem_apply_of_mem hpid
  intro hop
  have hfree := hjustified.removals thread hthread peer.pid (hop ▸ hpending)
  exact absurd (hlive.symm.trans hfree) (Option.some_ne_none _)

/-- Answering a call keeps every process guarded. -/
theorem Guarded.advance {index : ℕ} {thread : Thread} {op : Op} {rest : op.Ans → Program Unit}
    {answer : op.Ans} (hguarded : Guarded state) (hjustified : Justified state)
    (hthread : thread ∈ state.threads) (hpending : thread.prog.pending = some op)
    (hsound : (thread.answer state.kernel op rest answer).Sound unicode server state.kernel
      state.born) :
    Guarded
      { state with
        kernel := state.kernel.apply ⟨op, answer⟩
        threads := state.threads.set index (thread.answer state.kernel op rest answer) } := by
  intro other hother peer hactor hprotects hlive
  have hrunning : state.kernel.Live peer := (state.kernel.apply_live _ peer).1 hlive
  rcases List.mem_or_eq_of_mem_set hother with hold | rfl
  · apply Guarded.kept hjustified hthread hpending hrunning
    exact hguarded other hold peer hactor hprotects hrunning
  · obtain ⟨pid, hcall⟩ := hprotects
    rw [Thread.calls_answer] at hcall
    rcases List.mem_append.1 hcall with hearlier | hnow
    · apply Guarded.kept hjustified hthread hpending hrunning
      exact hguarded thread hthread peer hactor ⟨pid, hearlier⟩ hrunning
    · cases List.mem_singleton.1 hnow
      have hpid : pid = peer.pid :=
        pid_eq_peer hsound hactor (thread.mem_trace_answer _ _ rest none) rfl
      rw [← hpid]
      exact Finset.mem_insert_self _ _

/-- Every step keeps every process guarded, as long as removals are justified. -/
theorem Guarded.step {action : Action} (hguarded : Guarded state) (hjustified : Justified state)
    (hsound : state.Sound unicode server)
    (hstep : Stepped unicode server state action next) : Guarded next := by
  have hstarted {actor : Actor} :
      ∀ thread ∈ state.threads ++ [Thread.start unicode server actor], ∀ peer,
        thread.actor = .connection peer → Protects thread →
          state.kernel.Live peer → peer.pid ∈ state.kernel.protectedPids := by
    intro thread hthread peer hactor hprotects
    rcases List.mem_append.1 hthread with hold | hnew
    · exact hguarded thread hold peer hactor hprotects
    · rw [List.mem_singleton.1 hnew] at hprotects
      obtain ⟨pid, hcall⟩ := hprotects
      cases hcall
  cases hstep with
  | spawn inst hfree hfresh =>
      intro thread hthread peer hactor hprotects hlive
      apply hguarded thread hthread peer hactor hprotects
      rcases (state.kernel.live_spawn_iff inst peer).1 hlive with rfl | hold
      · exact absurd ((hsound.threads thread hthread).peerBorn peer hactor) hfresh
      · exact hold.2
  | exit pid reported hheld =>
      intro thread hthread peer hactor hprotects hlive
      exact hguarded thread hthread peer hactor hprotects
        ((state.kernel.live_exit_iff pid peer).1 hlive).2
  | exec pid hheld => exact hguarded
  | connect peer hlive => exact hstarted
  | deliver event rest hevents => exact hstarted
  | sweep => exact hstarted
  | advance index answers thread op rest hthread hprog hanswerable =>
      have hmem := List.mem_of_getElem? hthread
      exact hguarded.advance hjustified hmem (pending_eq_some_iff.2 ⟨rest, hprog⟩)
        ((hsound.threads thread hmem).answer hprog hanswerable)

theorem guarded_of_reachable (hstate : (agent unicode server).Reachable Orderly state) :
    Guarded state := by
  refine hstate.invariant ?_ fun state action next hstate hguarded _ hstep =>
    hguarded.step (justified_of_reachable hstate) (sound_of_reachable hstate)
      (stepped_of_step hstep)
  exact fun thread hthread => absurd hthread List.not_mem_nil

/-- A connection that tells its peer that it is protected marked it so. -/
theorem protects_of_delivered {kernel : Kernel} {born : List Instance} {thread : Thread}
    {peer : Instance} (hsound : thread.Sound unicode server kernel born)
    (hactor : thread.actor = .connection peer) {response : Response}
    (hdelivered : Delivered thread response) (henv : response.env ≠ ∅)
    (hprotected : response.isProtected = true) : Protects thread := by
  obtain ⟨cred, req, before, start, protectErr, trackErr, names, replyErr, hcalls, _, hflag⟩ :=
    calls_of_delivered hsound hactor hdelivered henv
  obtain rfl : protectErr = none := Option.isNone_iff_eq_none.1 (hflag.symm.trans hprotected)
  refine ⟨cred.pid.toUInt32, ?_⟩
  rw [hcalls]
  simp [handshake]

/-- In every state of an orderly run, every running process that was sent
secrets and told that it is protected is in the protected set. -/
theorem live_holder_protected (hstate : (agent unicode server).Reachable Orderly state)
    {inst : Instance} (hholder : Holder state inst) (hlive : state.kernel.Live inst) :
    inst.pid ∈ state.kernel.protectedPids := by
  obtain ⟨thread, hthread, hactor, response, hdelivered, henv, hprotected⟩ := hholder
  have hsound := (sound_of_reachable hstate).threads thread hthread
  have hprotects := protects_of_delivered hsound hactor hdelivered henv hprotected
  exact guarded_of_reachable hstate thread hthread inst hactor hprotects hlive

end Guarded

/-! ## Runs with reuse -/

/-- The process is released its secrets and exits, and the exit is reported. -/
def releasedAndGone : List Action := undisturbed ++ [.exit 5 true]

/-- A process with the PID that is free again is released its secrets, by the
thread with this index. -/
def releasedAgain (index : ℕ) : List Action :=
  [.spawn successor, .connect successor] ++ advances 11 index 2

/-- The exit is handled before the PID is reused. -/
def handledInTime : List Action :=
  releasedAndGone ++ [.deliver] ++ advances 1 1 1 ++ releasedAgain 2

/-- The exit is handled after the PID is reused. -/
def handledLate : List Action :=
  releasedAndGone ++ releasedAgain 1 ++ [.deliver] ++ advances 1 2 2

theorem reused_pid_protected :
    ∃ state, (agent Unicode.ascii tenantServer).Reachable Orderly state ∧
      Holder state successor ∧ state.kernel.Live successor ∧
        successor.pid ∈ state.kernel.protectedPids := by
  obtain ⟨state, hstate, hlive, thread, hthread, hactor, hdelivered⟩ :
      ∃ state, (agent Unicode.ascii tenantServer).Reachable Orderly state ∧
        state.kernel.Live successor ∧
          ∃ thread ∈ state.threads, thread.actor = .connection successor ∧
            Delivered thread tenantResponse :=
    System.exists_reachable handledInTime (by decide +kernel)
  have hholder : Holder state successor :=
    ⟨thread, hthread, hactor, tenantResponse, hdelivered, by decide, rfl⟩
  exact ⟨state, hstate, hholder, hlive, live_holder_protected hstate hholder hlive⟩

/-- Handling the exit of an earlier holder of the PID takes the protection from
a running process that was sent secrets under it. -/
theorem live_holder_unprotected :
    ∃ state, (agent Unicode.ascii tenantServer).Reachable System.Unrestricted state ∧
      Holder state successor ∧ state.kernel.Live successor ∧
        successor.pid ∉ state.kernel.protectedPids := by
  obtain ⟨state, hstate, hlive, hunprotected, thread, hthread, hactor, hdelivered⟩ :
      ∃ state, (agent Unicode.ascii tenantServer).Reachable System.Unrestricted state ∧
        state.kernel.Live successor ∧ successor.pid ∉ state.kernel.protectedPids ∧
          ∃ thread ∈ state.threads, thread.actor = .connection successor ∧
            Delivered thread tenantResponse :=
    System.exists_reachable handledLate (by decide +kernel)
  have hholder : Holder state successor :=
    ⟨thread, hthread, hactor, tenantResponse, hdelivered, by decide, rfl⟩
  exact ⟨state, hstate, hholder, hlive, hunprotected⟩

end KernelSeal.Holders

import KernelSeal.Agent.PidReuse
import KernelSeal.Bpf.FileProtect
import KernelSeal.Bpf.ExecMonitor
import Mathlib.Data.List.Infix

/-!
# PID namespaces

Four places obtain the number of a process from the kernel.  `SO_PEERCRED` gives
it in the namespace of the agent, the ptrace hook and the exit handler read it in
the initial namespace, and the file hook parses the name of a directory, which a
procfs mount gives in its own namespace.  This file determines for which
processes they are the same key of the BPF maps.
-/

namespace KernelSeal.Namespaces

open KernelSeal.Text
open KernelSeal.Resumption
open KernelSeal.Resumption.Prog
open KernelSeal.Delivery
open KernelSeal.Release
open KernelSeal.FileProtect

/-! ## Processes and their numbers -/

/-- A PID namespace by its path, which ends in the initial namespace: the
namespaces around it are the suffixes of the path. -/
abbrev Namespace := List ℕ

/-- The initial namespace. -/
def initial : Namespace := []

/-- A process, the namespace it was created in and its numbers. -/
structure Process where
  home : Namespace
  number : Namespace → UInt32

/-- A process is visible in its own namespace and in all around it. -/
def Process.Visible (process : Process) (space : Namespace) : Prop := space <:+ process.home

instance (process : Process) : DecidablePred process.Visible := fun _ =>
  inferInstanceAs (Decidable (_ <:+ _))

theorem Process.visible_initial (process : Process) : process.Visible initial :=
  List.nil_suffix

/-- In each namespace, the processes that are visible there have distinct numbers
other than 0. -/
structure ProcessTree where
  processes : List Process
  numbered : ∀ process ∈ processes, ∀ space, process.Visible space → process.number space ≠ 0
  unique : ∀ first ∈ processes, ∀ second ∈ processes, ∀ space,
    first.Visible space → second.Visible space → first.number space = second.number space →
      first = second

/-- The number that a process of namespace `space` sees; 0 stands for a process that
is not visible there. -/
def Process.numberIn (process : Process) (space : Namespace) : UInt32 :=
  if process.Visible space then process.number space else 0

/-- `SO_PEERCRED`, read by an agent in this namespace. -/
def Process.cred (process : Process) (agent : Namespace) : Ucred where
  pid := (process.numberIn agent).toInt32

/-! ## Keys -/

/-- The hook reads `protected_pids` at this key, and at no other. -/
structure ReadsAt (hook : Maps → Outcome) (key : UInt32) : Prop where
  only : ∀ (maps : Maps) (pids : PidMap), pids key = maps.protectedPids key →
    hook { maps with protectedPids := pids } = hook maps
  reads : ∃ (maps : Maps) (pids : PidMap), hook { maps with protectedPids := pids } ≠ hook maps

/-- The key of a hook is determined by what it does. -/
theorem ReadsAt.unique {hook : Maps → Outcome} {first second : UInt32}
    (hfirst : ReadsAt hook first) (hsecond : ReadsAt hook second) : first = second := by
  by_contra hdiffers
  obtain ⟨maps, pids, hchanged⟩ := hfirst.reads
  -- Change the flag of the first key only: the hook sees both all and nothing.
  let mixed : PidMap := Function.update maps.protectedPids first (pids first)
  have hall : hook { maps with protectedPids := mixed } =
      hook { maps with protectedPids := pids } :=
    hfirst.only { maps with protectedPids := pids } mixed (Function.update_self _ _ _)
  have hnothing : hook { maps with protectedPids := mixed } = hook maps :=
    hsecond.only maps mixed (Function.update_of_ne (Ne.symm hdiffers) _ _)
  exact hchanged (hall.symm.trans hnothing)

/-- A policy under which nothing but `protected_pids` allows an access. -/
def observing : PolicyConfig where
  enforceMode := modeEnforce
  blockEnviron := 1
  blockMem := 1
  blockMaps := 1
  blockPtrace := 1
  allowSelfRead := 0
  auditAll := 0

/-- No PID is protected. -/
def unprotected : Maps where
  policyConfig := some observing
  allowedPids _ := none
  protectedPids _ := none

/-- The ptrace hook looks the thread group of the target up. -/
theorem readsAt_ksPtraceAccessCheck (room : Bool) (opener : Opener) (child : Task) :
    ReadsAt (fun maps => ksPtraceAccessCheck maps room opener child) child.tgid where
  only maps pids hpids := by
    simp only [ksPtraceAccessCheck, hpids]
  reads := by
    refine ⟨unprotected, fun _ => some 1, fun hsame => ?_⟩
    have hverdict : -eperm = 0 := congrArg Outcome.verdict hsame
    exact absurd hverdict (by decide)

/-- The file hook looks the number of the directory up. -/
theorem readsAt_ksFileOpen (room : Bool) (opener : Opener) {number : UInt32} (hnumber : number ≠ 0)
    {access : AccessType} (haccess : access ≠ .ptrace) :
    ReadsAt (fun maps => ksFileOpen maps room opener ((ProcDir.process number).file access))
      number := by
  have hkey : getProcDirPid
      (((ProcDir.process number).file access).dentry.bind Dentry.parentName) = number :=
    getProcDirPid_decimal hnumber
  have hguards : observing.guards access ≠ 0 := by
    cases access with
    | ptrace => exact absurd rfl haccess
    | _ => decide
  constructor
  · intro maps pids hpids
    simp only [ksFileOpen, hkey, hpids]
  · refine ⟨unprotected, fun _ => some 1, fun hsame => ?_⟩
    have hrefused := (ksFileOpen_refuses_iff { unprotected with protectedPids := fun _ => some 1 }
      room opener ((ProcDir.process number).file access)).2
        ⟨observing, access.fileName, access, rfl, rfl, by simp [unprotected], rfl,
          classifyProcFile_fileName hguards, hguards, hkey.symm ▸ hnumber, rfl,
          by simp [observing]⟩
    rw [show ksFileOpen { unprotected with protectedPids := fun _ => some 1 } room opener
      ((ProcDir.process number).file access) = _ from hsame] at hrefused
    obtain ⟨_, _, _, hrefusal⟩ := (ksFileOpen_refuses_iff _ _ _ _).1 hrefused
    cases hrefusal.recorded

/-- The calls that use `seen_pids` or report a PID use this one. -/
def KeyedBy (key : UInt32) : ExecMonitor.Op → Prop
  | .lookupSeen pid => pid = key
  | .updateSeen pid _ => pid = key
  | .deleteSeen pid => pid = key
  | .submit event => event.pid = key
  | _ => True

/-- The exit handler uses the thread group of the current task. -/
theorem keyedBy_handleSchedProcessExit_iff {current : Events.Current} {key : UInt32} :
    (ExecMonitor.handleSchedProcessExit current).OpsIn (KeyedBy key) ↔ current.pid = key := by
  constructor
  · intro hops
    exact (hops.2 (some 0)).1
  · rintro rfl
    refine ⟨trivial, fun live => opsIn_ite ⟨rfl, fun existing => ?_⟩ trivial⟩
    cases existing with
    | none => trivial
    | some seen =>
        refine ⟨rfl, fun _ => ⟨trivial, fun monitored => opsIn_ite ⟨trivial, ?_⟩ trivial⟩⟩
        intro reserved
        cases reserved with
        | none => trivial
        | some record => exact ⟨rfl, fun _ => trivial⟩

/-! ## One key -/

/-- Every place that names the process uses this key: the ptrace hook with a thread
of the process as its target, the file hook with the directory of the process in the
procfs mount of any namespace, and the exit handler in the process. -/
structure NamedBy (process : Process) (key : UInt32) : Prop where
  ptrace : ∀ (room : Bool) (opener : Opener) (child : Task),
    child.tgid = process.number initial →
      ReadsAt (fun maps => ksPtraceAccessCheck maps room opener child) key
  fileOpen : ∀ (room : Bool) (opener : Opener) (space : Namespace) (access : AccessType),
    process.Visible space → access ≠ .ptrace →
      ReadsAt (fun maps =>
        ksFileOpen maps room opener ((ProcDir.process (process.number space)).file access)) key
  exit : ∀ current : Events.Current, current.pid = process.number initial →
    (ExecMonitor.handleSchedProcessExit current).OpsIn (KeyedBy key)

/-- The process is visible to the agent and has one number in all namespaces. -/
def Uniform (process : Process) (agent : Namespace) : Prop :=
  process.Visible agent ∧
    ∀ space, process.Visible space → process.number space = process.number agent

section Keys

variable {unicode : Unicode} {server : Server} {req : Request} {calls : List Step}
variable {response : Response}

/-- Only a release tells the caller that it is protected. -/
theorem env_ne_empty_of_protected {cred : Ucred}
    (hrun : Path (handle unicode server cred req) calls (ret response))
    (hprotected : response.isProtected = true) : response.env ≠ ∅ := by
  obtain ⟨before, after, verdict, _, _, hsecrets, hafter⟩ := handle_runs hrun
  cases verdict with
  | deny reason error =>
      obtain ⟨_, rfl⟩ := path_denied_iff.1 hafter
      cases hprotected
  | allow warning =>
      obtain ⟨_, hvalue⟩ := path_ret_iff.1 hafter
      cases hvalue
      cases hprotected
  | release matched =>
      cases release_runs hafter with
      | released start protectErr trackErr hallowed =>
          exact environment_ne_empty (hsecrets matched rfl)
      | _ => cases hprotected

/-- The number of a process is what its places agree on, if they do. -/
theorem namedBy_iff (tree : ProcessTree) {process : Process} (hprocess : process ∈ tree.processes)
    {key : UInt32} :
    NamedBy process key ↔ ∀ space, process.Visible space → process.number space = key := by
  have hnumber := tree.numbered process hprocess
  constructor
  · intro hnamed space hvisible
    have hreads := hnamed.fileOpen true ⟨0, 0, 0⟩ space .environ hvisible (by decide)
    exact (readsAt_ksFileOpen _ _ (hnumber space hvisible) (by decide)).unique hreads
  · intro hsame
    have hinitial := hsame initial process.visible_initial
    refine ⟨fun room opener child hchild => ?_, fun room opener space access hvisible haccess => ?_,
      fun current hcurrent => ?_⟩
    · rw [← hinitial, ← hchild]
      exact readsAt_ksPtraceAccessCheck room opener child
    · rw [← hsame space hvisible]
      exact readsAt_ksFileOpen room opener (hnumber space hvisible) haccess
    · exact keyedBy_handleSchedProcessExit_iff.2 (hcurrent.trans hinitial)

end Keys

/-- For every process tree, every namespace of the agent and every caller that was told
that it is protected: the key under which it was protected and tracked is the key of
the hooks and of the exit handler if and only if the caller is visible to the agent
and has the same number in every namespace in which it is visible. -/
theorem stored_key_iff (tree : ProcessTree) {process : Process}
    (hprocess : process ∈ tree.processes) (agent : Namespace) {unicode : Unicode}
    {server : Server} {req : Request} {calls : List Step} {response : Response}
    (hrun : Path (handle unicode server (process.cred agent) req) calls (ret response))
    (hprotected : response.isProtected = true) :
    ∃ key, protectorCalls calls = [.protectPID key, .trackPID key] ∧
      (NamedBy process key ↔ Uniform process agent) := by
  have hcontract := handle_contract hrun
  obtain ⟨_, hcalls, _⟩ := hcontract.released (env_ne_empty_of_protected hrun hprotected)
  have hkey : (process.cred agent).pid.toUInt32 = process.numberIn agent := by
    simp [Process.cred]
  rw [hkey] at hcalls
  refine ⟨process.numberIn agent, hcalls, ?_⟩
  rw [namedBy_iff tree hprocess, Uniform, Process.numberIn]
  by_cases hvisible : process.Visible agent
  · simp [hvisible]
  · simp only [hvisible, if_false, false_and, iff_false, not_forall]
    exact ⟨initial, process.visible_initial,
      tree.numbered process hprocess initial process.visible_initial⟩

/-! ## A sidecar -/

/-- A process of the pod, and one of the host. -/
def application : Process where
  home := [1]
  number space := if space = [1] then 7 else 4242

def hostProcess : Process where
  home := initial
  number _ := 7

def host : ProcessTree where
  processes := [application, hostProcess]
  numbered := by
    intro process hprocess space _
    simp only [List.mem_cons, List.not_mem_nil, or_false] at hprocess
    rcases hprocess with rfl | rfl
    · change (if space = [1] then (7 : UInt32) else 4242) ≠ 0
      split <;> decide
    · exact (by decide : (7 : UInt32) ≠ 0)
  unique := by
    have hdiffer {space : Namespace} (hvisible : hostProcess.Visible space) :
        application.number space ≠ hostProcess.number space := by
      rw [List.suffix_nil.1 hvisible]
      decide
    intro first hfirst second hsecond space hvisible hvisible' hsame
    simp only [List.mem_cons, List.not_mem_nil, or_false] at hfirst hsecond
    rcases hfirst with rfl | rfl <;> rcases hsecond with rfl | rfl
    · rfl
    · exact absurd hsame (hdiffer hvisible')
    · exact absurd hsame.symm (hdiffer hvisible)
    · rfl

/-- The request of a process to an agent in this namespace, where every call
succeeds. -/
def served (process : Process) (agent : Namespace) : Response × List Step :=
  run (fun _ => PidReuse.answers 1) []
    (handle Unicode.ascii PidReuse.tenantServer (process.cred agent) ⟨str "node"⟩)

theorem host_process_named :
    ∃ key, protectorCalls (served hostProcess initial).2 = [.protectPID key, .trackPID key] ∧
      NamedBy hostProcess key := by
  obtain ⟨key, hcalls, hnamed⟩ := stored_key_iff host (List.mem_cons_of_mem _ List.mem_cons_self)
    initial (path_run _ [] (handle Unicode.ascii PidReuse.tenantServer _ ⟨str "node"⟩))
    (by decide +kernel : (served hostProcess initial).1.isProtected = true)
  exact ⟨key, hcalls, hnamed.2 ⟨hostProcess.visible_initial, fun _ _ => rfl⟩⟩

/-- An agent that shares the namespace of the pod protects and tracks a process of the
host instead of the application. -/
theorem sidecar_key_differs :
    (served application [1]).1.isProtected = true ∧
      protectorCalls (served application [1]).2 = [.protectPID 7, .trackPID 7] ∧
      hostProcess.number initial = 7 ∧ ¬ NamedBy application 7 := by
  refine ⟨by decide +kernel, by decide +kernel, rfl, fun hnamed => ?_⟩
  have hinitial := (namedBy_iff host List.mem_cons_self).1 hnamed initial
    application.visible_initial
  exact absurd hinitial (by decide)

end KernelSeal.Namespaces

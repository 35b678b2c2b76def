import KernelSeal.Policy.Loader

/-!
# Starting the agent

This file models `main` of the agent from the loaded configuration to `Serve`, with
`LoadExecMonitor`, `LoadLSM`, `AllowPID`, `ConfigurePolicy` and `startIdentity`.  What can
fail on the way either ends the agent or is logged and passed over.  The hooks that are
attached and the maps that are written are read off the calls that succeeded.
-/

namespace KernelSeal.Startup

open KernelSeal.Text
open KernelSeal.Resumption
open KernelSeal.Resumption.Prog
open KernelSeal.Delivery (GoError)
open KernelSeal.FileProtect
open KernelSeal.Loader

/-! ## The calls -/

/-- The two BPF object files. -/
inductive Object where
  | execMonitor
  | lsm
  deriving DecidableEq

/-- The places where programs are attached. -/
inductive Hook where
  | sysEnterExecve
  | schedProcessExec
  | schedProcessExit
  | fileOpen
  | ptraceAccessCheck
  deriving DecidableEq

/-- What fails with an error or succeeds. -/
inductive Attempt where
  | removeMemlock
  | loadCollectionSpec (object : Object)
  | loadAndAssign (object : Object)
  | attach (hook : Hook)
  | newReader (object : Object)
  | putAllowedPid (pid : UInt32)
  | putPolicyConfig (policy : PolicyConfig)
  | newWatcher
  | startWatcher
  | listen
  deriving DecidableEq

inductive Op where
  | attempt (what : Attempt)
  | readLsmList
  | configureBinaryFilter
  | start (lsm : Bool)
  | inCluster
  | serve

@[reducible]
def Op.Ans : Op → Type
  | .attempt _ => Option GoError
  | .readLsmList => Except GoError GoString
  | .configureBinaryFilter => Unit
  | .start _ => Unit
  | .inCluster => Bool
  | .serve => Unit

abbrev Program := Prog Op Op.Ans
abbrev Step := Call Op Op.Ans

/-! ## Loading -/

/-- Try, and return the error with its context. -/
def orFail (what : Attempt) (context : GoString) (next : Program (Option GoError)) :
    Program (Option GoError) :=
  call (Op.attempt what) fun err =>
    match err with
    | some err => ret (some (context ++ err))
    | none => next

/-- `LoadExecMonitor`. -/
def loadExecMonitor : Program (Option GoError) :=
  orFail .removeMemlock (str "removing memlock rlimit: ") <|
  orFail (.loadCollectionSpec .execMonitor) (str "failed to load exec monitor spec: ") <|
  orFail (.loadAndAssign .execMonitor) (str "failed to load exec monitor objects: ") <|
  orFail (.attach .sysEnterExecve) (str "failed to attach execve tracepoint: ") <|
  orFail (.attach .schedProcessExec) (str "failed to attach sched_process_exec tracepoint: ") <|
  orFail (.attach .schedProcessExit) (str "failed to attach exit tracepoint: ") <|
  orFail (.newReader .execMonitor) (str "failed to create exec ring buffer reader: ") <|
  ret none

/-- What `LoadLSM` leaves in the manager, and its error. -/
structure Loaded where
  assigned : Bool := false
  reader : Bool := false
  err : Option GoError := none

/-- `isLSMAvailable`. -/
def isLSMAvailable : Except GoError GoString → Bool
  | .error _ => false
  | .ok data => str "bpf" <:+: data

/-- `LoadLSM`.  The memory limit has been lifted before, and that is done only once. -/
def loadLSM : Program Loaded :=
  call Op.readLsmList fun data =>
    if ¬ isLSMAvailable data then ret {}
    else call (Op.attempt (.loadCollectionSpec .lsm)) fun err =>
      match err with
      | some err => ret { err := some (str "failed to load LSM spec: " ++ err) }
      | none =>
          call (Op.attempt (.loadAndAssign .lsm)) fun err =>
            match err with
            | some _ => ret {}
            | none =>
                -- a hook that cannot be attached is only logged
                call (Op.attempt (.attach .fileOpen)) fun _ =>
                call (Op.attempt (.attach .ptraceAccessCheck)) fun _ =>
                call (Op.attempt (.newReader .lsm)) fun err =>
                ret { assigned := true
                      reader := err.isNone
                      err := err.map (str "failed to create LSM ring buffer reader: " ++ ·) }

/-- `AllowPID`. -/
def allowPID (assigned : Bool) (pid : UInt32) : Program (Option GoError) :=
  if assigned then
    orFail (.putAllowedPid pid) (str "failed to add allowed PID " ++ decimal pid.toNat ++ str ": ")
      (ret none)
  else ret none

/-- `ConfigurePolicy`. -/
def configurePolicy (assigned : Bool) (policy : PolicyConfig) : Program (Option GoError) :=
  if assigned then
    orFail (.putPolicyConfig policy) (str "failed to update policy config: ") (ret none)
  else ret (some (str "LSM not loaded"))

/-- What `startIdentity` returns: whether there is an identifier, and whether it has a pod
watcher. -/
structure Identification where
  identifier : Bool := false
  podWatcher : Bool := false
  deriving DecidableEq

/-- Without pods, callers are identified by cgroup only; required pod identity does not
go on like that. -/
def withoutPods (mode : PodIdentityMode) (fatal : GoError) : Except GoError Identification :=
  if mode = .required then .error fatal else .ok { identifier := true }

/-- `startIdentity`. -/
def startIdentity (mode : PodIdentityMode) : Program (Except GoError Identification) :=
  if mode = .disabled then ret (.ok {})
  else call Op.inCluster fun inCluster =>
    if ¬ inCluster then
      ret (withoutPods mode
        (str "policy.podIdentity is required but this agent is not running in a " ++
        str "cluster, so no caller can be attributed to a pod and every request would be refused."))
    else call (Op.attempt .newWatcher) fun err =>
      match err with
      | some err =>
          ret (withoutPods mode
            (str "policy.podIdentity is required but the pod watcher could not " ++
              str "be created: " ++ err))
      | none =>
          call (Op.attempt .startWatcher) fun err =>
            match err with
            | some err =>
                ret (withoutPods mode
                  (str "policy.podIdentity is required but the initial pod list failed: " ++ err))
            | none => ret (.ok { identifier := true, podWatcher := true })

/-! ## `main` -/

/-- An agent that serves. -/
structure Serving where
  lsmLoaded : Bool
  policy : PolicyConfig
  cfg : Delivery.Config
  identification : Identification

section Main

variable (unicode : Unicode) (config : KernelSealConfig) (ownPid : UInt32)

/-- The flags that `main` gives the server. -/
def serverConfig : Delivery.Config where
  requireProtection := (getBPFPolicy unicode config).enforceMode = modeEnforce
  identifyCallers := podIdentityMode unicode config ≠ .disabled
  requirePodIdentity := podIdentityMode unicode config = .required

/-- `main` from the readers on. -/
def serveAfter (loaded : Loaded) : Program (Except GoError Serving) :=
  call (Op.start loaded.reader) fun _ =>
    startIdentity (podIdentityMode unicode config) >>= fun identified =>
      match identified with
      | .error err => ret (.error err)
      | .ok identification =>
          call (Op.attempt .listen) fun err =>
            match err with
            | some err => ret (.error (str "Failed to open secret socket: " ++ err))
            | none =>
                call Op.serve fun _ =>
                ret (.ok
                  { lsmLoaded := loaded.assigned
                    policy := getBPFPolicy unicode config
                    cfg := serverConfig unicode config
                    identification })

/-- `main` up to `Serve`.  An error ends the agent. -/
def startup : Program (Except GoError Serving) :=
  loadExecMonitor >>= fun err =>
    match err with
    | some err => ret (.error (str "Failed to load exec monitor: " ++ err))
    | none =>
        call Op.configureBinaryFilter fun _ =>
          loadLSM >>= fun loaded =>
            allowPID loaded.assigned ownPid >>= fun _ =>
              configurePolicy loaded.assigned (getBPFPolicy unicode config) >>= fun _ =>
                serveAfter unicode config loaded

end Main

/-! ## What the kernel has -/

/-- What the calls of a run achieved, in order. -/
def achieved (calls : List Step) : List Attempt :=
  calls.filterMap fun step =>
    match step with
    | ⟨.attempt what, none⟩ => some what
    | _ => none

/-- What they failed to do. -/
def failed (calls : List Step) : List Attempt :=
  calls.filterMap fun step =>
    match step with
    | ⟨.attempt what, some _⟩ => some what
    | _ => none

/-- A policy map that nothing was written to. -/
def blankPolicy : PolicyConfig := ⟨0, 0, 0, 0, 0, 0, 0⟩

/-- A write to the policy map replaces what is there. -/
def writePolicy (policy : PolicyConfig) : Attempt → PolicyConfig
  | .putPolicyConfig written => written
  | _ => policy

/-- The maps of the hooks, with the processes that are protected. -/
def maps (done : List Attempt) (protectedPids : PidMap) : Maps where
  policyConfig := some (done.foldl writePolicy blankPolicy)
  allowedPids pid := if .putAllowedPid pid ∈ done then some 1 else none
  protectedPids := protectedPids

/-- What the kernel says to an `open`: without the hook, it is allowed. -/
def fileOpen (done : List Attempt) (protectedPids : PidMap) (room : Bool) (opener : Opener)
    (file : File) : ℤ :=
  if .attach .fileOpen ∈ done then (ksFileOpen (maps done protectedPids) room opener file).verdict
  else 0

/-- What it says to an attach to a task. -/
def ptraceAccessCheck (done : List Attempt) (protectedPids : PidMap) (room : Bool)
    (opener : Opener) (child : Task) : ℤ :=
  if .attach .ptraceAccessCheck ∈ done then
    (ksPtraceAccessCheck (maps done protectedPids) room opener child).verdict
  else 0

theorem mem_achieved_iff {calls : List Step} {what : Attempt} :
    what ∈ achieved calls ↔ ⟨.attempt what, none⟩ ∈ calls := by
  rw [achieved, List.mem_filterMap]
  constructor
  · rintro ⟨⟨op, answer⟩, hstep, hwhat⟩
    cases op with
    | attempt other =>
        cases answer with
        | none =>
            cases hwhat
            exact hstep
        | some err => cases hwhat
    | _ => cases hwhat
  · exact fun hstep => ⟨_, hstep, rfl⟩

theorem mem_failed {calls : List Step} {what : Attempt} {err : GoError}
    (hstep : ⟨.attempt what, some err⟩ ∈ calls) : what ∈ failed calls :=
  List.mem_filterMap.2 ⟨_, hstep, rfl⟩

/-- If only one policy is ever written, the map holds it or is blank. -/
theorem foldl_writePolicy {done : List Attempt} {policy : PolicyConfig}
    (hdone : ∀ other, .putPolicyConfig other ∈ done → other = policy) (start : PolicyConfig) :
    done.foldl writePolicy start = if .putPolicyConfig policy ∈ done then policy else start := by
  induction done generalizing start with
  | nil => rfl
  | cons what done ih =>
      rw [List.foldl_cons, ih fun other hother => hdone other (List.mem_cons_of_mem _ hother)]
      cases what with
      | putPolicyConfig written =>
          rw [hdone written List.mem_cons_self, writePolicy]
          simp
      | _ => simp [writePolicy]

/-! ## Starts on a host -/

/-- Every call is answered alike: what is refused fails, and the rest succeeds. -/
def answers (refused : List Attempt) : Oracle Op Op.Ans := fun _ op =>
  match op with
  | .attempt what => if what ∈ refused then some (str "operation not permitted") else none
  | .readLsmList => .ok (str "lockdown,capability,yama,bpf")
  | .configureBinaryFilter => ()
  | .start _ => ()
  | .inCluster => true
  | .serve => ()

/-- The start of an agent with the default configuration. -/
def started (refused : List Attempt) : Except GoError Serving × List Step :=
  run (answers refused) [] (startup Unicode.ascii {} 10)

/-- An unprivileged process opens the environment of process 7, which is protected. -/
def opened (refused : List Attempt) (opener : UInt32) : ℤ :=
  fileOpen (achieved (started refused).2) (fun pid => if pid = 7 then some 1 else none) true
    ⟨opener, opener, 0⟩ ((ProcDir.process 7).file .environ)

/-! ## The calls of the programs -/

/-- The call writes a map of the hooks. -/
def Op.WritesMap : Op → Prop
  | .attempt (.putPolicyConfig _) | .attempt (.putAllowedPid _) => True
  | _ => False

/-- A write is of this policy or this PID. -/
def Op.Writes (policy : PolicyConfig) (pid : UInt32) : Op → Prop
  | .attempt (.putPolicyConfig written) => written = policy
  | .attempt (.putAllowedPid written) => written = pid
  | _ => True

/-- The call writes the policy. -/
def Op.SetsPolicy (op : Op) : Prop := ∃ policy, op = .attempt (.putPolicyConfig policy)

/-- The call writes the PID. -/
def Op.Allows (pid : UInt32) (op : Op) : Prop := op = .attempt (.putAllowedPid pid)

theorem Op.writes_of_not_writesMap {policy : PolicyConfig} {pid : UInt32} {op : Op}
    (hop : ¬ op.WritesMap) : op.Writes policy pid := by
  cases op with
  | attempt what =>
      cases what with
      | putPolicyConfig written => exact absurd trivial hop
      | putAllowedPid written => exact absurd trivial hop
      | _ => trivial
  | _ => trivial

theorem Op.not_setsPolicy_of_not_writesMap {op : Op} (hop : ¬ op.WritesMap) : ¬ op.SetsPolicy := by
  rintro ⟨policy, rfl⟩
  exact hop trivial

section Calls

variable {unicode : Unicode} {config : KernelSealConfig} {ownPid : UInt32}

theorem opsIn_orFail {allowed : Op → Prop} {what : Attempt} {context : GoString}
    {next : Program (Option GoError)} (hwhat : allowed (.attempt what))
    (hnext : next.OpsIn allowed) : (orFail what context next).OpsIn allowed := by
  refine ⟨hwhat, fun err => ?_⟩
  cases err with
  | some err => trivial
  | none => exact hnext

theorem opsIn_loadExecMonitor : loadExecMonitor.OpsIn fun op => ¬ op.WritesMap :=
  opsIn_orFail id <| opsIn_orFail id <| opsIn_orFail id <| opsIn_orFail id <|
  opsIn_orFail id <| opsIn_orFail id <| opsIn_orFail id trivial

theorem opsIn_loadLSM : loadLSM.OpsIn fun op => ¬ op.WritesMap := by
  refine ⟨id, fun data => ?_⟩
  apply opsIn_ite
  · trivial
  refine ⟨id, fun err => ?_⟩
  cases err with
  | some err => trivial
  | none =>
      refine ⟨id, fun err => ?_⟩
      cases err with
      | some err => trivial
      | none => exact ⟨id, fun _ => ⟨id, fun _ => ⟨id, fun _ => trivial⟩⟩⟩

theorem opsIn_startIdentity (mode : PodIdentityMode) {allowed : Op → Prop}
    (hasked : allowed .inCluster) (hcreated : allowed (.attempt .newWatcher))
    (hstarted : allowed (.attempt .startWatcher)) : (startIdentity mode).OpsIn allowed := by
  apply opsIn_ite
  · trivial
  refine ⟨hasked, fun inCluster => ?_⟩
  apply opsIn_ite
  · trivial
  refine ⟨hcreated, fun err => ?_⟩
  cases err with
  | some err => trivial
  | none =>
      refine ⟨hstarted, fun err => ?_⟩
      cases err <;> trivial

theorem opsIn_serveAfter (loaded : Loaded) :
    (serveAfter unicode config loaded).OpsIn fun op => ¬ op.WritesMap := by
  rw [serveAfter]
  -- what the mode is parsed from does not matter, and is not to be computed
  generalize podIdentityMode unicode config = mode
  refine ⟨id, fun _ => opsIn_bind (opsIn_startIdentity mode id id id) fun identified => ?_⟩
  cases identified with
  | error err => trivial
  | ok identification =>
      refine ⟨id, fun err => ?_⟩
      cases err with
      | some err => trivial
      | none => exact ⟨id, fun _ => trivial⟩

/-- The maps are written with the configured policy and the agent's own PID only. -/
theorem opsIn_startup :
    (startup unicode config ownPid).OpsIn (Op.Writes (getBPFPolicy unicode config) ownPid) := by
  have hnone (op : Op) : ¬ op.WritesMap → op.Writes (getBPFPolicy unicode config) ownPid :=
    Op.writes_of_not_writesMap
  refine opsIn_bind (opsIn_loadExecMonitor.mono hnone) fun err => ?_
  cases err with
  | some err => trivial
  | none =>
      refine ⟨trivial, fun _ => opsIn_bind (opsIn_loadLSM.mono hnone) fun loaded => ?_⟩
      refine opsIn_bind ?_ fun _ => opsIn_bind ?_ fun _ => (opsIn_serveAfter loaded).mono hnone
      · exact opsIn_ite (opsIn_orFail rfl trivial) trivial
      · exact opsIn_ite (opsIn_orFail rfl trivial) trivial

/-- The agent allows its own PID before it writes the policy. -/
theorem precedes_startup :
    (startup unicode config ownPid).Precedes (Op.Allows ownPid) Op.SetsPolicy := by
  have hnone (op : Op) : ¬ op.WritesMap → ¬ op.SetsPolicy := Op.not_setsPolicy_of_not_writesMap
  refine precedes_bind (opsIn_loadExecMonitor.mono hnone) fun err => ?_
  cases err with
  | some err => trivial
  | none =>
      refine Or.inr ⟨nofun, fun _ => precedes_bind (opsIn_loadLSM.mono hnone) fun loaded => ?_⟩
      cases hassigned : loaded.assigned with
      | true => exact Or.inl rfl
      | false => exact ((opsIn_serveAfter loaded).mono hnone).precedes

end Calls

/-! ## Who is refused -/

section Refused

variable {unicode : Unicode} {config : KernelSealConfig} {ownPid : UInt32} {calls : List Step}
variable {final : Program (Except GoError Serving)}

theorem policy_of_achieved (hpath : Path (startup unicode config ownPid) calls final)
    {policy : PolicyConfig} (hpolicy : .putPolicyConfig policy ∈ achieved calls) :
    policy = getBPFPolicy unicode config :=
  (hpath.opsIn opsIn_startup).1 _ (mem_achieved_iff.1 hpolicy)

theorem pid_of_achieved (hpath : Path (startup unicode config ownPid) calls final) {pid : UInt32}
    (hpid : .putAllowedPid pid ∈ achieved calls) : pid = ownPid :=
  (hpath.opsIn opsIn_startup).1 _ (mem_achieved_iff.1 hpid)

theorem maps_policyConfig (hpath : Path (startup unicode config ownPid) calls final)
    (protectedPids : PidMap) :
    (maps (achieved calls) protectedPids).policyConfig =
      some (if .putPolicyConfig (getBPFPolicy unicode config) ∈ achieved calls then
        getBPFPolicy unicode config else blankPolicy) :=
  congrArg some (foldl_writePolicy (fun _ => policy_of_achieved hpath) _)

/-- The policy map of an agent that is starting is disabled until the agent allows itself. -/
theorem disabled_or_allowed (hpath : Path (startup unicode config ownPid) calls final)
    (hput : .putAllowedPid ownPid ∉ failed calls) (protectedPids : PidMap) :
    (maps (achieved calls) protectedPids).policyConfig = some blankPolicy ∨
      (maps (achieved calls) protectedPids).allowedPids ownPid = some 1 := by
  rw [maps_policyConfig hpath]
  split
  · rename_i hpolicy
    right
    obtain ⟨⟨op, answer⟩, hfirst, hallows⟩ :=
      hpath.precedes precedes_startup (mem_achieved_iff.1 hpolicy) ⟨_, rfl⟩
    cases hallows
    cases answer with
    | some err => exact absurd (mem_failed hfirst) hput
    | none => exact if_pos (mem_achieved_iff.2 hfirst)
  · exact Or.inl rfl

end Refused

theorem classified_fileName {access shown : AccessType}
    (hclass : classifyProcFile (probeReadStr maxProcFileLen access.fileName).1 = some shown) :
    shown = access := by
  have hknown : classifyProcFile (probeReadStr maxProcFileLen access.fileName).1 =
      if access = .ptrace then none else some access := by
    cases access <;> decide
  rw [hknown] at hclass
  exact (Option.some.inj (Option.ite_none_left_eq_some.1 hclass).2).symm

/-- The configured switch for a kind of file. -/
def blocks (policy : PolicySpec) : AccessType → Bool
  | .environ => policy.blockEnviron
  | .mem => policy.blockMem
  | .maps => policy.blockMaps
  | .ptrace => false

theorem guards_getBPFPolicy (unicode : Unicode) (config : KernelSealConfig) (access : AccessType) :
    (getBPFPolicy unicode config).guards access ≠ 0 ↔ blocks config.policy access = true := by
  have hflag (flag : Bool) : boolToUint8 flag ≠ 0 ↔ flag = true := by cases flag <;> decide
  cases access with
  | ptrace => exact iff_of_false (fun hguarded => hguarded rfl) nofun
  | _ => exact hflag _

/-- The mode enforces: it is spelled neither of the other two. -/
def Enforces (unicode : Unicode) (config : KernelSealConfig) : Prop :=
  toLower unicode config.policy.mode ≠ str "disabled" ∧
    toLower unicode config.policy.mode ≠ str "audit"

instance (unicode : Unicode) (config : KernelSealConfig) : Decidable (Enforces unicode config) :=
  inferInstanceAs (Decidable (_ ∧ _))

theorem enforceMode_eq_iff (unicode : Unicode) (config : KernelSealConfig) :
    (getBPFPolicy unicode config).enforceMode = modeEnforce ↔ Enforces unicode config := by
  rw [getBPFPolicy, Enforces]
  dsimp only
  split_ifs with hdisabled haudit
  · simp [hdisabled, modeDisabled, modeEnforce]
  · simp [haudit, modeAudit, modeEnforce]
  · simp [hdisabled, haudit]

/-- Protection is required where the mode enforces. -/
theorem requireProtection_iff (unicode : Unicode) (config : KernelSealConfig) :
    (serverConfig unicode config).requireProtection = true ↔ Enforces unicode config := by
  rw [serverConfig, decide_eq_true_iff, enforceMode_eq_iff]

/-- Only a hook that is attached refuses. -/
theorem fileOpen_refuses_iff {done : List Attempt} {protectedPids : PidMap} {room : Bool}
    {opener : Opener} {file : File} :
    fileOpen done protectedPids room opener file = -eperm ↔
      .attach .fileOpen ∈ done ∧
        (ksFileOpen (maps done protectedPids) room opener file).verdict = -eperm := by
  rw [fileOpen]
  split_ifs with hattached
  · exact (and_iff_right hattached).symm
  · exact iff_of_false (by decide) fun hrefused => hattached hrefused.1

/-- The hook refuses a stranger a file of a protected process under the policy that was
written, if that enforces and guards such files. -/
theorem ksFileOpen_refuses_stranger_iff {unicode : Unicode} {config : KernelSealConfig}
    {ownPid : UInt32} {calls : List Step} {final : Program (Except GoError Serving)}
    (hpath : Path (startup unicode config ownPid) calls final) {protectedPids : PidMap}
    {opener : Opener} {target : UInt32} (hopener : opener.pid ≠ ownPid) (htarget : target ≠ 0)
    (hprotected : protectedPids target = some 1) (hstranger : opener.pid ≠ target) (room : Bool)
    (access : AccessType) :
    (ksFileOpen (maps (achieved calls) protectedPids) room opener
        ((ProcDir.process target).file access)).verdict = -eperm ↔
      .putPolicyConfig (getBPFPolicy unicode config) ∈ achieved calls ∧
      Enforces unicode config ∧ blocks config.policy access = true := by
  have hpid : getProcDirPid (((ProcDir.process target).file access).dentry.bind
      Dentry.parentName) = target := getProcDirPid_decimal htarget
  rw [ksFileOpen_refuses_iff]
  constructor
  · rintro ⟨policy, name, shown, hrefusal⟩
    have hconfigured := hrefusal.configured
    rw [maps_policyConfig hpath, Option.some.injEq] at hconfigured
    by_cases hput : .putPolicyConfig (getBPFPolicy unicode config) ∈ achieved calls
    · rw [if_pos hput] at hconfigured
      subst hconfigured
      have hname : access.fileName = name := Option.some.inj hrefusal.named
      have hshown : shown = access := classified_fileName (hname ▸ hrefusal.classified)
      exact ⟨hput, (enforceMode_eq_iff unicode config).1 hrefusal.enforced,
        (guards_getBPFPolicy unicode config access).1 (hshown ▸ hrefusal.guarded)⟩
    · rw [if_neg hput] at hconfigured
      subst hconfigured
      exact absurd hrefusal.enforced (by decide)
  · rintro ⟨hput, henforces, hblocks⟩
    have hguards := (guards_getBPFPolicy unicode config access).2 hblocks
    refine ⟨getBPFPolicy unicode config, access.fileName, access, ?_,
      (enforceMode_eq_iff unicode config).2 henforces, ?_, rfl,
      classifyProcFile_fileName hguards, hguards, ?_, ?_, ?_⟩
    · rw [maps_policyConfig hpath, if_pos hput]
    · intro hallowed
      have hmem : .putAllowedPid opener.pid ∈ achieved calls := by
        by_contra hnone
        exact nomatch (if_neg hnone).symm.trans hallowed
      exact hopener (pid_of_achieved hpath hmem)
    · rw [hpid]
      exact htarget
    · rw [hpid]
      exact hprotected
    · rw [hpid]
      exact fun hself => hstranger hself.2

/-- While the agent starts and after it, another process is refused a file of a protected
process exactly if the file hook could be attached, the policy could be written, the
configured mode enforces and the configuration blocks that kind of file.  That the maps
were loaded, which is all that protecting a process and the readiness probe depend on, does
not enter. -/
theorem startup_refuses_iff (unicode : Unicode) (config : KernelSealConfig) (ownPid : UInt32)
    {calls : List Step} {final : Program (Except GoError Serving)}
    (hpath : Path (startup unicode config ownPid) calls final) (protectedPids : PidMap)
    (opener : Opener) (target : UInt32) (hopener : opener.pid ≠ ownPid) (htarget : target ≠ 0)
    (hprotected : protectedPids target = some 1) (hstranger : opener.pid ≠ target) (room : Bool)
    (access : AccessType) :
    fileOpen (achieved calls) protectedPids room opener ((ProcDir.process target).file access) =
        -eperm ↔
      .attach .fileOpen ∈ achieved calls ∧
      .putPolicyConfig (getBPFPolicy unicode config) ∈ achieved calls ∧
      Enforces unicode config ∧ blocks config.policy access = true := by
  rw [fileOpen_refuses_iff,
    ksFileOpen_refuses_stranger_iff hpath hopener htarget hprotected hstranger]

/-- An agent whose file hook could not be attached serves, with the maps loaded and
protection required, and refuses nobody. -/
theorem unattached_agent_refuses_nobody :
    opened [] 20 = -eperm ∧
    (∃ serving, (started [.attach .fileOpen]).1 = .ok serving ∧ serving.lsmLoaded = true ∧
      serving.cfg.requireProtection = true) ∧
    opened [.attach .fileOpen] 20 ≠ -eperm := by
  have hiff (refused : List Attempt) := startup_refuses_iff Unicode.ascii {} 10
    (path_run (answers refused) [] _) (fun pid => if pid = 7 then some 1 else none)
    ⟨20, 20, 0⟩ 7 (by decide) (by decide) rfl (by decide) true .environ
  refine ⟨(hiff []).2 (by decide +kernel), ⟨_, rfl, rfl, by decide +kernel⟩, fun hrefused => ?_⟩
  exact absurd ((hiff [.attach .fileOpen]).1 hrefused).1 (by decide +kernel)

/-! ## What a serving agent has -/

section Served

variable {unicode : Unicode} {config : KernelSealConfig} {ownPid : UInt32} {calls : List Step}

theorem path_orFail_none_iff {what : Attempt} {context : GoString}
    {next : Program (Option GoError)} :
    Path (orFail what context next) calls (ret none) ↔
      ∃ rest, calls = ⟨.attempt what, none⟩ :: rest ∧ Path next rest (ret none) := by
  rw [orFail, path_call_ret_iff]
  constructor
  · rintro ⟨err, rest, rfl, hrest⟩
    cases err with
    | some err => exact nomatch (path_ret_iff.1 hrest).2
    | none => exact ⟨rest, rfl, hrest⟩
  · rintro ⟨rest, rfl, hrest⟩
    exact ⟨none, rest, rfl, hrest⟩

/-- An exec monitor that is loaded has its three tracepoints and its reader. -/
theorem achieved_loadExecMonitor (hpath : Path loadExecMonitor calls (ret none)) :
    achieved calls =
      [.removeMemlock, .loadCollectionSpec .execMonitor, .loadAndAssign .execMonitor,
        .attach .sysEnterExecve, .attach .schedProcessExec, .attach .schedProcessExit,
        .newReader .execMonitor] := by
  simp only [loadExecMonitor, path_orFail_none_iff, path_ret_iff] at hpath
  obtain ⟨_, rfl, _, rfl, _, rfl, _, rfl, _, rfl, _, rfl, _, rfl, rfl, _⟩ := hpath
  rfl

/-- Going on without pods is not for required pod identity. -/
theorem withoutPods_ok {mode : PodIdentityMode} {fatal : GoError} {identification : Identification}
    (hok : withoutPods mode fatal = .ok identification) (hnone : .startWatcher ∉ achieved calls) :
    identification.identifier = true ∧
      (identification.podWatcher = true ↔ .startWatcher ∈ achieved calls) ∧
      (mode = .required → identification.podWatcher = true) := by
  rw [withoutPods] at hok
  split at hok
  · cases hok
  · rename_i hmode
    cases hok
    exact ⟨rfl, iff_of_false nofun hnone, fun hrequired => absurd hrequired hmode⟩

/-- There is a pod watcher exactly if the initial list succeeded. -/
theorem startIdentity_ok {mode : PodIdentityMode} (hmode : mode ≠ .disabled)
    {identification : Identification}
    (hpath : Path (startIdentity mode) calls (ret (.ok identification))) :
    identification.identifier = true ∧
      (identification.podWatcher = true ↔ .startWatcher ∈ achieved calls) ∧
      (mode = .required → identification.podWatcher = true) := by
  rw [startIdentity, if_neg hmode] at hpath
  obtain ⟨inCluster, joined, rfl, hjoined⟩ := path_call_ret_iff.1 hpath
  split at hjoined
  · obtain ⟨rfl, hvalue⟩ := path_ret_iff.1 hjoined
    exact withoutPods_ok (ret.inj hvalue).symm (by simp [achieved])
  obtain ⟨err, created, rfl, hcreated⟩ := path_call_ret_iff.1 hjoined
  cases err with
  | some err =>
      obtain ⟨rfl, hvalue⟩ := path_ret_iff.1 hcreated
      exact withoutPods_ok (ret.inj hvalue).symm (by simp [achieved])
  | none =>
      obtain ⟨err, started, rfl, hstarted⟩ := path_call_ret_iff.1 hcreated
      cases err with
      | some err =>
          obtain ⟨rfl, hvalue⟩ := path_ret_iff.1 hstarted
          exact withoutPods_ok (ret.inj hvalue).symm (by simp [achieved])
      | none =>
          obtain ⟨rfl, hvalue⟩ := path_ret_iff.1 hstarted
          cases hvalue
          exact ⟨rfl, iff_of_true rfl (by simp [achieved]), fun _ => rfl⟩

/-- The end of a start that succeeds. -/
theorem path_serveAfter {loaded : Loaded} {serving : Serving}
    (hpath : Path (serveAfter unicode config loaded) calls (ret (.ok serving))) :
    ∃ identified, calls = ⟨.start loaded.reader, ()⟩ :: (identified ++
        [⟨.attempt .listen, none⟩, ⟨.serve, ()⟩]) ∧
      Path (startIdentity (podIdentityMode unicode config)) identified
        (ret (.ok serving.identification)) ∧
      serving.lsmLoaded = loaded.assigned ∧ serving.cfg = serverConfig unicode config := by
  obtain ⟨_, _, rfl, hstarted⟩ := path_call_ret_iff.1 hpath
  obtain ⟨identified, result, rest, rfl, hidentified, hrest⟩ := path_bind_ret_iff.1 hstarted
  cases result with
  | error err => exact nomatch (path_ret_iff.1 hrest).2
  | ok identification =>
      obtain ⟨err, _, rfl, hlistened⟩ := path_call_ret_iff.1 hrest
      cases err with
      | some err => exact nomatch (path_ret_iff.1 hlistened).2
      | none =>
          obtain ⟨_, _, rfl, hserved⟩ := path_call_ret_iff.1 hlistened
          obtain ⟨rfl, hvalue⟩ := path_ret_iff.1 hserved
          cases hvalue
          exact ⟨identified, rfl, hidentified, rfl, rfl⟩

/-- The parts of a start that succeeds. -/
theorem path_startup {serving : Serving}
    (hpath : Path (startup unicode config ownPid) calls (ret (.ok serving))) :
    ∃ monitored loading written identified loaded,
      calls = monitored ++ ⟨.configureBinaryFilter, ()⟩ :: (loading ++ (written ++
        ⟨.start loaded.reader, ()⟩ :: (identified ++
          [⟨.attempt .listen, none⟩, ⟨.serve, ()⟩]))) ∧
      Path loadExecMonitor monitored (ret none) ∧ Path loadLSM loading (ret loaded) ∧
      (∀ call ∈ written, call.op.WritesMap) ∧
      Path (startIdentity (podIdentityMode unicode config)) identified
        (ret (.ok serving.identification)) ∧
      serving.lsmLoaded = loaded.assigned ∧ serving.cfg = serverConfig unicode config := by
  obtain ⟨monitored, err, _, rfl, hmonitored, hrest⟩ := path_bind_ret_iff.1 hpath
  cases err with
  | some err => exact nomatch (path_ret_iff.1 hrest).2
  | none =>
      obtain ⟨_, _, rfl, hfiltered⟩ := path_call_ret_iff.1 hrest
      obtain ⟨loading, loaded, _, rfl, hloading, hloaded⟩ := path_bind_ret_iff.1 hfiltered
      obtain ⟨allowing, _, _, rfl, hallowing, hallowed⟩ := path_bind_ret_iff.1 hloaded
      obtain ⟨writing, _, _, rfl, hwriting, hwritten⟩ := path_bind_ret_iff.1 hallowed
      obtain ⟨identified, rfl, hidentified, hlsm, hcfg⟩ := path_serveAfter hwritten
      have hallows : ∀ call ∈ allowing, call.op.WritesMap :=
        (hallowing.opsIn (opsIn_ite (opsIn_orFail trivial trivial) trivial)).1
      have hwrites : ∀ call ∈ writing, call.op.WritesMap :=
        (hwriting.opsIn (opsIn_ite (opsIn_orFail trivial trivial) trivial)).1
      refine ⟨monitored, loading, allowing ++ writing, identified, loaded, ?_, hmonitored, hloading,
        ?_, hidentified, hlsm, hcfg⟩
      · rw [List.append_assoc]
      · intro call hcall
        exact (List.mem_append.1 hcall).elim (hallows call) (hwrites call)

theorem notMem_achieved {what : Attempt} (hcalls : ∀ call ∈ calls, call.op ≠ .attempt what) :
    what ∉ achieved calls :=
  fun hwhat => hcalls _ (mem_achieved_iff.1 hwhat) rfl

/-- The maps are there exactly if the objects were loaded. -/
theorem loadLSM_assigned_iff {loaded : Loaded} (hpath : Path loadLSM calls (ret loaded)) :
    loaded.assigned = true ↔ .loadAndAssign .lsm ∈ achieved calls := by
  obtain ⟨data, _, rfl, hread⟩ := path_call_ret_iff.1 hpath
  split at hread
  · obtain ⟨rfl, hvalue⟩ := path_ret_iff.1 hread
    cases hvalue
    simp [achieved]
  obtain ⟨err, _, rfl, hspec⟩ := path_call_ret_iff.1 hread
  cases err with
  | some err =>
      obtain ⟨rfl, hvalue⟩ := path_ret_iff.1 hspec
      cases hvalue
      simp [achieved]
  | none =>
      obtain ⟨err, _, rfl, hassigned⟩ := path_call_ret_iff.1 hspec
      cases err with
      | some err =>
          obtain ⟨rfl, hvalue⟩ := path_ret_iff.1 hassigned
          cases hvalue
          simp [achieved]
      | none =>
          obtain ⟨_, _, rfl, hfile⟩ := path_call_ret_iff.1 hassigned
          obtain ⟨_, _, rfl, hptrace⟩ := path_call_ret_iff.1 hfile
          obtain ⟨_, _, rfl, hreader⟩ := path_call_ret_iff.1 hptrace
          obtain ⟨rfl, hvalue⟩ := path_ret_iff.1 hreader
          cases hvalue
          exact iff_of_true rfl (mem_achieved_iff.2 (by simp))

theorem loadAndAssign_notMem_startIdentity {mode : PodIdentityMode} {object : Object}
    {final : Program (Except GoError Identification)}
    (hpath : Path (startIdentity mode) calls final) :
    .loadAndAssign object ∉ achieved calls := by
  have hops : (startIdentity mode).OpsIn fun op => op ≠ .attempt (.loadAndAssign object) :=
    opsIn_startIdentity mode (by simp) (by simp) (by simp)
  exact notMem_achieved (hpath.opsIn hops).1

section Result

variable {serving : Serving}
  (hpath : Path (startup unicode config ownPid) calls (ret (.ok serving)))
include hpath

/-- The server is given the flags of the configuration. -/
theorem serving_cfg : serving.cfg = serverConfig unicode config := by
  obtain ⟨_, _, _, _, _, _, _, _, _, _, _, hcfg⟩ := path_startup hpath
  exact hcfg

/-- The agent knows whether the maps of the hooks were loaded. -/
theorem lsmLoaded_iff :
    serving.lsmLoaded = true ↔ .loadAndAssign .lsm ∈ achieved calls := by
  obtain ⟨monitored, loading, written, identified, loaded, rfl, hmonitored, hloading, hwritten,
    hidentified, hlsm, _⟩ := path_startup hpath
  have hmaps : .loadAndAssign .lsm ∉ achieved written := by
    refine notMem_achieved fun call hcall hop => ?_
    have hwrites := hwritten call hcall
    rw [hop] at hwrites
    exact hwrites
  have hmonitor : .loadAndAssign .lsm ∉ achieved monitored := by
    rw [achieved_loadExecMonitor hmonitored]
    decide
  have hidentity : .loadAndAssign .lsm ∉ achieved identified :=
    loadAndAssign_notMem_startIdentity hidentified
  rw [hlsm, loadLSM_assigned_iff hloading]
  simp only [mem_achieved_iff] at hmaps hmonitor hidentity ⊢
  simp [hmaps, hmonitor, hidentity]

/-- With required pod identity there is an identifier with a pod watcher, whose initial list
succeeded. -/
theorem watches_of_required (hmode : podIdentityMode unicode config = .required) :
    serving.identification.identifier = true ∧ serving.identification.podWatcher = true ∧
      .startWatcher ∈ achieved calls := by
  obtain ⟨monitored, loading, written, identified, loaded, rfl, _, _, _, hidentified, _, _⟩ :=
    path_startup hpath
  have hrequired : podIdentityMode unicode config ≠ .disabled := by
    rw [hmode]
    decide
  obtain ⟨hidentifier, hwatcher, hpods⟩ := startIdentity_ok hrequired hidentified
  have hstarted := mem_achieved_iff.1 (hwatcher.1 (hpods hmode))
  exact ⟨hidentifier, hpods hmode, mem_achieved_iff.2 (by simp [hstarted])⟩

end Result

end Served

end KernelSeal.Startup

import KernelSeal.Go.Text
import Mathlib.Data.Nat.Digits.Lemmas

/-!
# The BPF-LSM hooks

This file models `bpf/lsm_file_protect.bpf.c`.  The file hook decides from two
names, that of the opened file and that of its parent directory, both copied
into zeroed fixed-size buffers; the ptrace hook decides from the target task.
Both look processes up in `protected_pids`, whose keys are thread-group ids.

Procfs exposes a thread under its thread-group directory and under its own
number, so the directory name that the file hook parses need not be the key
the thread's group is protected under.
-/

namespace KernelSeal.FileProtect

open KernelSeal.Text

/-! ## Events and policy -/

/-- `enum ks_access_type`. -/
inductive AccessType where
  | environ
  | mem
  | maps
  | ptrace
  deriving DecidableEq

/-- The members of `enum ks_event_type` that the hooks emit. -/
inductive EventType where
  | blocked
  | audit
  deriving DecidableEq

/-- The decision fields of `struct ks_lsm_event`; the timestamp and the
command name are the kernel's. -/
structure LsmEvent where
  pid : UInt32
  tid : UInt32
  uid : UInt32
  targetPid : UInt32
  eventType : EventType
  accessType : AccessType
  path : GoString
  deriving DecidableEq

/-- `KS_MODE_DISABLED`. -/
def modeDisabled : UInt8 := 0

/-- `KS_MODE_AUDIT`. -/
def modeAudit : UInt8 := 1

/-- `KS_MODE_ENFORCE`. -/
def modeEnforce : UInt8 := 2

/-- `struct ks_policy_config`. -/
structure PolicyConfig where
  enforceMode : UInt8
  blockEnviron : UInt8
  blockMem : UInt8
  blockMaps : UInt8
  blockPtrace : UInt8
  allowSelfRead : UInt8
  auditAll : UInt8
  deriving DecidableEq

/-- A BPF hash map from a PID to a flag byte. -/
abbrev PidMap := UInt32 → Option UInt8

/-- The maps the hooks read. -/
structure Maps where
  policyConfig : Option PolicyConfig
  allowedPids : PidMap
  protectedPids : PidMap

/-- The current task: `pid` is its thread-group id. -/
structure Opener where
  pid : UInt32
  tid : UInt32
  uid : UInt32

/-- What a hook returns, the events it attempted to emit, and those of them
for which the ring buffer had room. -/
structure Outcome where
  verdict : ℤ
  attempted : List LsmEvent := []
  submitted : List LsmEvent := []
  deriving DecidableEq

/-- `EPERM`. -/
def eperm : ℤ := 1

/-- The access is allowed and nothing is emitted. -/
def pass : Outcome := { verdict := 0 }

/-- `send_audit_event` followed by returning `verdict`. -/
def sendAuditEvent (room : Bool) (event : LsmEvent) (verdict : ℤ) : Outcome where
  verdict := verdict
  attempted := [event]
  submitted := if room then [event] else []

/-! ## Names in the kernel -/

/-- A dentry by its name and its parent's name.  A name is `none` when a
pointer on the way to it is null or cannot be read. -/
structure Dentry where
  name : Option GoString
  parentName : Option GoString

structure File where
  dentry : Option Dentry

/-- The bytes of a C string before its terminating NUL. -/
def cString (bytes : GoString) : GoString := bytes.takeWhile (· ≠ 0)

/-- `bpf_probe_read_kernel_str` into a zeroed buffer: the buffer and the
returned length, which counts the NUL. -/
def probeReadStr (size : ℕ) (name : GoString) : GoString × ℕ :=
  let copied := (cString name).take (size - 1)
  (copied ++ List.replicate (size - copied.length) 0, copied.length + 1)

/-- `MAX_PROC_FILE_LEN`. -/
def maxProcFileLen : ℕ := 16

/-- `classify_proc_file`, which compares the buffer byte by byte up to and
including the NUL. -/
def classifyProcFile (buffer : GoString) : Option AccessType :=
  if str "environ" ++ [0] <+: buffer then some .environ
  else if str "mem" ++ [0] <+: buffer then some .mem
  else if str "maps" ++ [0] <+: buffer then some .maps
  else none

/-- The loop of `get_proc_dir_pid` over the bytes still to be read. -/
def scanPid : GoString → UInt32 → UInt32
  | [], pid => pid
  | byte :: rest, pid =>
      if byte = 0 then pid
      else if byte < 48 ∨ 57 < byte then 0
      else scanPid rest (pid * 10 + UInt32.ofNat (byte.val - 48))

/-- `get_proc_dir_pid`. -/
def getProcDirPid (parentName : Option GoString) : UInt32 :=
  match parentName with
  | none => 0
  | some name =>
      let (buffer, length) := probeReadStr 16 name
      if length ≤ 1 then 0 else scanPid (buffer.take 15) 0

/-! ## The hooks -/

/-- The flag of the policy that guards a kind of file. -/
def PolicyConfig.guards (policy : PolicyConfig) : AccessType → UInt8
  | .environ => policy.blockEnviron
  | .mem => policy.blockMem
  | .maps => policy.blockMaps
  | .ptrace => 0

/-- `ks_file_open`. -/
def ksFileOpen (maps : Maps) (room : Bool) (opener : Opener) (file : File) : Outcome :=
  match maps.policyConfig with
  | none => pass
  | some policy =>
      if policy.enforceMode = modeDisabled then pass
      else if maps.allowedPids opener.pid = some 1 then pass
      else
        match file.dentry.bind Dentry.name with
        | none => pass
        | some name =>
            let filename := (probeReadStr maxProcFileLen name).1
            match classifyProcFile filename with
            | none => pass
            | some access =>
                let target := getProcDirPid (file.dentry.bind Dentry.parentName)
                let event (eventType : EventType) : LsmEvent :=
                  { pid := opener.pid, tid := opener.tid, uid := opener.uid
                    targetPid := target, eventType := eventType, accessType := access
                    path := cString filename }
                if target = 0 then pass
                else if maps.protectedPids target ≠ some 1 then pass
                else if policy.guards access ≠ 0 ∧
                    ¬ (policy.allowSelfRead ≠ 0 ∧ opener.pid = target) then
                  if policy.enforceMode = modeEnforce then
                    sendAuditEvent room (event .blocked) (-eperm)
                  else sendAuditEvent room (event .audit) 0
                else if policy.auditAll ≠ 0 then sendAuditEvent room (event .audit) 0
                else pass

/-- A task of the kernel.  Thread id 0 belongs to the idle tasks, which procfs
does not show. -/
structure Task where
  tid : UInt32
  tgid : UInt32
  visible : tid ≠ 0
  deriving DecidableEq

/-- `ks_ptrace_access_check`. -/
def ksPtraceAccessCheck (maps : Maps) (room : Bool) (opener : Opener) (child : Task) :
    Outcome :=
  match maps.policyConfig with
  | none => pass
  | some policy =>
      let event (eventType : EventType) : LsmEvent :=
        { pid := opener.pid, tid := opener.tid, uid := opener.uid
          targetPid := child.tgid, eventType := eventType, accessType := .ptrace
          path := str "ptrace" }
      if policy.enforceMode = modeDisabled ∨ policy.blockPtrace = 0 then pass
      else if maps.allowedPids opener.pid = some 1 then pass
      else if maps.protectedPids child.tgid ≠ some 1 then pass
      else if policy.allowSelfRead ≠ 0 ∧ opener.pid = child.tgid then pass
      else if policy.enforceMode = modeEnforce then
        sendAuditEvent room (event .blocked) (-eperm)
      else sendAuditEvent room (event .audit) 0

/-- Every test on the way to a refusal of the file hook. -/
structure Refusal (maps : Maps) (opener : Opener) (file : File) (policy : PolicyConfig)
    (name : GoString) (access : AccessType) : Prop where
  configured : maps.policyConfig = some policy
  enforced : policy.enforceMode = modeEnforce
  notAllowed : maps.allowedPids opener.pid ≠ some 1
  named : file.dentry.bind Dentry.name = some name
  classified : classifyProcFile (probeReadStr maxProcFileLen name).1 = some access
  guarded : policy.guards access ≠ 0
  numeric : getProcDirPid (file.dentry.bind Dentry.parentName) ≠ 0
  recorded : maps.protectedPids (getProcDirPid (file.dentry.bind Dentry.parentName)) = some 1
  notSelf : ¬ (policy.allowSelfRead ≠ 0 ∧
    opener.pid = getProcDirPid (file.dentry.bind Dentry.parentName))

/-- The file hook refuses exactly when every test passes. -/
theorem ksFileOpen_refuses_iff (maps : Maps) (room : Bool) (opener : Opener) (file : File) :
    (ksFileOpen maps room opener file).verdict = -eperm ↔
      ∃ policy name access, Refusal maps opener file policy name access := by
  constructor
  · intro hrefused
    rw [ksFileOpen] at hrefused
    cases hpolicy : maps.policyConfig with
    | none => simp [hpolicy, pass, eperm] at hrefused
    | some policy =>
        cases hname : file.dentry.bind Dentry.name with
        | none =>
            simp only [hpolicy, hname] at hrefused
            split_ifs at hrefused <;> simp [pass, eperm] at hrefused
        | some name =>
            cases hclass : classifyProcFile (probeReadStr maxProcFileLen name).1 with
            | none =>
                simp only [hpolicy, hname, hclass] at hrefused
                split_ifs at hrefused <;> simp [pass, eperm] at hrefused
            | some access =>
                simp only [hpolicy, hname, hclass] at hrefused
                split_ifs at hrefused with hdisabled hallowed hnumeric hrecorded hguard henforce
                all_goals first
                  | exact ⟨policy, name, access, hpolicy, henforce, hallowed, hname, hclass,
                      hguard.1, hnumeric, not_not.1 hrecorded, hguard.2⟩
                  | simp [pass, eperm, sendAuditEvent] at hrefused
  · rintro ⟨policy, name, access, hrefusal⟩
    have hmode : policy.enforceMode ≠ modeDisabled := by
      rw [hrefusal.enforced]
      decide
    simp only [ksFileOpen, hrefusal.configured, hrefusal.named, hrefusal.classified]
    rw [if_neg hmode, if_neg hrefusal.notAllowed, if_neg hrefusal.numeric,
      if_neg (not_not.2 hrefusal.recorded), if_pos ⟨hrefusal.guarded, hrefusal.notSelf⟩,
      if_pos hrefusal.enforced]
    rfl

/-! ## Parsing a decimal directory name -/

/-- The ASCII digits of a list of decimal digits. -/
def ascii (digits : List ℕ) : GoString :=
  digits.map fun digit => Fin.ofNat 256 (48 + digit)

/-- The loop consumes a run of digits by Horner's rule, wrapping at 32 bits. -/
theorem scanPid_ascii_append {digits : List ℕ} (hdigits : ∀ digit ∈ digits, digit < 10)
    (rest : GoString) (value : ℕ) :
    scanPid (ascii digits ++ rest) (UInt32.ofNat value) =
      scanPid rest
        (UInt32.ofNat (digits.foldl (fun value digit => value * 10 + digit) value)) := by
  induction digits generalizing value with
  | nil => rfl
  | cons digit digits ih =>
      have hdigit : digit < 10 := hdigits digit List.mem_cons_self
      have hval : (Fin.ofNat 256 (48 + digit) : Byte).val = 48 + digit :=
        Nat.mod_eq_of_lt (by omega)
      have hnonzero : (Fin.ofNat 256 (48 + digit) : Byte) ≠ 0 := by
        rw [Ne, Fin.ext_iff, hval]
        simp
      have hrange : ¬ ((Fin.ofNat 256 (48 + digit) : Byte) < 48 ∨
          57 < (Fin.ofNat 256 (48 + digit) : Byte)) := by
        rw [Fin.lt_def, Fin.lt_def, hval]
        simp
        omega
      have hstep : UInt32.ofNat value * 10 + UInt32.ofNat digit =
          UInt32.ofNat (value * 10 + digit) := by
        simp
      rw [List.foldl_cons, ← ih fun other hother => hdigits other (List.mem_cons_of_mem _ hother)]
      change scanPid (Fin.ofNat 256 (48 + digit) :: (ascii digits ++ rest)) _ = _
      rw [scanPid, if_neg hnonzero, if_neg hrange, hval, Nat.add_sub_cancel_left, hstep]

theorem foldl_horner_reverse (digits : List ℕ) :
    digits.reverse.foldl (fun value digit => value * 10 + digit) 0 = Nat.ofDigits 10 digits := by
  induction digits with
  | nil => rfl
  | cons digit digits ih =>
      rw [List.reverse_cons, List.foldl_append, ih, Nat.ofDigits_cons]
      simp
      ring

/-- A printed number has no NUL byte. -/
theorem ne_zero_of_mem_ascii {digits : List ℕ} (hdigits : ∀ digit ∈ digits, digit < 10)
    {byte : Byte} (hbyte : byte ∈ ascii digits) : byte ≠ 0 := by
  obtain ⟨digit, hdigit, rfl⟩ := List.mem_map.1 hbyte
  have hbound := hdigits digit hdigit
  rw [Ne, Fin.ext_iff]
  simp [Nat.mod_eq_of_lt (show 48 + digit < 256 by omega)]

/-- The zeros behind the copied name end the loop, as running out of bytes does. -/
theorem scanPid_append_zeros (text : GoString) (count : ℕ) (pid : UInt32) :
    scanPid (text ++ List.replicate count 0) pid = scanPid text pid := by
  induction text generalizing pid with
  | nil =>
      cases count with
      | zero => rfl
      | succ count => simp [List.replicate_succ, scanPid]
  | cons byte text ih => simp only [List.cons_append, scanPid, ih]

/-- The loop runs over the first fifteen bytes of the name.  An empty name needs no
case of its own: the loop returns what it starts with. -/
theorem getProcDirPid_eq (bytes : GoString) :
    getProcDirPid (some bytes) = scanPid ((cString bytes).take 15) 0 := by
  have hbuffer : (probeReadStr 16 bytes).1.take 15 =
      (cString bytes).take 15 ++ List.replicate (15 - ((cString bytes).take 15).length) 0 := by
    simp only [probeReadStr, Nat.add_one_sub_one, List.take_append, List.take_take,
      List.take_replicate, min_self]
    congr 2
    omega
  have hcounted : (probeReadStr 16 bytes).2 = ((cString bytes).take 15).length + 1 := rfl
  by_cases hempty : (cString bytes).take 15 = []
  · have hshort : (probeReadStr 16 bytes).2 ≤ 1 := by simp [hcounted, hempty]
    simp only [getProcDirPid, if_pos hshort, hempty, scanPid]
  · have hlong : ¬ (probeReadStr 16 bytes).2 ≤ 1 := by simpa [hcounted] using hempty
    simp only [getProcDirPid, if_neg hlong]
    rw [hbuffer, scanPid_append_zeros]

/-- A name of at most fifteen digits is read as its decimal value, wrapping at
32 bits. -/
theorem getProcDirPid_ascii {digits : List ℕ} (hdigits : ∀ digit ∈ digits, digit < 10)
    (hfits : digits.length ≤ 15) :
    getProcDirPid (some (ascii digits)) =
      UInt32.ofNat (digits.foldl (fun value digit => value * 10 + digit) 0) := by
  have hname : cString (ascii digits) = ascii digits := by
    rw [cString, List.takeWhile_eq_self_iff]
    simpa using fun byte => ne_zero_of_mem_ascii hdigits
  have hlength : (ascii digits).length ≤ 15 := by rwa [ascii, List.length_map]
  rw [getProcDirPid_eq, hname, List.take_of_length_le hlength]
  simpa [scanPid] using scanPid_ascii_append hdigits [] 0

/-- The pid parser inverts decimal printing. -/
theorem getProcDirPid_decimal {pid : UInt32} (hpid : pid ≠ 0) :
    getProcDirPid (some (decimal pid.toNat)) = pid := by
  have hvalue : pid.toNat ≠ 0 := fun hzero => hpid (UInt32.toNat_inj.1 hzero)
  have hlength : (Nat.digits 10 pid.toNat).length ≤ 10 :=
    (Nat.digits_length_le_iff (by decide) _).2 (pid.toNat_lt.trans (by decide))
  have hprinted : decimal pid.toNat = ascii (Nat.digits 10 pid.toNat).reverse := if_neg hvalue
  rw [hprinted, getProcDirPid_ascii, foldl_horner_reverse, Nat.ofDigits_digits, UInt32.ofNat_toNat]
  · exact fun digit hdigit => Nat.digits_lt_base (by decide) (List.mem_reverse.1 hdigit)
  · exact (List.length_reverse.trans_le hlength).trans (by decide)

/-! ## Tasks and their procfs directories -/

/-- The task table: a thread id names one task, and the id of a thread group is
the thread id of its leader. -/
structure TaskTable where
  tasks : List Task
  unique : ∀ first ∈ tasks, ∀ second ∈ tasks, first.tid = second.tid → first = second
  leader : ∀ task ∈ tasks, ∃ leader ∈ tasks, leader.tid = task.tgid ∧ leader.tgid = task.tgid

/-- A procfs directory of a thread: `/proc/<pid>`, which procfs resolves for
leaders and non-leaders alike, or `/proc/<pid>/task/<tid>`. -/
inductive ProcDir where
  | process (pid : UInt32)
  | task (pid tid : UInt32)

/-- The number a directory is named by. -/
def ProcDir.number : ProcDir → UInt32
  | process pid => pid
  | task _ tid => tid

/-- The task a directory shows. -/
def TaskTable.resolve (table : TaskTable) : ProcDir → Option Task
  | .process pid => table.tasks.find? fun task => task.tid = pid
  | .task pid tid =>
      (table.tasks.find? fun task => task.tid = pid).bind fun shown =>
        table.tasks.find? fun task => task.tid = tid ∧ task.tgid = shown.tgid

/-- The name of the procfs file behind an access. -/
def AccessType.fileName : AccessType → GoString
  | environ => str "environ"
  | mem => str "mem"
  | maps => str "maps"
  | ptrace => str "ptrace"

/-- The file of a kind in a procfs directory, as the hook sees it. -/
def ProcDir.file (dir : ProcDir) (access : AccessType) : File where
  dentry := some
    { name := some access.fileName
      parentName := some (decimal dir.number.toNat) }

/-- A task as the opener of a file. -/
def Task.opener (task : Task) (uid : UInt32) : Opener where
  pid := task.tgid
  tid := task.tid
  uid := uid

/-- The policy enforces the guard on a kind of file, `group` is protected, and
the opener is neither exempt nor in that group. -/
structure Guarded (maps : Maps) (policy : PolicyConfig) (access : AccessType)
    (opener : Task) (group : UInt32) : Prop where
  configured : maps.policyConfig = some policy
  enforced : policy.enforceMode = modeEnforce
  guarded : policy.guards access ≠ 0
  recorded : maps.protectedPids group = some 1
  notAllowed : maps.allowedPids opener.tgid ≠ some 1
  stranger : opener.tgid ≠ group

theorem TaskTable.mem_of_resolve {table : TaskTable} {dir : ProcDir} {task : Task}
    (hresolve : table.resolve dir = some task) :
    task ∈ table.tasks ∧ task.tid = dir.number := by
  cases dir with
  | process pid =>
      have hfound := List.find?_some hresolve
      exact ⟨List.mem_of_find?_eq_some hresolve, of_decide_eq_true hfound⟩
  | task pid tid =>
      obtain ⟨shown, _, hfind⟩ := Option.bind_eq_some_iff.1 hresolve
      have hfound := List.find?_some hfind
      exact ⟨List.mem_of_find?_eq_some hfind, (of_decide_eq_true hfound).1⟩

/-- A thread whose id is the opener's thread-group id is in the opener's
thread group. -/
theorem TaskTable.tid_ne_of_stranger {table : TaskTable} {opener target : Task}
    (hopener : opener ∈ table.tasks) (htarget : target ∈ table.tasks)
    (hstranger : opener.tgid ≠ target.tgid) : opener.tgid ≠ target.tid := by
  intro hsame
  obtain ⟨leader, hleader, htid, htgid⟩ := table.leader opener hopener
  have hequal := table.unique leader hleader target htarget (htid.trans hsame)
  exact hstranger (htgid.symm.trans (congrArg Task.tgid hequal))

theorem classifyProcFile_fileName {policy : PolicyConfig} {access : AccessType}
    (hguarded : policy.guards access ≠ 0) :
    classifyProcFile (probeReadStr maxProcFileLen access.fileName).1 = some access := by
  cases access with
  | environ => decide
  | mem => decide
  | maps => decide
  | ptrace => exact absurd rfl hguarded

/-- The file hook protects exactly the directories whose own number is a key of
`protected_pids`: opening a guarded file of a thread of a protected group is
refused if and only if the thread's own id is recorded as protected. -/
theorem proc_open_refused_iff {maps : Maps} {policy : PolicyConfig} {access : AccessType}
    (table : TaskTable) {opener target : Task} {dir : ProcDir} (room : Bool) (uid : UInt32)
    (hopener : opener ∈ table.tasks) (hresolve : table.resolve dir = some target)
    (hguarded : Guarded maps policy access opener target.tgid) :
    (ksFileOpen maps room (opener.opener uid) (dir.file access)).verdict = -eperm ↔
      maps.protectedPids target.tid = some 1 := by
  obtain ⟨htarget, hnumber⟩ := table.mem_of_resolve hresolve
  have hpid : getProcDirPid ((dir.file access).dentry.bind Dentry.parentName) = target.tid := by
    rw [hnumber]
    exact getProcDirPid_decimal (hnumber ▸ target.visible)
  rw [ksFileOpen_refuses_iff]
  constructor
  · rintro ⟨_, _, _, hrefusal⟩
    exact hpid ▸ hrefusal.recorded
  · intro hrecorded
    refine ⟨policy, access.fileName, access, hguarded.configured, hguarded.enforced,
      hguarded.notAllowed, rfl, classifyProcFile_fileName hguarded.guarded, hguarded.guarded,
      ?_, ?_, ?_⟩
    · exact hpid.symm ▸ target.visible
    · exact hpid.symm ▸ hrecorded
    · rw [hpid]
      exact fun hself => table.tid_ne_of_stranger hopener htarget hguarded.stranger hself.2

/-- Group 100 has the threads 100 and 101; process 200 is unrelated. -/
def threadedTable : TaskTable where
  tasks := [⟨100, 100, by decide⟩, ⟨101, 100, by decide⟩, ⟨200, 200, by decide⟩]
  unique := by decide
  leader := by decide

def stranger : Task := ⟨200, 200, by decide⟩

def enforcing : PolicyConfig where
  enforceMode := modeEnforce
  blockEnviron := 1
  blockMem := 1
  blockMaps := 0
  blockPtrace := 1
  allowSelfRead := 1
  auditAll := 0

/-- Group 100 is protected, under its leader's id as `ProtectPID` records it. -/
def threadedMaps : Maps where
  policyConfig := some enforcing
  allowedPids _ := none
  protectedPids pid := if pid = 100 then some 1 else none

theorem threaded_guarded : Guarded threadedMaps enforcing .environ stranger 100 :=
  ⟨rfl, rfl, by decide, rfl, by decide, by decide⟩

theorem leader_open_refused :
    (ksFileOpen threadedMaps true (stranger.opener 0)
      ((ProcDir.process 100).file .environ)).verdict = -eperm :=
  (proc_open_refused_iff threadedTable true 0 (by decide) rfl threaded_guarded).2 rfl

/-- The environment of a protected group is read through the directory of its
second thread, both as `/proc/101` and as `/proc/100/task/101`. -/
theorem thread_open_allowed :
    stranger ∈ threadedTable.tasks ∧ Guarded threadedMaps enforcing .environ stranger 100 ∧
      ∀ dir ∈ [ProcDir.process 101, ProcDir.task 100 101],
        (threadedTable.resolve dir).map Task.tgid = some 100 ∧
          (ksFileOpen threadedMaps true (stranger.opener 0) (dir.file .environ)).verdict = 0 :=
  ⟨by decide, threaded_guarded, by decide⟩

end KernelSeal.FileProtect

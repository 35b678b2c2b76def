import KernelSeal.Bpf.FileProtect

/-!
# Audit mode and enforce mode

Both hooks first find out what the access is, from everything but the mode, and then
act on it as the mode says.  The finding is separated from the action here, which
relates the runs of one access under the three modes: audit mode reports what
enforce mode would refuse.
-/

namespace KernelSeal.AuditMode

open KernelSeal.Text
open KernelSeal.FileProtect

/-! ## Findings -/

/-- What a hook finds before it looks at the mode: nothing of interest, an access
that the policy guards, or one that is only recorded.  The event is what an audit
would say. -/
inductive Finding where
  | clear
  | guarded (event : LsmEvent)
  | recorded (event : LsmEvent)

/-- The event with another type. -/
def labelled (eventType : EventType) (event : LsmEvent) : LsmEvent :=
  { event with eventType := eventType }

/-- Acting on a finding in a mode that is not the disabled one. -/
def Finding.act (mode : UInt8) (room : Bool) : Finding → Outcome
  | clear => pass
  | guarded event =>
      if mode = modeEnforce then sendAuditEvent room (labelled .blocked event) (-eperm)
      else sendAuditEvent room (labelled .audit event) 0
  | recorded event => sendAuditEvent room (labelled .audit event) 0

/-- An access that one of the hooks decides on. -/
inductive Access where
  | openFile (file : File)
  | attach (child : Task)

/-- The hook that the kernel calls. -/
def Access.hook (maps : Maps) (room : Bool) (opener : Opener) : Access → Outcome
  | openFile file => ksFileOpen maps room opener file
  | attach child => ksPtraceAccessCheck maps room opener child

section Find

variable (maps : Maps) (policy : PolicyConfig) (opener : Opener)

/-- What `ks_file_open` finds. -/
def findFile (file : File) : Finding :=
  if maps.allowedPids opener.pid = some 1 then .clear
  else
    match file.dentry.bind Dentry.name with
    | none => .clear
    | some name =>
        let filename := (probeReadStr maxProcFileLen name).1
        match classifyProcFile filename with
        | none => .clear
        | some access =>
            let target := getProcDirPid (file.dentry.bind Dentry.parentName)
            let event : LsmEvent :=
              { pid := opener.pid, tid := opener.tid, uid := opener.uid
                targetPid := target, eventType := .audit, accessType := access
                path := cString filename }
            if target = 0 then .clear
            else if maps.protectedPids target ≠ some 1 then .clear
            else if policy.guards access ≠ 0 ∧
                ¬ (policy.allowSelfRead ≠ 0 ∧ opener.pid = target) then .guarded event
            else if policy.auditAll ≠ 0 then .recorded event
            else .clear

/-- What `ks_ptrace_access_check` finds. -/
def findAttach (child : Task) : Finding :=
  if policy.blockPtrace = 0 then .clear
  else if maps.allowedPids opener.pid = some 1 then .clear
  else if maps.protectedPids child.tgid ≠ some 1 then .clear
  else if policy.allowSelfRead ≠ 0 ∧ opener.pid = child.tgid then .clear
  else .guarded
    { pid := opener.pid, tid := opener.tid, uid := opener.uid
      targetPid := child.tgid, eventType := .audit, accessType := .ptrace
      path := str "ptrace" }

def Access.find : Access → Finding
  | openFile file => findFile maps policy opener file
  | attach child => findAttach maps policy opener child

variable {maps policy}

theorem ksFileOpen_eq_act (hpolicy : maps.policyConfig = some policy)
    (hmode : policy.enforceMode ≠ modeDisabled) (room : Bool) (file : File) :
    ksFileOpen maps room opener file =
      (findFile maps policy opener file).act policy.enforceMode room := by
  simp only [ksFileOpen, hpolicy, findFile]
  rw [if_neg hmode]
  by_cases hallowed : maps.allowedPids opener.pid = some 1
  · rw [if_pos hallowed, if_pos hallowed, Finding.act]
  · rw [if_neg hallowed, if_neg hallowed]
    cases file.dentry.bind Dentry.name with
    | none => rfl
    | some name =>
        dsimp only
        cases classifyProcFile (probeReadStr maxProcFileLen name).1 with
        | none => rfl
        | some access =>
            dsimp only
            split_ifs with hnumeric hrecorded hguarded henforce haudit
            · rfl
            · rfl
            · rw [Finding.act, if_pos henforce, labelled]
            · rw [Finding.act, if_neg henforce, labelled]
            · rfl
            · rfl

theorem ksPtraceAccessCheck_eq_act (hpolicy : maps.policyConfig = some policy)
    (hmode : policy.enforceMode ≠ modeDisabled) (room : Bool) (child : Task) :
    ksPtraceAccessCheck maps room opener child =
      (findAttach maps policy opener child).act policy.enforceMode room := by
  simp only [ksPtraceAccessCheck, hpolicy, findAttach]
  rw [if_congr (or_iff_right hmode) rfl rfl]
  split_ifs with hptrace hallowed hrecorded hself henforce
  · rfl
  · rfl
  · rfl
  · rfl
  · rw [Finding.act, if_pos henforce, labelled]
  · rw [Finding.act, if_neg henforce, labelled]

/-- Under a policy that is not disabled, a hook acts on what it finds. -/
theorem Access.hook_eq_act (hpolicy : maps.policyConfig = some policy)
    (hmode : policy.enforceMode ≠ modeDisabled) (room : Bool) (access : Access) :
    access.hook maps room opener =
      (access.find maps policy opener).act policy.enforceMode room := by
  cases access with
  | openFile file => exact ksFileOpen_eq_act opener hpolicy hmode room file
  | attach child => exact ksPtraceAccessCheck_eq_act opener hpolicy hmode room child

/-- Without a policy, or with a disabled one, a hook lets the access pass. -/
theorem Access.hook_eq_pass
    (hpolicy : ∀ policy, maps.policyConfig = some policy → policy.enforceMode = modeDisabled)
    (room : Bool) (access : Access) : access.hook maps room opener = pass := by
  cases hconfig : maps.policyConfig with
  | none => cases access <;> simp [Access.hook, ksFileOpen, ksPtraceAccessCheck, hconfig]
  | some policy =>
      have hmode := hpolicy policy hconfig
      cases access <;> simp [Access.hook, ksFileOpen, ksPtraceAccessCheck, hconfig, hmode]

end Find

/-! ## Three runs of one access -/

/-- The same maps with another mode in the policy. -/
def withMode (maps : Maps) (mode : UInt8) : Maps :=
  { maps with policyConfig := maps.policyConfig.map fun policy =>
      { policy with enforceMode := mode } }

/-- The mode is not part of what is found. -/
theorem Access.find_withMode (maps : Maps) (policy : PolicyConfig) (opener : Opener)
    (mode : UInt8) (access : Access) :
    access.find (withMode maps mode) { policy with enforceMode := mode } opener =
      access.find maps policy opener := by
  have hguards : PolicyConfig.guards { policy with enforceMode := mode } = policy.guards := by
    funext kind
    cases kind <;> rfl
  cases access with
  | openFile file =>
      simp only [Access.find, findFile, hguards]
      rfl
  | attach child => rfl

section Runs

variable (finding : Finding)

theorem Finding.act_audit (room room' : Bool) :
    (finding.act modeAudit room).verdict = 0 ∧
      (finding.act modeAudit room).attempted =
        (finding.act modeEnforce room').attempted.map (labelled .audit) := by
  cases finding with
  | clear => exact ⟨rfl, rfl⟩
  | guarded event => exact ⟨rfl, rfl⟩
  | recorded event => exact ⟨rfl, rfl⟩

theorem Finding.act_enforce (room : Bool) :
    (finding.act modeEnforce room).verdict = -eperm ↔
      ∃ event ∈ (finding.act modeEnforce room).attempted, event.eventType = .blocked := by
  cases finding with
  | clear => simp [Finding.act, FileProtect.pass, eperm]
  | guarded event => exact iff_of_true rfl ⟨_, List.mem_singleton_self _, rfl⟩
  | recorded event => simp [Finding.act, sendAuditEvent, eperm, labelled]

theorem Finding.verdict_act (mode : UInt8) (room room' : Bool) :
    (finding.act mode room).verdict = (finding.act mode room').verdict := by
  cases finding with
  | clear => rfl
  | guarded event =>
      simp only [Finding.act]
      split_ifs <;> rfl
  | recorded event => rfl

end Runs

theorem Access.verdict_hook (maps : Maps) (opener : Opener) (access : Access)
    (room room' : Bool) :
    (access.hook maps room opener).verdict = (access.hook maps room' opener).verdict := by
  by_cases hpolicy : ∀ policy, maps.policyConfig = some policy → policy.enforceMode = modeDisabled
  · rw [access.hook_eq_pass opener hpolicy, access.hook_eq_pass opener hpolicy]
  · push Not at hpolicy
    obtain ⟨policy, hconfig, hmode⟩ := hpolicy
    rw [access.hook_eq_act opener hconfig hmode, access.hook_eq_act opener hconfig hmode]
    exact Finding.verdict_act _ _ _ _

/-- Audit mode allows every access and reports what enforce mode does, a refusal
as an audited access; enforce mode refuses what it reports as blocked; disabled mode
does nothing; and no verdict depends on the ring buffer. -/
theorem audit_reports_enforce (maps : Maps) (opener : Opener) (access : Access) :
    (∀ room room',
      (access.hook (withMode maps modeAudit) room opener).verdict = 0 ∧
      (access.hook (withMode maps modeAudit) room opener).attempted =
        (access.hook (withMode maps modeEnforce) room' opener).attempted.map (labelled .audit)) ∧
    (∀ room, (access.hook (withMode maps modeEnforce) room opener).verdict = -eperm ↔
      ∃ event ∈ (access.hook (withMode maps modeEnforce) room opener).attempted,
        event.eventType = .blocked) ∧
    (∀ room, access.hook (withMode maps modeDisabled) room opener = pass) ∧
    (∀ room room',
      (access.hook maps room opener).verdict = (access.hook maps room' opener).verdict) := by
  have hdisabled (room : Bool) : access.hook (withMode maps modeDisabled) room opener = pass := by
    refine access.hook_eq_pass opener (fun policy hpolicy => ?_) room
    obtain ⟨_, _, rfl⟩ := Option.map_eq_some_iff.1 hpolicy
    rfl
  cases hconfig : maps.policyConfig with
  | none =>
      have hpass (mode : UInt8) (room : Bool) :
          access.hook (withMode maps mode) room opener = pass := by
        refine access.hook_eq_pass opener (fun policy hpolicy => ?_) room
        simp [withMode, hconfig] at hpolicy
      refine ⟨fun room room' => ?_, fun room => ?_, hdisabled, access.verdict_hook maps opener⟩
      · rw [hpass, hpass]
        exact ⟨rfl, rfl⟩
      · rw [hpass]
        simp [FileProtect.pass, eperm]
  | some policy =>
      have hact {mode : UInt8} (hmode : mode ≠ modeDisabled) (room : Bool) :
          access.hook (withMode maps mode) room opener =
            (access.find maps policy opener).act mode room := by
        have hpolicy : (withMode maps mode).policyConfig =
            some { policy with enforceMode := mode } := by
          rw [withMode, hconfig, Option.map_some]
        rw [access.hook_eq_act opener hpolicy hmode, access.find_withMode]
      refine ⟨fun room room' => ?_, fun room => ?_, hdisabled, access.verdict_hook maps opener⟩
      · rw [hact (by decide), hact (by decide)]
        exact Finding.act_audit _ room room'
      · rw [hact (by decide)]
        exact Finding.act_enforce _ room

end KernelSeal.AuditMode

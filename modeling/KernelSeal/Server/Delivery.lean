import KernelSeal.Core.Resumption
import KernelSeal.Secrets.Registry

/-!
# The delivery path

This file models `internal/server`: one connection of the `kernelseal-exec`
shim.  `handleConn` and `handle` are written as resumptions over the calls they
make to the kernel, the BPF maps, the identity resolver and the callbacks, so
that the same definition is run alone here and interleaved with other actors in
`KernelSeal.Agent`.  Log lines and the peer description they carry are not
modelled; nothing else depends on them.
-/

namespace KernelSeal.Delivery

open KernelSeal.Text
open KernelSeal.Registry
open KernelSeal.Resumption
open KernelSeal.Resumption.Prog

/-- A Go `error` by its message; `Option GoError` is a possibly nil error. -/
abbrev GoError := GoString

/-- `protocol.Request`. -/
structure Request where
  binary : GoString

/-- `protocol.Response`. -/
structure Response where
  ok : Bool := false
  env : StringMap := ∅
  isProtected : Bool := false
  error : GoString := []
  warning : GoString := []
  deriving DecidableEq

/-- `syscall.Ucred`, of which only the PID reaches a decision. -/
structure Ucred where
  pid : Int32

/-- The calls the agent's actors make. -/
inductive Op where
  | setDeadline
  | isUnixConn
  | peerCred
  | decode
  | identify (pid : UInt32)
  | processStartTime (pid : UInt32)
  | protectPID (pid : UInt32)
  | trackPID (pid : UInt32)
  | unprotectPID (pid : UInt32)
  | onIssued (pid : UInt32) (names : List GoString)
  | onDenied (pid : UInt32) (reason : GoString)
  | reply (response : Response)
  | listProtectedPIDs
  | alive (pid : UInt32)
  deriving DecidableEq

/-- `Identify` returns a caller even when it fails, as Go's pairs do. -/
abbrev Identified := Caller × Option GoError

@[reducible]
def Op.Ans : Op → Type
  | setDeadline => Option GoError
  | isUnixConn => Bool
  | peerCred => Except GoError Ucred
  | decode => Except GoError Request
  | identify _ => Identified
  | processStartTime _ => Except GoError UInt64
  | protectPID _ => Option GoError
  | trackPID _ => Option GoError
  | unprotectPID _ => Option GoError
  | onIssued _ _ => Unit
  | onDenied _ _ => Unit
  | reply _ => Option GoError
  | listProtectedPIDs => Except GoError (List UInt32)
  | alive _ => Bool

abbrev Program := Prog Op Op.Ans
abbrev Step := Call Op Op.Ans

abbrev setDeadline : Program (Option GoError) := perform Op.setDeadline
abbrev isUnixConn : Program Bool := perform Op.isUnixConn
abbrev peerCred : Program (Except GoError Ucred) := perform Op.peerCred
abbrev decode : Program (Except GoError Request) := perform Op.decode
abbrev processStartTime (pid : UInt32) : Program (Except GoError UInt64) :=
  perform (Op.processStartTime pid)
abbrev protectPID (pid : UInt32) : Program (Option GoError) := perform (Op.protectPID pid)
abbrev trackPID (pid : UInt32) : Program (Option GoError) := perform (Op.trackPID pid)
abbrev unprotectPID (pid : UInt32) : Program (Option GoError) := perform (Op.unprotectPID pid)
abbrev reply (response : Response) : Program (Option GoError) := perform (Op.reply response)

/-- The part of `server.Config` that `handle` reads. -/
structure Config where
  requireProtection : Bool
  identifyCallers : Bool
  requirePodIdentity : Bool

/-- A server with the bindings its resolver holds.  `identifier` says that an
identifier is configured, `issuedCallback` and `deniedCallback` that the
respective callback is registered. -/
structure Server where
  cfg : Config
  bindings : List Binding
  identifier : Bool := true
  issuedCallback : Bool := true
  deniedCallback : Bool := true

/-! ## Texts -/

section Texts

variable (unicode : Unicode) (binaryName : GoString) (matched : Match)

def notAdmittedError : GoString :=
  str "no secret binding for " ++ quote unicode binaryName ++ str " admits this caller"

def rejectedError : GoString :=
  str "secret binding(s) " ++ listText matched.rejected ++ str " for " ++
    quote unicode binaryName ++ str " are rejected by policy"

def unresolvedError : GoString :=
  str "all " ++ decimal matched.unresolved.length ++ str " configured secret(s) for " ++
    quote unicode binaryName ++ str " failed to resolve: " ++ listText matched.unresolved

def unresolvedWarning : GoString :=
  str "all " ++ decimal matched.unresolved.length ++
    str " configured secret(s) failed to resolve: " ++ listText matched.unresolved

/-- The warnings of a served request. -/
def warnings : List GoString :=
  (if matched.unresolved = [] then []
    else [decimal matched.unresolved.length ++ str " configured secret(s) failed to resolve: " ++
      listText matched.unresolved]) ++
  (if matched.rejected = [] then []
    else [str "binding(s) " ++ listText matched.rejected ++ str " are rejected by policy"])

end Texts

/-! ## One connection -/

section Connection

variable (unicode : Unicode) (server : Server)

/-- `(*Server).denied`. -/
def denied (pid : UInt32) (reason : GoString) : Program Unit :=
  if server.deniedCallback then perform (Op.onDenied pid reason) else pure ()

/-- The guarded call of the `onIssued` callback. -/
def issued (pid : UInt32) (names : List GoString) : Program Unit :=
  if server.issuedCallback then perform (Op.onIssued pid names) else pure ()

/-- `(*Server).identify`. -/
def identify (pid : UInt32) : Program Identified :=
  if ¬ server.cfg.identifyCallers then pure ({}, none)
  else if ¬ server.identifier then
    pure ({}, some (str "caller identification is enabled but no identifier is configured"))
  else perform (Op.identify pid)

/-- The environment built from the matched secrets: a later secret overwrites
an earlier one of the same name. -/
def environment (secrets : List Secret) : StringMap :=
  secrets.foldl (fun env secret => env.insert secret.name secret.value) ∅

/-- `startAfter` was read without error and equals `startBefore`. -/
def agrees (startBefore : UInt64) : Except GoError UInt64 → Bool
  | .ok startAfter => startAfter = startBefore
  | .error _ => false

/-- The second half of `handle`: protect the caller, then release. -/
def release (pid : UInt32) (matched : Match) : Program Response := do
  match ← processStartTime pid with
  | .error _ =>
      denied server pid (str "caller vanished")
      pure { error := str "caller no longer exists" }
  | .ok startBefore =>
      let protectErr ← protectPID pid
      let _ ← trackPID pid
      let startAfter ← processStartTime pid
      if ¬ agrees startBefore startAfter then
        let _ ← unprotectPID pid
        denied server pid (str "pid recycled")
        pure { error := str "caller no longer exists" }
      else if protectErr.isSome ∧ server.cfg.requireProtection then
        denied server pid (str "protection unavailable")
        pure { error := str "kernel protection unavailable and policy requires it" }
      else
        issued server pid (sortStrings (matched.secrets.map Secret.name))
        pure
          { ok := true
            env := environment matched.secrets
            isProtected := protectErr.isNone
            warning := join (warnings matched) (str "; ") }

/-- The request names no binary. -/
def Unnamed (req : Request) : Prop :=
  req.binary = [] ∨ base req.binary = str "." ∨ base req.binary = str "/"

instance : DecidablePred Unnamed := fun _ => inferInstanceAs (Decidable (_ ∨ _ ∨ _))

/-- `(*Server).handle`. -/
def handle (cred : Ucred) (req : Request) : Program Response := do
  let pid := cred.pid.toUInt32
  let binaryName := base req.binary
  if Unnamed req then
    denied server pid (str "empty binary")
    pure { error := str "request did not name a binary" }
  else
    let (caller, identErr) ← identify server pid
    if server.cfg.requirePodIdentity ∧ identErr.isSome then
      denied server pid (str "caller unidentified")
      pure { error := str "caller could not be attributed to a pod" }
    else if server.cfg.requirePodIdentity ∧ caller.pod.isNone then
      denied server pid (str "caller not in a pod")
      pure { error := str "caller could not be attributed to a pod" }
    else
      let matched := lookup server.bindings binaryName caller
      if matched.Empty then
        pure { ok := true, isProtected := false }
      else if matched.secrets = [] ∧ matched.refused ≠ [] then
        denied server pid (str "pod identity refused")
        pure { error := notAdmittedError unicode binaryName }
      else if matched.secrets = [] ∧ matched.rejected ≠ [] then
        denied server pid (str "binding rejected by policy")
        pure { error := rejectedError unicode binaryName matched }
      else if matched.secrets = [] then
        if server.cfg.requireProtection then
          denied server pid (str "all secrets unresolved")
          pure { error := unresolvedError unicode binaryName matched }
        else
          pure { ok := true, isProtected := false, warning := unresolvedWarning matched }
      else
        release server pid matched

/-- `(*Server).handleConn`. -/
def handleConn : Program Unit := do
  match ← setDeadline with
  | some _ => pure ()
  | none =>
      if ¬ (← isUnixConn) then pure ()
      else
        match ← peerCred with
        | .error _ =>
            let _ ← reply { error := str "peer identification failed" }
        | .ok cred =>
            match ← decode with
            | .error _ =>
                let _ ← reply { error := str "malformed request" }
            | .ok req =>
                let response ← handle unicode server cred req
                let _ ← reply response

end Connection

/-! ## The decision before anything is released -/

/-- What `handle` has decided once the caller is identified and the bindings
are matched. -/
inductive Verdict where
  | deny (reason error : GoString)
  | allow (warning : GoString)
  | release (matched : Match)

section Decision

variable (unicode : Unicode) (server : Server)

/-- The verdict on a match. -/
def judge (binaryName : GoString) (matched : Match) : Verdict :=
  if matched.Empty then .allow []
  else if matched.secrets = [] ∧ matched.refused ≠ [] then
    .deny (str "pod identity refused") (notAdmittedError unicode binaryName)
  else if matched.secrets = [] ∧ matched.rejected ≠ [] then
    .deny (str "binding rejected by policy") (rejectedError unicode binaryName matched)
  else if matched.secrets = [] then
    if server.cfg.requireProtection then
      .deny (str "all secrets unresolved") (unresolvedError unicode binaryName matched)
    else .allow (unresolvedWarning matched)
  else .release matched

/-- Required pod identity refuses a caller that is not attributed to a pod. -/
def Unattributed (identified : Identified) : Prop :=
  server.cfg.requirePodIdentity = true ∧
    (identified.2.isSome = true ∨ identified.1.pod = none)

instance (identified : Identified) : Decidable (Unattributed server identified) :=
  inferInstanceAs (Decidable (_ ∧ (_ ∨ _)))

/-- The verdict on an identified caller. -/
def verdict (binaryName : GoString) (identified : Identified) : Verdict :=
  if Unattributed server identified then
    .deny
      (if identified.2.isSome then str "caller unidentified" else str "caller not in a pod")
      (str "caller could not be attributed to a pod")
  else judge unicode server binaryName (lookup server.bindings binaryName identified.1)

/-- Carry out a verdict. -/
def conclude (pid : UInt32) : Verdict → Program Response
  | .deny reason error => do
      denied server pid reason
      pure { error := error }
  | .allow warning => pure { ok := true, warning := warning }
  | .release matched => release server pid matched

theorem conclude_ite (pid : UInt32) (condition : Prop) [Decidable condition]
    (yes no : Verdict) :
    conclude server pid (if condition then yes else no) =
      if condition then conclude server pid yes else conclude server pid no := by
  split <;> rfl

/-- `handle` identifies the caller, reaches a verdict and carries it out. -/
theorem handle_eq (cred : Ucred) (req : Request) :
    handle unicode server cred req =
      if Unnamed req then
        conclude server cred.pid.toUInt32
          (.deny (str "empty binary") (str "request did not name a binary"))
      else identify server cred.pid.toUInt32 >>= fun identified =>
        conclude server cred.pid.toUInt32
          (verdict unicode server (base req.binary) identified) := by
  rw [handle]
  by_cases hunnamed : Unnamed req
  · rw [if_pos hunnamed, if_pos hunnamed]
    rfl
  · rw [if_neg hunnamed, if_neg hunnamed]
    congr 1
    funext identified
    obtain ⟨caller, identErr⟩ := identified
    simp only [verdict, judge, conclude_ite]
    by_cases hunattributed : Unattributed server (caller, identErr)
    · rw [if_pos hunattributed]
      obtain ⟨hrequired, hunknown⟩ := hunattributed
      cases identErr with
      | some err =>
          rw [if_pos ⟨hrequired, rfl⟩]
          rfl
      | none =>
          have hpod : caller.pod.isNone = true := by simpa using hunknown
          rw [if_neg (by simp), if_pos ⟨hrequired, hpod⟩]
          rfl
    · rw [if_neg hunattributed, if_neg, if_neg]
      · rfl
      · exact fun hnone => hunattributed ⟨hnone.1, Or.inr (by simpa using hnone.2)⟩
      · exact fun herr => hunattributed ⟨herr.1, Or.inl herr.2⟩

end Decision

end KernelSeal.Delivery

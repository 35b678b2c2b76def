import KernelSeal.Server.Release

/-!
# The calls of a whole connection

A connection is interrupted between any two of its calls, so this file describes
the paths of `handleConn` up to an arbitrary point: whose PID its calls are
about, what it has done when it delivers secrets, and what it has seen when it
is about to roll protection back.
-/

namespace KernelSeal.Connection

open KernelSeal.Text
open KernelSeal.Registry
open KernelSeal.Resumption
open KernelSeal.Resumption.Prog
open KernelSeal.Delivery
open KernelSeal.Release

/-- The PID a call is about. -/
def pidOf : Op → Option UInt32
  | .identify pid | .processStartTime pid | .protectPID pid | .trackPID pid
  | .unprotectPID pid | .onIssued pid _ | .onDenied pid _ | .alive pid => some pid
  | .setDeadline | .isUnixConn | .peerCred | .decode | .reply _ | .listProtectedPIDs => none

/-- The call is about this PID. -/
abbrev About (pid : UInt32) (op : Op) : Prop := pidOf op = some pid

/-- The call is a report to a callback. -/
abbrev Reports (op : Op) : Prop := isDenied op = true ∨ isIssued op = true

/-- The calls made before a request has been decoded, and the replies that end a
connection there. -/
inductive Preliminary : Op → Prop
  | setDeadline : Preliminary .setDeadline
  | isUnixConn : Preliminary .isUnixConn
  | peerCred : Preliminary .peerCred
  | decode : Preliminary .decode
  | reply (error : GoString) : Preliminary (.reply { error := error })

theorem Preliminary.pidOf_eq {op : Op} (hop : Preliminary op) : pidOf op = none := by
  cases hop <;> rfl

/-- The calls that decode a request of a peer. -/
def preamble (cred : Ucred) (req : Request) : List Step :=
  [⟨.setDeadline, none⟩, ⟨.isUnixConn, true⟩, ⟨.peerCred, .ok cred⟩, ⟨.decode, .ok req⟩]

/-- The calls between the two start-time reads, the reads included. -/
def handshake (pid : UInt32) (startBefore : UInt64) (startAfter : Except GoError UInt64)
    (protectErr trackErr : Option GoError) : List Step :=
  [⟨.processStartTime pid, .ok startBefore⟩, ⟨.protectPID pid, protectErr⟩,
    ⟨.trackPID pid, trackErr⟩, ⟨.processStartTime pid, startAfter⟩]

/-- The calls of `identify`. -/
def IdentifyCalls (pid : UInt32) (calls : List Step) : Prop :=
  calls = [] ∨ ∃ identified, calls = [⟨.identify pid, identified⟩]

/-- A path of preliminary calls that has stopped at a preliminary call or
returned. -/
structure Early (calls : List Step) (final : Program Unit) : Prop where
  made : ∀ call ∈ calls, Preliminary call.op
  pending : ∀ op next, final = .call op next → Preliminary op

theorem Early.stopped {op : Op} {next : op.Ans → Program Unit} (hop : Preliminary op) :
    Early [] (.call op next) where
  made _ hcall := absurd hcall List.not_mem_nil
  pending _ _ hfinal := by
    cases hfinal
    exact hop

theorem Early.returned (value : Unit) : Early [] (.ret value) where
  made _ hcall := absurd hcall List.not_mem_nil
  pending _ _ hfinal := nomatch hfinal

theorem Early.cons {call : Step} {calls : List Step} {final : Program Unit}
    (hop : Preliminary call.op) (hearly : Early calls final) :
    Early (call :: calls) final where
  made := List.forall_mem_cons.2 ⟨hop, hearly.made⟩
  pending := hearly.pending

section Paths

variable {unicode : Unicode} {server : Server}

theorem early_reply {error : GoString} {calls : List Step} {final : Program Unit}
    (hpath : Path (reply { error := error } >>= fun _ => pure ()) calls final) :
    Early calls final := by
  rw [perform_bind, path_call_iff] at hpath
  rcases hpath with ⟨rfl, rfl⟩ | ⟨answer, rest, rfl, hrest⟩
  · exact .stopped (.reply error)
  · obtain ⟨rfl, rfl⟩ := path_ret_iff.1 hrest
    exact .cons (.reply error) (.returned ())

/-- A connection either has not decoded a request, or runs `handle` on it and
replies. -/
theorem path_handleConn {calls : List Step} {final : Program Unit}
    (hpath : Path (handleConn unicode server) calls final) :
    Early calls final ∨
      ∃ cred req rest, calls = preamble cred req ++ rest ∧
        Path (handle unicode server cred req >>= fun response =>
          reply response >>= fun _ => pure ()) rest final := by
  rw [handleConn] at hpath
  simp only [perform_bind] at hpath
  rcases path_call_iff.1 hpath with ⟨rfl, rfl⟩ | ⟨deadlineErr, afterDeadline, rfl, hdeadline⟩
  · exact Or.inl (.stopped .setDeadline)
  cases deadlineErr with
  | some err =>
      obtain ⟨rfl, rfl⟩ := path_ret_iff.1 hdeadline
      exact Or.inl (.cons .setDeadline (.returned ()))
  | none =>
  rcases path_call_iff.1 hdeadline with ⟨rfl, rfl⟩ | ⟨isUnix, afterConn, rfl, hconn⟩
  · exact Or.inl (.cons .setDeadline (.stopped .isUnixConn))
  cases isUnix with
  | false =>
      obtain ⟨rfl, rfl⟩ := path_ret_iff.1 hconn
      exact Or.inl (.cons .setDeadline (.cons .isUnixConn (.returned ())))
  | true =>
  rcases path_call_iff.1 hconn with ⟨rfl, rfl⟩ | ⟨peer, afterCred, rfl, hcred⟩
  · exact Or.inl (.cons .setDeadline (.cons .isUnixConn (.stopped .peerCred)))
  cases peer with
  | error err =>
      exact Or.inl (.cons .setDeadline (.cons .isUnixConn (.cons .peerCred (early_reply hcred))))
  | ok cred =>
  rcases path_call_iff.1 hcred with ⟨rfl, rfl⟩ | ⟨decoded, rest, rfl, hdecoded⟩
  · exact Or.inl (.cons .setDeadline (.cons .isUnixConn (.cons .peerCred (.stopped .decode))))
  cases decoded with
  | error err =>
      exact Or.inl (.cons .setDeadline (.cons .isUnixConn (.cons .peerCred
        (.cons .decode (early_reply hdecoded)))))
  | ok req => exact Or.inr ⟨cred, req, rest, rfl, hdecoded⟩

/-! ## Whose PID the calls are about -/

theorem opsIn_denied (allowed : Op → Prop) {pid : UInt32} {reason : GoString}
    (hallowed : allowed (.onDenied pid reason)) (response : Response) :
    (denied server pid reason >>= fun _ => pure response).OpsIn allowed := by
  rw [denied]
  split_ifs
  · exact ⟨hallowed, fun _ => trivial⟩
  · trivial

theorem opsIn_issued (allowed : Op → Prop) {pid : UInt32} {names : List GoString}
    (hallowed : allowed (.onIssued pid names)) (response : Response) :
    (issued server pid names >>= fun _ => pure response).OpsIn allowed := by
  rw [issued]
  split_ifs
  · exact ⟨hallowed, fun _ => trivial⟩
  · trivial

theorem opsIn_identify (allowed : Op → Prop) {pid : UInt32} (hallowed : allowed (.identify pid)) :
    (identify server pid).OpsIn allowed := by
  rw [identify]
  split_ifs
  · exact ⟨hallowed, fun _ => trivial⟩
  · trivial
  · trivial

theorem opsIn_release (pid : UInt32) (matched : Match) :
    (release server pid matched).OpsIn (About pid) := by
  rw [release]
  simp only [perform_bind]
  refine ⟨rfl, fun before => ?_⟩
  cases before with
  | error err => exact opsIn_denied (About pid) rfl _
  | ok startBefore =>
      refine ⟨rfl, fun protectErr => ⟨rfl, fun trackErr => ⟨rfl, fun startAfter => ?_⟩⟩⟩
      beta_reduce
      split_ifs
      · exact opsIn_denied (About pid) rfl _
      · exact opsIn_issued (About pid) rfl _
      · exact ⟨rfl, fun _ => opsIn_denied (About pid) rfl _⟩

theorem opsIn_conclude (pid : UInt32) (verdict : Verdict) :
    (conclude server pid verdict).OpsIn (About pid) := by
  cases verdict with
  | deny reason error => exact opsIn_denied (About pid) rfl _
  | allow warning => trivial
  | release matched => exact opsIn_release pid matched

/-- Every call of `handle` is about the PID of its peer. -/
theorem opsIn_handle (cred : Ucred) (req : Request) :
    (handle unicode server cred req).OpsIn (About cred.pid.toUInt32) := by
  rw [handle_eq]
  split_ifs
  · exact opsIn_conclude _ _
  · exact opsIn_bind (opsIn_identify _ rfl) fun identified => opsIn_conclude _ _

/-- Every call of a connection about a PID is about the PID that `peerCred`
returned. -/
theorem exists_peerCred {calls : List Step} {final : Program Unit}
    (hpath : Path (handleConn unicode server) calls final) {call : Step} (hcall : call ∈ calls)
    {pid : UInt32} (hpid : pidOf call.op = some pid) :
    ∃ cred, ⟨Op.peerCred, .ok cred⟩ ∈ calls ∧ pid = cred.pid.toUInt32 := by
  rcases path_handleConn hpath with hearly | ⟨cred, req, rest, rfl, hrest⟩
  · rw [(hearly.made call hcall).pidOf_eq] at hpid
    cases hpid
  · refine ⟨cred, by simp [preamble], ?_⟩
    have hown : ∀ call ∈ rest, ∀ pid, pidOf call.op = some pid → pid = cred.pid.toUInt32 := by
      have hops : (handle unicode server cred req >>= fun response =>
          reply response >>= fun _ => pure ()).OpsIn
          fun op => ∀ pid, pidOf op = some pid → pid = cred.pid.toUInt32 := by
        apply opsIn_bind
        · exact (opsIn_handle cred req).mono fun op hop pid hpid =>
            Option.some.inj (hpid.symm.trans hop)
        · exact fun response => ⟨fun pid hpid => (nomatch hpid), fun _ => trivial⟩
      exact (hrest.opsIn hops).1
    rcases List.mem_append.1 hcall with hpreamble | hhandled
    · have hnone : ∀ call ∈ preamble cred req, pidOf call.op = none := by simp [preamble, pidOf]
      rw [hnone call hpreamble] at hpid
      cases hpid
    · exact hown call hhandled pid hpid

/-! ## Releases -/

/-- A run of `handle` that releases secrets consists of at most one
identification, a handshake whose two reads agree, and the report. -/
theorem handle_released {cred : Ucred} {req : Request} {calls : List Step} {response : Response}
    (hrun : Path (handle unicode server cred req) calls (ret response))
    (henv : response.env ≠ ∅) :
    ∃ before start protectErr trackErr names,
      calls = before ++ handshake cred.pid.toUInt32 start (.ok start) protectErr trackErr ++
          issuedCalls server cred.pid.toUInt32 names ∧
        IdentifyCalls cred.pid.toUInt32 before ∧ response.isProtected = protectErr.isNone := by
  obtain ⟨before, concluded, verdict, rfl, hbefore, _, hconcluded⟩ := handle_runs hrun
  cases verdict with
  | deny reason error =>
      obtain ⟨_, rfl⟩ := path_denied_iff.1 hconcluded
      exact absurd rfl henv
  | allow warning =>
      obtain ⟨_, hvalue⟩ := path_ret_iff.1 hconcluded
      cases hvalue
      exact absurd rfl henv
  | release matched =>
      cases release_runs hconcluded with
      | vanished err => exact absurd rfl henv
      | recycled => exact absurd rfl henv
      | unprotected => exact absurd rfl henv
      | released start protectErr trackErr hallowed =>
          exact ⟨before, start, protectErr, trackErr, _, (List.append_assoc _ _ _).symm,
            hbefore, rfl⟩

/-- A connection that delivers secrets has identified and protected its peer
between two agreeing start-time reads. -/
theorem connection_released {calls : List Step} {final : Program Unit}
    (hpath : Path (handleConn unicode server) calls final) {response : Response}
    {replyErr : Option GoError} (hreply : ⟨Op.reply response, replyErr⟩ ∈ calls)
    (henv : response.env ≠ ∅) :
    ∃ cred req before start protectErr trackErr names,
      calls = preamble cred req ++ before ++
          handshake cred.pid.toUInt32 start (.ok start) protectErr trackErr ++
          (issuedCalls server cred.pid.toUInt32 names ++ [⟨Op.reply response, replyErr⟩]) ∧
        IdentifyCalls cred.pid.toUInt32 before ∧ response.isProtected = protectErr.isNone := by
  rcases path_handleConn hpath with hearly | ⟨cred, req, rest, rfl, hrest⟩
  · cases hearly.made _ hreply
    exact absurd rfl henv
  have hmade : ⟨Op.reply response, replyErr⟩ ∈ rest := by
    simpa [preamble] using hreply
  rcases path_bind_iff.1 hrest with
    ⟨middle, hmiddle, _⟩ | ⟨first, value, after, rfl, hfirst, hafter⟩
  · have hown := (hmiddle.opsIn (opsIn_handle cred req)).1 _ hmade
    cases hown
  · obtain ⟨rfl, rfl⟩ : response = value ∧ after = [⟨Op.reply response, replyErr⟩] := by
      rcases List.mem_append.1 hmade with hinside | hafterwards
      · have hown := (hfirst.opsIn (opsIn_handle cred req)).1 _ hinside
        cases hown
      · rw [perform_bind, path_call_iff] at hafter
        rcases hafter with ⟨rfl, _⟩ | ⟨answer, tail, rfl, htail⟩
        · cases hafterwards
        · obtain ⟨rfl, _⟩ := path_ret_iff.1 htail
          cases List.mem_singleton.1 hafterwards
          exact ⟨rfl, rfl⟩
    obtain ⟨before, start, protectErr, trackErr, names, rfl, hbefore, hprotected⟩ :=
      handle_released hfirst henv
    exact ⟨cred, req, before, start, protectErr, trackErr, names, by simp, hbefore, hprotected⟩

/-! ## Rollbacks -/

theorem release_rollback {pid removed : UInt32} {matched : Match} {calls : List Step}
    {next : Option GoError → Program Response}
    (hpath : Path (release server pid matched) calls (.call (.unprotectPID removed) next)) :
    ∃ startBefore startAfter protectErr trackErr,
      calls = handshake pid startBefore startAfter protectErr trackErr ∧
        removed = pid ∧ agrees startBefore startAfter = false := by
  have hreports {program : Program Response} {calls : List Step}
      (hprogram : program.OpsIn Reports)
      (hpath : Path program calls (.call (.unprotectPID removed) next)) : False := by
    have hop : Reports (.unprotectPID removed) := (hpath.opsIn hprogram).2.1
    simp [Reports] at hop
  rw [release] at hpath
  simp only [perform_bind] at hpath
  rcases path_call_iff.1 hpath with ⟨_, hfinal⟩ | ⟨before, afterRead, rfl, hread⟩
  · cases hfinal
  cases before with
  | error err => exact absurd hread (hreports (opsIn_denied Reports (Or.inl rfl) _))
  | ok startBefore =>
  rcases path_call_iff.1 hread with ⟨_, hfinal⟩ | ⟨protectErr, afterProtect, rfl, hprotect⟩
  · cases hfinal
  rcases path_call_iff.1 hprotect with ⟨_, hfinal⟩ | ⟨trackErr, afterTrack, rfl, htrack⟩
  · cases hfinal
  rcases path_call_iff.1 htrack with ⟨_, hfinal⟩ | ⟨startAfter, afterReread, rfl, hreread⟩
  · cases hfinal
  by_cases hagrees : agrees startBefore startAfter = true
  · rw [if_neg (not_not.2 hagrees)] at hreread
    refine absurd hreread (hreports ?_)
    split_ifs
    · exact opsIn_denied Reports (Or.inl rfl) _
    · exact opsIn_issued Reports (Or.inr rfl) _
  · rw [if_pos hagrees] at hreread
    rcases path_call_iff.1 hreread with ⟨rfl, hfinal⟩ | ⟨err, rest, rfl, hrest⟩
    · cases hfinal
      exact ⟨startBefore, startAfter, protectErr, trackErr, rfl, rfl,
        Bool.eq_false_of_not_eq_true hagrees⟩
    · exact absurd hrest (hreports (opsIn_denied Reports (Or.inl rfl) _))

theorem handle_rollback {cred : Ucred} {req : Request} {removed : UInt32} {calls : List Step}
    {next : Option GoError → Program Response}
    (hpath : Path (handle unicode server cred req) calls (.call (.unprotectPID removed) next)) :
    ∃ before startBefore startAfter protectErr trackErr,
      calls = before ++ handshake removed startBefore startAfter protectErr trackErr ∧
        IdentifyCalls removed before ∧ agrees startBefore startAfter = false := by
  have hconclude {verdict : Verdict} {calls : List Step}
      (hpath : Path (conclude server cred.pid.toUInt32 verdict) calls
        (.call (.unprotectPID removed) next)) :
      ∃ startBefore startAfter protectErr trackErr,
        calls = handshake cred.pid.toUInt32 startBefore startAfter protectErr trackErr ∧
          removed = cred.pid.toUInt32 ∧ agrees startBefore startAfter = false := by
    cases verdict with
    | deny reason error =>
        have hop := (hpath.opsIn (opsIn_denied Reports (Or.inl rfl) _)).2.1
        simp [Reports] at hop
    | allow warning =>
        obtain ⟨_, hfinal⟩ := path_ret_iff.1 hpath
        cases hfinal
    | release matched => exact release_rollback hpath
  rw [handle_eq] at hpath
  split_ifs at hpath with hunnamed
  · obtain ⟨startBefore, startAfter, protectErr, trackErr, rfl, rfl, hdiffers⟩ := hconclude hpath
    exact ⟨[], startBefore, startAfter, protectErr, trackErr, rfl, Or.inl rfl, hdiffers⟩
  · rcases path_bind_iff.1 hpath with
      ⟨middle, hmiddle, hfinal⟩ | ⟨before, identified, after, rfl, hbefore, hafter⟩
    · cases middle with
      | ret identified =>
          have hstart : Path (conclude server cred.pid.toUInt32
              (verdict unicode server (base req.binary) identified)) []
              (.call (.unprotectPID removed) next) := by
            rw [hfinal]
            exact Path.nil _
          obtain ⟨_, _, _, _, hcalls, _⟩ := hconclude hstart
          cases hcalls
      | call op inner =>
          cases hfinal
          cases (hmiddle.opsIn (opsIn_identify (· = .identify cred.pid.toUInt32) rfl)).2.1
    · obtain ⟨startBefore, startAfter, protectErr, trackErr, rfl, rfl, hdiffers⟩ :=
        hconclude hafter
      refine ⟨before, startBefore, startAfter, protectErr, trackErr, rfl, ?_, hdiffers⟩
      rcases identify_runs hbefore with hnone | hone
      · exact Or.inl hnone
      · exact Or.inr ⟨identified, hone⟩

/-- A connection about to roll protection back has seen two start-time reads
that do not agree. -/
theorem connection_rollback {calls : List Step} {removed : UInt32}
    {next : Option GoError → Program Unit}
    (hpath : Path (handleConn unicode server) calls (.call (.unprotectPID removed) next)) :
    ∃ cred req before startBefore startAfter protectErr trackErr,
      calls = preamble cred req ++ before ++
          handshake removed startBefore startAfter protectErr trackErr ∧
        IdentifyCalls removed before ∧ agrees startBefore startAfter = false := by
  rcases path_handleConn hpath with hearly | ⟨cred, req, rest, rfl, hrest⟩
  · cases hearly.pending _ _ rfl
  rcases path_bind_iff.1 hrest with
    ⟨middle, hmiddle, hfinal⟩ | ⟨first, value, after, rfl, _, hafter⟩
  · cases middle with
    | ret value => cases hfinal
    | call op inner =>
        cases hfinal
        obtain ⟨before, startBefore, startAfter, protectErr, trackErr, rfl, hbefore, hdiffers⟩ :=
          handle_rollback hmiddle
        exact ⟨cred, req, before, startBefore, startAfter, protectErr, trackErr, by simp,
          hbefore, hdiffers⟩
  · rw [perform_bind, path_call_iff] at hafter
    rcases hafter with ⟨_, hfinal⟩ | ⟨answer, tail, rfl, htail⟩
    · cases hfinal
    · obtain ⟨_, hfinal⟩ := path_ret_iff.1 htail
      cases hfinal

end Paths

end KernelSeal.Connection

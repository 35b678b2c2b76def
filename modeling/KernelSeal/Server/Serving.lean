import KernelSeal.Server.Release

/-!
# Responses as a function of outcomes

In one run of `handle` every external call is made at most once, except the
start-time read, which is made at most twice.  A run is therefore determined by
one outcome for each of them.  This file evaluates `handle` against such
outcomes and gives its response and its calls in closed form.
-/

namespace KernelSeal.Serving

open KernelSeal.Text
open KernelSeal.Registry
open KernelSeal.Resumption
open KernelSeal.Resumption.Prog
open KernelSeal.Delivery
open KernelSeal.Release

/-- The outcome of every external call one run of `handle` can make. -/
structure Outcomes where
  identify : Identified
  startBefore : Except GoError UInt64
  startAfter : Except GoError UInt64
  protectPID : Option GoError
  trackPID : Option GoError
  unprotectPID : Option GoError

/-- Answer each call of `handle` by its outcome; the calls it never makes are
answered arbitrarily. -/
def Outcomes.oracle (outcomes : Outcomes) : Oracle Op Op.Ans := fun past op =>
  match op with
  | .identify _ => outcomes.identify
  | .processStartTime _ =>
      if startReads past = [] then outcomes.startBefore else outcomes.startAfter
  | .protectPID _ => outcomes.protectPID
  | .trackPID _ => outcomes.trackPID
  | .unprotectPID _ => outcomes.unprotectPID
  | .onIssued _ _ => ()
  | .onDenied _ _ => ()
  | .setDeadline => none
  | .isUnixConn => true
  | .peerCred => .error []
  | .decode => .error []
  | .reply _ => none
  | .listProtectedPIDs => .error []
  | .alive _ => true

section Serve

variable (unicode : Unicode) (server : Server) (outcomes : Outcomes)
variable (cred : Ucred) (req : Request)

/-- The response of `handle` and the calls it made. -/
def serve : Response × List Step :=
  run outcomes.oracle [] (handle unicode server cred req)

/-- What `(*Server).identify` returns. -/
def identified : Identified :=
  if ¬ server.cfg.identifyCallers then ({}, none)
  else if ¬ server.identifier then
    ({}, some (str "caller identification is enabled but no identifier is configured"))
  else outcomes.identify

/-- The caller as the server sees it. -/
def caller : Caller := (identified server outcomes).1

/-- The outcomes let a release go through: the caller is still the process it
was, and it is protected unless protection is optional. -/
def Delivers : Prop :=
  (∃ start, outcomes.startBefore = .ok start ∧ outcomes.startAfter = .ok start) ∧
    ¬ (outcomes.protectPID.isSome = true ∧ server.cfg.requireProtection = true)

/-- The response of the releasing half of `handle`. -/
def settle (matched : Match) : Response :=
  match outcomes.startBefore with
  | .error _ => { error := str "caller no longer exists" }
  | .ok startBefore =>
      if ¬ agrees startBefore outcomes.startAfter then
        { error := str "caller no longer exists" }
      else if outcomes.protectPID.isSome ∧ server.cfg.requireProtection then
        { error := str "kernel protection unavailable and policy requires it" }
      else
        { ok := true
          env := environment matched.secrets
          isProtected := outcomes.protectPID.isNone
          warning := join (warnings matched) (str "; ") }

/-- The response to a verdict. -/
def answer : Verdict → Response
  | .deny _ error => { error := error }
  | .allow warning => { ok := true, warning := warning }
  | .release matched => settle server outcomes matched

/-- The calls of `(*Server).identify`. -/
def identifyCalls (pid : UInt32) : List Step :=
  if ¬ server.cfg.identifyCallers then []
  else if ¬ server.identifier then []
  else [⟨Op.identify pid, outcomes.identify⟩]

/-- The calls of the releasing half of `handle`. -/
def settleCalls (pid : UInt32) (matched : Match) : List Step :=
  match outcomes.startBefore with
  | .error err =>
      ⟨Op.processStartTime pid, .error err⟩ :: deniedCalls server pid (str "caller vanished")
  | .ok startBefore =>
      [⟨Op.processStartTime pid, .ok startBefore⟩, ⟨Op.protectPID pid, outcomes.protectPID⟩,
        ⟨Op.trackPID pid, outcomes.trackPID⟩,
        ⟨Op.processStartTime pid, outcomes.startAfter⟩] ++
      if ¬ agrees startBefore outcomes.startAfter then
        ⟨Op.unprotectPID pid, outcomes.unprotectPID⟩ ::
          deniedCalls server pid (str "pid recycled")
      else if outcomes.protectPID.isSome ∧ server.cfg.requireProtection then
        deniedCalls server pid (str "protection unavailable")
      else issuedCalls server pid (sortStrings (matched.secrets.map Secret.name))

/-- The calls that carry out a verdict. -/
def answerCalls (pid : UInt32) : Verdict → List Step
  | .deny reason _ => deniedCalls server pid reason
  | .allow _ => []
  | .release matched => settleCalls server outcomes pid matched

variable {server outcomes}

theorem run_denied (pid : UInt32) (reason : GoString) (response : Response)
    (past : List Step) :
    run outcomes.oracle past (denied server pid reason >>= fun _ => pure response) =
      (response, deniedCalls server pid reason) := by
  rw [denied, deniedCalls]
  cases server.deniedCallback <;> rfl

theorem run_issued (pid : UInt32) (names : List GoString) (response : Response)
    (past : List Step) :
    run outcomes.oracle past (issued server pid names >>= fun _ => pure response) =
      (response, issuedCalls server pid names) := by
  rw [issued, issuedCalls]
  cases server.issuedCallback <;> rfl

theorem run_identify (pid : UInt32) (past : List Step) :
    run outcomes.oracle past (Delivery.identify server pid) =
      (identified server outcomes, identifyCalls server outcomes pid) := by
  rw [Delivery.identify, identified, identifyCalls]
  split_ifs <;> rfl

theorem startReads_identifyCalls (pid : UInt32) :
    startReads (identifyCalls server outcomes pid) = [] := by
  rw [identifyCalls]
  split_ifs <;> rfl

theorem run_release (pid : UInt32) (matched : Match) {past : List Step}
    (hpast : startReads past = []) :
    run outcomes.oracle past (release server pid matched) =
      (settle server outcomes matched, settleCalls server outcomes pid matched) := by
  have hbefore : outcomes.oracle past (Op.processStartTime pid) = outcomes.startBefore :=
    if_pos hpast
  have hprotect (past : List Step) :
      outcomes.oracle past (Op.protectPID pid) = outcomes.protectPID := rfl
  rw [release, settle, settleCalls]
  simp only [perform_bind, run_call, hbefore]
  cases outcomes.startBefore with
  | error err =>
      dsimp only
      rw [run_denied]
  | ok startBefore =>
      have hafter (protectErr trackErr : Option GoError) :
          outcomes.oracle (past ++ [⟨Op.processStartTime pid, .ok startBefore⟩] ++
            [⟨Op.protectPID pid, protectErr⟩] ++ [⟨Op.trackPID pid, trackErr⟩])
            (Op.processStartTime pid) = outcomes.startAfter :=
        if_neg (by simp)
      simp only [run_call, hprotect, hafter]
      by_cases hagrees : agrees startBefore outcomes.startAfter = true
      · rw [if_neg (not_not.2 hagrees), if_neg (not_not.2 hagrees), if_neg (not_not.2 hagrees)]
        by_cases hrequired :
            outcomes.protectPID.isSome = true ∧ server.cfg.requireProtection = true
        · rw [if_pos hrequired, if_pos hrequired, if_pos hrequired, run_denied]
          rfl
        · rw [if_neg hrequired, if_neg hrequired, if_neg hrequired, run_issued]
          rfl
      · rw [if_pos hagrees, if_pos hagrees, if_pos hagrees, run_call, run_denied]
        rfl

theorem run_conclude (pid : UInt32) (verdict : Verdict) {past : List Step}
    (hpast : startReads past = []) :
    run outcomes.oracle past (conclude server pid verdict) =
      (answer server outcomes verdict, answerCalls server outcomes pid verdict) := by
  cases verdict with
  | deny reason error => exact run_denied pid reason _ past
  | allow warning => rfl
  | release matched => exact run_release pid matched hpast

/-- A run of `handle` in closed form. -/
theorem serve_eq :
    serve unicode server outcomes cred req =
      if Unnamed req then
        ({ error := str "request did not name a binary" },
          deniedCalls server cred.pid.toUInt32 (str "empty binary"))
      else
        (answer server outcomes
            (verdict unicode server (base req.binary) (identified server outcomes)),
          identifyCalls server outcomes cred.pid.toUInt32 ++
            answerCalls server outcomes cred.pid.toUInt32
              (verdict unicode server (base req.binary) (identified server outcomes))) := by
  rw [serve, handle_eq]
  split_ifs with hunnamed
  · exact run_conclude _ _ rfl
  · rw [run_bind, run_identify, List.nil_append, run_conclude _ _ (startReads_identifyCalls _)]

/-- The response of `handle` in closed form. -/
theorem serve_response :
    (serve unicode server outcomes cred req).1 =
      if Unnamed req then { error := str "request did not name a binary" }
      else answer server outcomes
        (verdict unicode server (base req.binary) (identified server outcomes)) := by
  rw [serve_eq, apply_ite Prod.fst]

/-- The calls of `handle` in closed form. -/
theorem serve_calls :
    (serve unicode server outcomes cred req).2 =
      if Unnamed req then deniedCalls server cred.pid.toUInt32 (str "empty binary")
      else identifyCalls server outcomes cred.pid.toUInt32 ++
        answerCalls server outcomes cred.pid.toUInt32
          (verdict unicode server (base req.binary) (identified server outcomes)) := by
  rw [serve_eq, apply_ite Prod.snd]

/-! ## Releases -/

theorem settle_of_delivers (hdelivers : Delivers server outcomes) (matched : Match) :
    settle server outcomes matched =
      { ok := true
        env := environment matched.secrets
        isProtected := outcomes.protectPID.isNone
        warning := join (warnings matched) (str "; ") } := by
  obtain ⟨⟨start, hbefore, hafter⟩, hallowed⟩ := hdelivers
  have hagrees : agrees start outcomes.startAfter = true := agrees_iff.2 hafter
  simp only [settle, hbefore]
  rw [if_neg (not_not.2 hagrees), if_neg hallowed]

/-- When a release does not go through, the response is a denial that does not
depend on what was matched. -/
theorem settle_of_not_delivers (hdelivers : ¬ Delivers server outcomes) :
    ∃ error ∈ [str "caller no longer exists",
        str "kernel protection unavailable and policy requires it"],
      ∀ matched, settle server outcomes matched = { error := error } := by
  cases hbefore : outcomes.startBefore with
  | error err => exact ⟨_, List.mem_cons_self, fun matched => by simp only [settle, hbefore]⟩
  | ok startBefore =>
      by_cases hagrees : agrees startBefore outcomes.startAfter = true
      · have hrequired :
            outcomes.protectPID.isSome = true ∧ server.cfg.requireProtection = true := by
          by_contra hallowed
          exact hdelivers ⟨⟨startBefore, hbefore, agrees_iff.1 hagrees⟩, hallowed⟩
        refine ⟨_, List.mem_cons_of_mem _ List.mem_cons_self, fun matched => ?_⟩
        simp only [settle, hbefore]
        rw [if_neg (not_not.2 hagrees), if_pos hrequired]
      · refine ⟨_, List.mem_cons_self, fun matched => ?_⟩
        simp only [settle, hbefore]
        rw [if_pos hagrees]

variable (server outcomes)

/-- The request is judged on its match: it names a binary, and the caller is
attributed to a pod if the policy requires that. -/
def Judged (req : Request) : Prop :=
  ¬ Unnamed req ∧ ¬ Unattributed server (identified server outcomes)

/-- What the registry finds for the request. -/
def found : Match :=
  lookup server.bindings (base req.binary) (caller server outcomes)

variable {server outcomes req}

theorem verdict_of_judged (hjudged : Judged server outcomes req) :
    verdict unicode server (base req.binary) (identified server outcomes) =
      judge unicode server (base req.binary) (found server outcomes req) :=
  if_neg hjudged.2

theorem serve_of_judged (hjudged : Judged server outcomes req) :
    (serve unicode server outcomes cred req).1 =
      answer server outcomes
        (judge unicode server (base req.binary) (found server outcomes req)) := by
  rw [serve_response, if_neg hjudged.1, verdict_of_judged unicode hjudged]

/-- A request that is not judged is denied without consulting the registry. -/
theorem serve_of_not_judged (hjudged : ¬ Judged server outcomes req) :
    ∃ error ∈ [str "request did not name a binary",
        str "caller could not be attributed to a pod"],
      ∀ bindings, (serve unicode { server with bindings := bindings } outcomes cred req).1 =
        { error := error } := by
  by_cases hunnamed : Unnamed req
  · refine ⟨_, List.mem_cons_self, fun bindings => ?_⟩
    rw [serve_response, if_pos hunnamed]
  · have hunattributed : Unattributed server (identified server outcomes) := by
      by_contra hattributed
      exact hjudged ⟨hunnamed, hattributed⟩
    refine ⟨_, List.mem_cons_of_mem _ List.mem_cons_self, fun bindings => ?_⟩
    rw [serve_response, if_neg hunnamed, verdict, if_pos]
    · rfl
    · exact hunattributed

/-- The calls of such a request do not depend on the registry either. -/
theorem serve_congr_of_not_judged (hjudged : ¬ Judged server outcomes req)
    (bindings : List Binding) :
    serve unicode { server with bindings := bindings } outcomes cred req =
      serve unicode server outcomes cred req := by
  obtain ⟨error, _, hserve⟩ := serve_of_not_judged unicode cred hjudged
  refine Prod.ext ((hserve bindings).trans (hserve server.bindings).symm) ?_
  rw [serve_calls, serve_calls]
  by_cases hunnamed : Unnamed req
  · rw [if_pos hunnamed, if_pos hunnamed]
    rfl
  · have hunattributed : Unattributed server (identified server outcomes) := by
      by_contra hattributed
      exact hjudged ⟨hunnamed, hattributed⟩
    have hverdict : verdict unicode { server with bindings := bindings } (base req.binary)
        (identified server outcomes) =
          verdict unicode server (base req.binary) (identified server outcomes) :=
      (if_pos hunattributed).trans (if_pos hunattributed).symm
    rw [if_neg hunnamed, if_neg hunnamed, ← hverdict]
    rfl

theorem serve_calls_of_judged (hjudged : Judged server outcomes req) :
    (serve unicode server outcomes cred req).2 =
      identifyCalls server outcomes cred.pid.toUInt32 ++
        answerCalls server outcomes cred.pid.toUInt32
          (judge unicode server (base req.binary) (found server outcomes req)) := by
  rw [serve_calls, if_neg hjudged.1, verdict_of_judged unicode hjudged]

theorem judge_of_secrets {binaryName : GoString} {matched : Match}
    (hsecrets : matched.secrets ≠ []) :
    judge unicode server binaryName matched = .release matched := by
  have hempty : ¬ matched.Empty := fun hempty => hsecrets hempty.1
  simp [judge, hempty, hsecrets]

theorem answer_of_no_secrets {binaryName : GoString} {matched : Match}
    (hsecrets : matched.secrets = []) :
    (answer server outcomes (judge unicode server binaryName matched)).env = ∅ := by
  simp only [judge, hsecrets]
  split_ifs <;> simp_all [answer]

/-- A release that goes through carries the environment of the admitted
bindings. -/
theorem env_of_delivers (hjudged : Judged server outcomes req)
    (hdelivers : Delivers server outcomes) :
    (serve unicode server outcomes cred req).1.env =
      environment (found server outcomes req).secrets := by
  rw [serve_of_judged unicode cred hjudged]
  by_cases hsecrets : (found server outcomes req).secrets = []
  · rw [answer_of_no_secrets unicode hsecrets, hsecrets]
    rfl
  · rw [judge_of_secrets unicode hsecrets]
    exact congrArg Response.env (settle_of_delivers hdelivers _)

/-- Nothing else carries an environment. -/
theorem delivers_of_env (henv : (serve unicode server outcomes cred req).1.env ≠ ∅) :
    Judged server outcomes req ∧ Delivers server outcomes := by
  by_cases hjudged : Judged server outcomes req
  · refine ⟨hjudged, ?_⟩
    by_contra hdelivers
    rw [serve_of_judged unicode cred hjudged] at henv
    by_cases hsecrets : (found server outcomes req).secrets = []
    · exact henv (answer_of_no_secrets unicode hsecrets)
    · obtain ⟨error, _, hsettle⟩ := settle_of_not_delivers hdelivers
      rw [judge_of_secrets unicode hsecrets] at henv
      exact henv (congrArg Response.env (hsettle _))
  · obtain ⟨error, _, hserve⟩ := serve_of_not_judged unicode cred hjudged
    exact absurd (congrArg Response.env (hserve server.bindings)) henv

/-- Every entry of a response is one of the environment of the secrets that were found. -/
theorem delivers_of_entry {name value : GoString}
    (hentry : (serve unicode server outcomes cred req).1.env.lookup name = some value) :
    Judged server outcomes req ∧ Delivers server outcomes ∧
      (environment (found server outcomes req).secrets).lookup name = some value := by
  have henv : (serve unicode server outcomes cred req).1.env ≠ ∅ := by
    intro hempty
    simp [hempty] at hentry
  obtain ⟨hjudged, hdelivers⟩ := delivers_of_env unicode cred henv
  rw [env_of_delivers unicode cred hjudged hdelivers] at hentry
  exact ⟨hjudged, hdelivers, hentry⟩

end Serve

end KernelSeal.Serving

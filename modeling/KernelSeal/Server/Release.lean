import KernelSeal.Server.Delivery

/-!
# Protect before release

Every exit of `handle` is classified by the calls made on the way to it.  The
two outcomes that matter are disjoint in their traces: a response that carries
secrets was preceded by exactly one `ProtectPID` and one `TrackPID` between two
agreeing start-time reads, and a denial released nothing.
-/

namespace KernelSeal.Release

open KernelSeal.Text
open KernelSeal.Registry
open KernelSeal.Resumption
open KernelSeal.Resumption.Prog
open KernelSeal.Delivery

/-! ## The environment of a release -/

theorem lookup_foldl_insert (secrets : List Secret) (env : StringMap) (name : GoString) :
    (secrets.foldl (fun env secret => env.insert secret.name secret.value) env).lookup name =
      ((secrets.reverse.find? fun secret => secret.name = name).map Secret.value).or
        (env.lookup name) := by
  induction secrets generalizing env with
  | nil => rfl
  | cons secret secrets ih =>
      rw [List.foldl_cons, ih, List.reverse_cons, List.find?_append]
      by_cases hname : secret.name = name
      · subst hname
        cases secrets.reverse.find? fun other => other.name = secret.name <;> simp
      · rw [Finmap.lookup_insert_of_ne _ (Ne.symm hname)]
        simp [hname]

/-- The value delivered for a name is that of the last secret bearing it. -/
theorem lookup_environment (secrets : List Secret) (name : GoString) :
    (environment secrets).lookup name =
      (secrets.reverse.find? fun secret => secret.name = name).map Secret.value := by
  rw [environment, lookup_foldl_insert]
  simp

theorem mem_environment_iff {secrets : List Secret} {name : GoString} :
    name ∈ environment secrets ↔ ∃ secret ∈ secrets, secret.name = name := by
  rw [← Finmap.lookup_isSome, lookup_environment, Option.isSome_map, List.find?_isSome]
  simp

/-- Releasing at least one secret yields a non-empty environment. -/
theorem environment_ne_empty {secrets : List Secret} (hsecrets : secrets ≠ []) :
    environment secrets ≠ ∅ := by
  obtain ⟨secret, hsecret⟩ := List.exists_mem_of_ne_nil secrets hsecrets
  intro hempty
  have hlookup := lookup_environment secrets secret.name
  rw [hempty, Finmap.lookup_empty, eq_comm, Option.map_eq_none_iff, List.find?_eq_none] at hlookup
  exact absurd rfl (of_decide_eq_false
    (Bool.eq_false_of_not_eq_true (hlookup secret (List.mem_reverse.2 hsecret))))

/-! ## The calls of one run -/

section Runs

variable (unicode : Unicode) (server : Server)

/-- The call `denied` makes when the callback is registered. -/
def deniedCalls (pid : UInt32) (reason : GoString) : List Step :=
  if server.deniedCallback then [⟨Op.onDenied pid reason, ()⟩] else []

def issuedCalls (pid : UInt32) (names : List GoString) : List Step :=
  if server.issuedCallback then [⟨Op.onIssued pid names, ()⟩] else []

variable {unicode server}

theorem path_denied_iff {pid : UInt32} {reason : GoString} {response value : Response}
    {calls : List Step} :
    Path (denied server pid reason >>= fun _ => pure response) calls (ret value) ↔
      calls = deniedCalls server pid reason ∧ value = response := by
  rw [denied, deniedCalls]
  cases server.deniedCallback with
  | false => simp [eq_comm]
  | true =>
      rw [if_pos rfl, if_pos rfl, path_perform_pure_iff]
      exact and_congr_left fun _ => ⟨fun ⟨(), hcalls⟩ => hcalls, fun hcalls => ⟨(), hcalls⟩⟩

theorem path_issued_iff {pid : UInt32} {names : List GoString} {response value : Response}
    {calls : List Step} :
    Path (issued server pid names >>= fun _ => pure response) calls (ret value) ↔
      calls = issuedCalls server pid names ∧ value = response := by
  rw [issued, issuedCalls]
  cases server.issuedCallback with
  | false => simp [eq_comm]
  | true =>
      rw [if_pos rfl, if_pos rfl, path_perform_pure_iff]
      exact and_congr_left fun _ => ⟨fun ⟨(), hcalls⟩ => hcalls, fun hcalls => ⟨(), hcalls⟩⟩

/-- The calls of a run of `release`, by the exit it takes. -/
inductive ReleaseRun (server : Server) (pid : UInt32) (matched : Match) :
    List Step → Response → Prop
  | vanished (err : GoError) :
      ReleaseRun server pid matched
        (⟨Op.processStartTime pid, .error err⟩ ::
          deniedCalls server pid (str "caller vanished"))
        { error := str "caller no longer exists" }
  | recycled (startBefore : UInt64) (startAfter : Except GoError UInt64)
      (protectErr trackErr unprotectErr : Option GoError)
      (hdiffers : agrees startBefore startAfter = false) :
      ReleaseRun server pid matched
        ([⟨Op.processStartTime pid, .ok startBefore⟩, ⟨Op.protectPID pid, protectErr⟩,
          ⟨Op.trackPID pid, trackErr⟩, ⟨Op.processStartTime pid, startAfter⟩,
          ⟨Op.unprotectPID pid, unprotectErr⟩] ++
          deniedCalls server pid (str "pid recycled"))
        { error := str "caller no longer exists" }
  | unprotected (start : UInt64) (protectErr trackErr : Option GoError)
      (hrequired : protectErr.isSome = true ∧ server.cfg.requireProtection = true) :
      ReleaseRun server pid matched
        ([⟨Op.processStartTime pid, .ok start⟩, ⟨Op.protectPID pid, protectErr⟩,
          ⟨Op.trackPID pid, trackErr⟩, ⟨Op.processStartTime pid, .ok start⟩] ++
          deniedCalls server pid (str "protection unavailable"))
        { error := str "kernel protection unavailable and policy requires it" }
  | released (start : UInt64) (protectErr trackErr : Option GoError)
      (hallowed : ¬ (protectErr.isSome = true ∧ server.cfg.requireProtection = true)) :
      ReleaseRun server pid matched
        ([⟨Op.processStartTime pid, .ok start⟩, ⟨Op.protectPID pid, protectErr⟩,
          ⟨Op.trackPID pid, trackErr⟩, ⟨Op.processStartTime pid, .ok start⟩] ++
          issuedCalls server pid (sortStrings (matched.secrets.map Secret.name)))
        { ok := true
          env := environment matched.secrets
          isProtected := protectErr.isNone
          warning := join (warnings matched) (str "; ") }

theorem agrees_iff {startBefore : UInt64} {startAfter : Except GoError UInt64} :
    agrees startBefore startAfter = true ↔ startAfter = .ok startBefore := by
  cases startAfter <;> simp [agrees]

/-- `release` has the four exits of `ReleaseRun` and no others. -/
theorem release_runs {pid : UInt32} {matched : Match} {calls : List Step}
    {response : Response} (hrun : Path (release server pid matched) calls (ret response)) :
    ReleaseRun server pid matched calls response := by
  rw [release] at hrun
  simp only [perform_bind] at hrun
  obtain ⟨before, afterRead, rfl, hread⟩ := path_call_ret_iff.1 hrun
  cases before with
  | error err =>
      obtain ⟨rfl, rfl⟩ := path_denied_iff.1 hread
      exact .vanished err
  | ok startBefore =>
      obtain ⟨protectErr, afterProtect, rfl, hprotect⟩ := path_call_ret_iff.1 hread
      obtain ⟨trackErr, afterTrack, rfl, htrack⟩ := path_call_ret_iff.1 hprotect
      obtain ⟨startAfter, afterReread, rfl, hreread⟩ := path_call_ret_iff.1 htrack
      by_cases hagrees : agrees startBefore startAfter = true
      · rw [if_neg (not_not.2 hagrees)] at hreread
        obtain rfl := agrees_iff.1 hagrees
        by_cases hrequired : protectErr.isSome = true ∧ server.cfg.requireProtection = true
        · rw [if_pos hrequired] at hreread
          obtain ⟨rfl, rfl⟩ := path_denied_iff.1 hreread
          exact .unprotected startBefore protectErr trackErr hrequired
        · rw [if_neg hrequired] at hreread
          obtain ⟨rfl, rfl⟩ := path_issued_iff.1 hreread
          exact .released startBefore protectErr trackErr hrequired
      · rw [if_pos hagrees] at hreread
        obtain ⟨unprotectErr, afterRollback, rfl, hrollback⟩ := path_call_ret_iff.1 hreread
        obtain ⟨rfl, rfl⟩ := path_denied_iff.1 hrollback
        exact .recycled startBefore startAfter protectErr trackErr unprotectErr
          (Bool.eq_false_of_not_eq_true hagrees)

/-- The only call `identify` makes is to the identifier. -/
theorem identify_runs {pid : UInt32} {calls : List Step} {identified : Identified}
    (hrun : Path (identify server pid) calls (ret identified)) :
    calls = [] ∨ calls = [⟨Op.identify pid, identified⟩] := by
  rw [identify] at hrun
  split_ifs at hrun with hidentify hidentifier
  · obtain ⟨answer, rest, rfl, hrest⟩ := path_call_ret_iff.1 hrun
    obtain ⟨rfl, hvalue⟩ := path_ret_iff.1 hrest
    cases hvalue
    exact Or.inr rfl
  · exact Or.inl (path_ret_iff.1 hrun).1
  · exact Or.inl (path_ret_iff.1 hrun).1

/-- A verdict releases only a match that holds a secret. -/
theorem secrets_ne_nil_of_verdict {binaryName : GoString} {identified : Identified}
    {matched : Match}
    (hverdict : verdict unicode server binaryName identified = .release matched) :
    matched.secrets ≠ [] := by
  rw [verdict, judge] at hverdict
  split_ifs at hverdict with _ _ _ _ hsecrets
  cases hverdict
  exact hsecrets

/-- Every run of `handle` identifies the caller at most once and then carries
out a verdict. -/
theorem handle_runs {cred : Ucred} {req : Request} {calls : List Step} {response : Response}
    (hrun : Path (handle unicode server cred req) calls (ret response)) :
    ∃ before after verdict, calls = before ++ after ∧
      (before = [] ∨ ∃ identified, before = [⟨Op.identify cred.pid.toUInt32, identified⟩]) ∧
      (∀ matched, verdict = Verdict.release matched → matched.secrets ≠ []) ∧
      Path (conclude server cred.pid.toUInt32 verdict) after (ret response) := by
  rw [handle_eq] at hrun
  split_ifs at hrun with hunnamed
  · exact ⟨[], calls, _, rfl, Or.inl rfl, by simp, hrun⟩
  · obtain ⟨before, identified, after, rfl, hbefore, hafter⟩ := path_bind_ret_iff.1 hrun
    refine ⟨before, after, _, rfl, ?_, fun matched => secrets_ne_nil_of_verdict, hafter⟩
    rcases identify_runs hbefore with hnone | hone
    · exact Or.inl hnone
    · exact Or.inr ⟨identified, hone⟩

end Runs

/-! ## Observations on a trace -/

@[simp]
def isProtector : Op → Bool
  | .protectPID _ | .trackPID _ | .unprotectPID _ => true
  | _ => false

@[simp]
def isIssued : Op → Bool
  | .onIssued _ _ => true
  | _ => false

@[simp]
def isDenied : Op → Bool
  | .onDenied _ _ => true
  | _ => false

@[simp]
def startRead : Step → Option (Except GoError UInt64)
  | ⟨.processStartTime _, answer⟩ => some answer
  | _ => none

/-- The calls to the protector, in order. -/
def protectorCalls (calls : List Step) : List Op :=
  (calls.map Call.op).filter isProtector

/-- The answers of the start-time reads, in order. -/
def startReads (calls : List Step) : List (Except GoError UInt64) :=
  calls.filterMap startRead

/-- How often the issued callback fired. -/
def issuedCount (calls : List Step) : ℕ :=
  calls.countP fun call => isIssued call.op

/-- How often the denied callback fired. -/
def deniedCount (calls : List Step) : ℕ :=
  calls.countP fun call => isDenied call.op

section Observations

variable {server : Server} {pid : UInt32} {reason : GoString} {names : List GoString}

@[simp]
theorem protectorCalls_cons (call : Step) (calls : List Step) :
    protectorCalls (call :: calls) =
      if isProtector call.op then call.op :: protectorCalls calls
      else protectorCalls calls := by
  simp [protectorCalls, List.filter_cons]

@[simp]
theorem startReads_nil : startReads [] = [] := rfl

@[simp]
theorem startReads_cons (call : Step) (calls : List Step) :
    startReads (call :: calls) = (startRead call).toList ++ startReads calls := by
  rw [startReads]
  rw [List.filterMap_cons]
  cases startRead call <;> rfl

@[simp]
theorem issuedCount_cons (call : Step) (calls : List Step) :
    issuedCount (call :: calls) =
      issuedCount calls + if isIssued call.op then 1 else 0 :=
  List.countP_cons

@[simp]
theorem deniedCount_cons (call : Step) (calls : List Step) :
    deniedCount (call :: calls) =
      deniedCount calls + if isDenied call.op then 1 else 0 :=
  List.countP_cons

@[simp]
theorem protectorCalls_append (first second : List Step) :
    protectorCalls (first ++ second) = protectorCalls first ++ protectorCalls second := by
  simp [protectorCalls]

@[simp]
theorem startReads_append (first second : List Step) :
    startReads (first ++ second) = startReads first ++ startReads second := by
  simp [startReads]

@[simp]
theorem issuedCount_append (first second : List Step) :
    issuedCount (first ++ second) = issuedCount first + issuedCount second := by
  simp [issuedCount]

@[simp]
theorem deniedCount_append (first second : List Step) :
    deniedCount (first ++ second) = deniedCount first + deniedCount second := by
  simp [deniedCount]

/-- Denying reaches neither the protector nor the start-time file, and reports
once when a callback is registered. -/
@[simp]
theorem observe_deniedCalls :
    protectorCalls (deniedCalls server pid reason) = [] ∧
      startReads (deniedCalls server pid reason) = [] ∧
      issuedCount (deniedCalls server pid reason) = 0 ∧
      deniedCount (deniedCalls server pid reason) =
        if server.deniedCallback then 1 else 0 := by
  rw [deniedCalls]
  cases server.deniedCallback <;>
    simp [protectorCalls, startReads, issuedCount, deniedCount]

@[simp]
theorem observe_issuedCalls :
    protectorCalls (issuedCalls server pid names) = [] ∧
      startReads (issuedCalls server pid names) = [] ∧
      deniedCount (issuedCalls server pid names) = 0 ∧
      issuedCount (issuedCalls server pid names) =
        if server.issuedCallback then 1 else 0 := by
  rw [issuedCalls]
  cases server.issuedCallback <;>
    simp [protectorCalls, startReads, issuedCount, deniedCount]

theorem observe_identify {calls : List Step}
    (hcalls : calls = [] ∨ ∃ identified, calls = [⟨Op.identify pid, identified⟩]) :
    protectorCalls calls = [] ∧ startReads calls = [] ∧ issuedCount calls = 0 ∧
      deniedCount calls = 0 := by
  rcases hcalls with rfl | ⟨identified, rfl⟩ <;>
    simp [protectorCalls, startReads, issuedCount, deniedCount]

end Observations

/-! ## The contract of one run -/

/-- What the calls of one run of `handle` guarantee about its response.

* `released`: secrets are released only to a process marked protected between
  two agreeing start-time reads, with no rollback;
* `refused`: a denial carries nothing and is reported exactly once;
* `quiet`: a request served without secrets touches neither the protector nor a
  callback;
* `reported`: a release is reported exactly once, and nothing else is.

A callback that is not registered cannot fire, hence the two conditionals. -/
structure Contract (server : Server) (pid : UInt32) (calls : List Step)
    (response : Response) : Prop where
  released : response.env ≠ ∅ →
    response.ok = true ∧
      protectorCalls calls = [Op.protectPID pid, Op.trackPID pid] ∧
      (∃ start, startReads calls = [.ok start, .ok start]) ∧
      (∃ protectErr : Option GoError, ⟨Op.protectPID pid, protectErr⟩ ∈ calls ∧
        (response.isProtected = true ↔ protectErr = none)) ∧
      (server.cfg.requireProtection = true → response.isProtected = true)
  refused : response.ok = false →
    response.env = ∅ ∧ issuedCount calls = 0 ∧
      deniedCount calls = if server.deniedCallback then 1 else 0
  quiet : response.ok = true → response.env = ∅ →
    protectorCalls calls = [] ∧ issuedCount calls = 0 ∧ deniedCount calls = 0
  reported : issuedCount calls =
    if response.env ≠ ∅ ∧ server.issuedCallback = true then 1 else 0

section Contract

variable {unicode : Unicode} {server : Server} {pid : UInt32} {calls : List Step}
variable {response : Response}

/-- A response without secrets that was denied meets the contract as soon as
the denial was its only report. -/
theorem Contract.of_denied (hok : response.ok = false) (henv : response.env = ∅)
    (hissued : issuedCount calls = 0)
    (hdenied : deniedCount calls = if server.deniedCallback then 1 else 0) :
    Contract server pid calls response where
  released hreleased := absurd henv hreleased
  refused _ := ⟨henv, hissued, hdenied⟩
  quiet hserved := by simp [hok] at hserved
  reported := by simp [henv, hissued]

theorem ReleaseRun.contract {matched : Match} (hsecrets : matched.secrets ≠ [])
    (hrun : ReleaseRun server pid matched calls response) :
    Contract server pid calls response := by
  cases hrun with
  | vanished err => exact Contract.of_denied rfl rfl (by simp) (by simp)
  | recycled startBefore startAfter protectErr trackErr unprotectErr hdiffers =>
      exact Contract.of_denied rfl rfl (by simp) (by simp)
  | unprotected start protectErr trackErr hrequired =>
      exact Contract.of_denied rfl rfl (by simp) (by simp)
  | released start protectErr trackErr hallowed =>
      have henv := environment_ne_empty hsecrets
      refine ⟨fun _ => ⟨rfl, by simp, ⟨start, by simp⟩, ⟨protectErr, by simp, by simp⟩, ?_⟩,
        fun hdenied => by simp at hdenied, fun _ hempty => absurd hempty henv, by simp [henv]⟩
      intro hrequired
      cases protectErr with
      | none => rfl
      | some err => exact absurd ⟨rfl, hrequired⟩ hallowed

theorem conclude_contract {verdict : Verdict}
    (hsecrets : ∀ matched, verdict = .release matched → matched.secrets ≠ [])
    (hrun : Path (conclude server pid verdict) calls (ret response)) :
    Contract server pid calls response := by
  cases verdict with
  | deny reason error =>
      obtain ⟨rfl, rfl⟩ := path_denied_iff.1 hrun
      exact Contract.of_denied rfl rfl (by simp) (by simp)
  | allow warning =>
      obtain ⟨rfl, hvalue⟩ := path_ret_iff.1 hrun
      cases hvalue
      refine ⟨fun henv => absurd rfl henv, fun hdenied => by simp at hdenied,
        fun _ _ => ⟨rfl, rfl, rfl⟩, by simp [issuedCount]⟩
  | release matched => exact (release_runs hrun).contract (hsecrets matched rfl)

/-- Calls that are neither protector calls, start-time reads nor callbacks do
not affect the contract. -/
theorem Contract.of_unobserved {before : List Step}
    (hunobserved : protectorCalls before = [] ∧ startReads before = [] ∧
      issuedCount before = 0 ∧ deniedCount before = 0)
    (hcontract : Contract server pid calls response) :
    Contract server pid (before ++ calls) response := by
  obtain ⟨hprotector, hreads, hissued, hdenied⟩ := hunobserved
  refine ⟨fun henv => ?_, fun hok => ?_, fun hok henv => ?_, ?_⟩
  · obtain ⟨hok, hcalls, hstart, ⟨protectErr, hmem, hanswer⟩, hrequired⟩ :=
      hcontract.released henv
    exact ⟨hok, by simpa [hprotector] using hcalls, by simpa [hreads] using hstart,
      ⟨protectErr, List.mem_append_right _ hmem, hanswer⟩, hrequired⟩
  · simpa [hissued, hdenied] using hcontract.refused hok
  · simpa [hprotector, hissued, hdenied] using hcontract.quiet hok henv
  · simpa [hissued] using hcontract.reported

/-- Every complete run of `handle` meets the contract. -/
theorem handle_contract {cred : Ucred} {req : Request}
    (hrun : Path (handle unicode server cred req) calls (ret response)) :
    Contract server cred.pid.toUInt32 calls response := by
  obtain ⟨before, after, verdict, rfl, hbefore, hsecrets, hafter⟩ := handle_runs hrun
  exact (conclude_contract hsecrets hafter).of_unobserved (observe_identify hbefore)

end Contract

/-- Protect before release, and fail closed: whatever the registry, the
configuration and the request, and however the identifier, the protector and
the start-time file answer, one run of `handle` meets the contract. -/
theorem protect_before_release (unicode : Unicode) (server : Server)
    (oracle : Oracle Op Op.Ans) (cred : Ucred) (req : Request) :
    Contract server cred.pid.toUInt32
      (run oracle [] (handle unicode server cred req)).2
      (run oracle [] (handle unicode server cred req)).1 :=
  handle_contract (path_run oracle [] (handle unicode server cred req))

end KernelSeal.Release

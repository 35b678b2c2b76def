import KernelSeal.Agent.Startup
import KernelSeal.Cgroup.Attribution
import KernelSeal.Server.Denials
import KernelSeal.Server.Exchange

/-!
# What a started agent releases

`main` gives the server the flags of the configuration, the manager that has loaded what it
could, and the identifier that `startIdentity` returned.  This file follows a reply with
secrets back to the start of the agent: which calls of the start must have succeeded, what
the hooks then refuse to others, and from which cache the caller's pod was taken.
-/

namespace KernelSeal.Service

open KernelSeal.Text
open KernelSeal.Kube
open KernelSeal.Registry
open KernelSeal.Resumption
open KernelSeal.Resumption.Prog
open KernelSeal.Delivery
open KernelSeal.Release
open KernelSeal.Serving
open KernelSeal.FileProtect
open KernelSeal.Loader
open KernelSeal.Denials (protectedAfter protectedAfter_append protectedAfter_of_no_protector
  protectorCalls_identifyCalls)
open KernelSeal.Startup (Enforces achieved blocks fileOpen fileOpen_refuses_iff
  ksFileOpen_refuses_stranger_iff lsmLoaded_iff requireProtection_iff serverConfig serving_cfg
  startup watches_of_required)
open KernelSeal.Exchange
open KernelSeal.Connection (preamble)
open KernelSeal.Attribution (Resolver checkoutInputs checkoutResolver lookupPod_eq_some
  identify_of_no_path identify_of_path)
open KernelSeal.Authorization (exists_source_of_served source_admitted)

/-! ## The server of an agent -/

/-- `ErrLSMUnavailable`. -/
def errLSMUnavailable : GoError := str "BPF-LSM not loaded"

/-- `(*Manager).ProtectPID`, given what `Put` returns. -/
def protectPID (lsmLoaded : Bool) (pid : UInt32) (putErr : Option GoError) : Option GoError :=
  if ¬ lsmLoaded then some errLSMUnavailable
  else putErr.map (str "failed to protect PID " ++ decimal pid.toNat ++ str ": " ++ ·)

/-- The server that `main` builds when it has come so far. -/
def agentServer (unicode : Unicode) (host : Host) (config : KernelSealConfig)
    (serving : Startup.Serving) : Server where
  cfg := serving.cfg
  bindings := loadSecrets unicode host config
  identifier := serving.identification.identifier

/-- The calls of a connection are answered by the manager and by the identifier of this
agent. -/
structure Backed (unicode : Unicode) (serving : Startup.Serving) (calls : List Step) : Prop where
  protects : ∀ pid answer, ⟨.protectPID pid, answer⟩ ∈ calls →
    ∃ putErr, answer = protectPID serving.lsmLoaded pid putErr
  identifies : ∀ pid answer, ⟨.identify pid, answer⟩ ∈ calls →
    ∃ (resolver : Resolver) (watcher : Watcher), answer = Attribution.identify unicode resolver pid
      (if serving.identification.podWatcher then some watcher else none)

/-- The map of the hooks for a set of protected processes. -/
def pidMap (pids : Finset UInt32) : PidMap := fun pid => if pid ∈ pids then some 1 else none

section Released

variable {unicode : Unicode} {host : Host} {config : KernelSealConfig} {ownPid : UInt32}
  {started : List Startup.Step} {serving : Startup.Serving} {calls handled : List Step}
  {cred : Ucred} {req : Request} {outcomes : Outcomes} {response : Response}

/-- A process whose protection was seen is protected when the reply is sent. -/
theorem mem_protectedAfter {server : Server}
    (hexchanged : Exchanged unicode server calls cred req outcomes response handled)
    (henv : response.env ≠ ∅) (hprotected : outcomes.protectPID = none) (before : Finset UInt32) :
    cred.pid.toUInt32 ∈ protectedAfter before calls := by
  obtain ⟨replyErr, rfl⟩ := hexchanged.made
  obtain ⟨start, rfl⟩ := hexchanged.handled_eq henv
  simp only [protectedAfter_append, protectedAfter_of_no_protector _ protectorCalls_identifyCalls,
    protectedAfter_of_no_protector _ observe_issuedCalls.1, hprotected]
  exact Finset.mem_insert_self _ _

/-- A pod is taken from a synced cache, under the UID of the caller. -/
theorem lookup_of_identify {resolver : Resolver} {pid : UInt32} {watcher : Watcher} {pod : Pod}
    (hpod : (Attribution.identify unicode resolver pid (some watcher)).1.pod = some pod) :
    watcher.synced = true ∧
      watcher.lookup (Attribution.identify unicode resolver pid (some watcher)).1.podUID =
        some pod := by
  cases hpath : Attribution.pathFor resolver pid with
  | error err =>
      rw [(identify_of_no_path unicode resolver pid (some watcher) hpath).1] at hpod
      cases hpod
  | ok path =>
      obtain ⟨identity, _, hlookup⟩ :=
        identify_of_path unicode resolver pid (some watcher) hpath
      rw [hlookup] at hpod ⊢
      obtain ⟨_, hsynced, huid, hentry⟩ := lookupPod_eq_some hpod
      rw [huid]
      exact ⟨hsynced, hentry⟩

variable (hstart : Path (startup unicode config ownPid) started (ret (.ok serving)))
include hstart

/-- The server is the one that the configuration determines, with an identifier if there
is one. -/
theorem agentServer_eq :
    agentServer unicode host config serving =
      { mainServer unicode host config with
        identifier := serving.identification.identifier } := by
  rw [agentServer, serving_cfg hstart]
  rfl

/-- An enforcing agent releases secrets only with the maps of the hooks loaded, and then to a
process whose files the hooks refuse to others, if they are attached and configured so. -/
theorem refuses_of_enforces (henforces : Enforces unicode config)
    (hbacked : Backed unicode serving calls)
    (hexchanged : Exchanged unicode (agentServer unicode host config serving) calls cred req
      outcomes response handled)
    (henv : response.env ≠ ∅) :
    .loadAndAssign .lsm ∈ achieved started ∧
    ∀ (before : Finset UInt32) (opener : Opener) (room : Bool) (access : AccessType),
      cred.pid.toUInt32 ≠ 0 → opener.pid ≠ ownPid → opener.pid ≠ cred.pid.toUInt32 →
      (fileOpen (achieved started) (pidMap (protectedAfter before calls)) room opener
          ((ProcDir.process cred.pid.toUInt32).file access) = -eperm ↔
        .attach .fileOpen ∈ achieved started ∧
        .putPolicyConfig (getBPFPolicy unicode config) ∈ achieved started ∧
        blocks config.policy access = true) := by
  have hrequired : (agentServer unicode host config serving).cfg.requireProtection = true := by
    rw [agentServer_eq hstart]
    exact (requireProtection_iff unicode config).2 henforces
  have hprotected := hexchanged.protectPID_eq_none henv hrequired
  have hcall : ⟨.protectPID cred.pid.toUInt32, none⟩ ∈ calls := by
    obtain ⟨replyErr, rfl⟩ := hexchanged.made
    exact List.mem_append_left _ (List.mem_append_right _
      (hexchanged.protectPID_mem henv hrequired))
  have hloaded : serving.lsmLoaded = true := by
    by_contra hunloaded
    obtain ⟨putErr, hanswer⟩ := hbacked.protects _ _ hcall
    rw [protectPID, if_pos hunloaded] at hanswer
    cases hanswer
  refine ⟨(lsmLoaded_iff hstart).1 hloaded, ?_⟩
  intro before opener room access htarget hopener hstranger
  have hmarked : pidMap (protectedAfter before calls) cred.pid.toUInt32 = some 1 :=
    if_pos (mem_protectedAfter hexchanged henv hprotected before)
  rw [fileOpen_refuses_iff,
    ksFileOpen_refuses_stranger_iff hstart hopener htarget hmarked hstranger room access]
  simp only [henforces, true_and]

/-- An agent with required pod identity releases secrets only to a process of a pod in the
cache of the watcher that it has started. -/
theorem attributed_of_required (hmode : podIdentityMode unicode config = .required)
    (hbacked : Backed unicode serving calls)
    (hexchanged : Exchanged unicode (agentServer unicode host config serving) calls cred req
      outcomes response handled)
    (henv : response.env ≠ ∅) :
    .startWatcher ∈ achieved started ∧
    ∃ (resolver : Resolver) (watcher : Watcher) (pod : Pod),
      Attribution.identify unicode resolver cred.pid.toUInt32 (some watcher) =
        (caller (agentServer unicode host config serving) outcomes, none) ∧
      (caller (agentServer unicode host config serving) outcomes).pod = some pod ∧
      watcher.synced = true ∧
      watcher.lookup (caller (agentServer unicode host config serving) outcomes).podUID =
        some pod := by
  obtain ⟨hidentifier, hwatcher, hstarted⟩ := watches_of_required hstart hmode
  have hcfg := serving_cfg hstart
  have hidentifies : serving.cfg.identifyCallers = true := by
    simp [hcfg, serverConfig, hmode]
  have hrequires : serving.cfg.requirePodIdentity = true := by
    simp [hcfg, serverConfig, hmode]
  have hidentified : identified (agentServer unicode host config serving) outcomes =
      outcomes.identify := by
    simp [identified, agentServer, hidentifies, hidentifier]
  have hcall : ⟨.identify cred.pid.toUInt32, outcomes.identify⟩ ∈ calls := by
    obtain ⟨replyErr, rfl⟩ := hexchanged.made
    obtain ⟨start, rfl⟩ := hexchanged.handled_eq henv
    simp [identifyCalls, agentServer, hidentifies, hidentifier]
  obtain ⟨resolver, watcher, hanswer⟩ := hbacked.identifies _ _ hcall
  rw [if_pos hwatcher] at hanswer
  -- the request was judged, so its caller is attributed
  have hattributed := (hexchanged.delivers henv).1.2
  rw [Unattributed, hidentified, not_and, not_or] at hattributed
  obtain ⟨hnone, hsome⟩ := hattributed hrequires
  obtain ⟨pod, hpod⟩ := Option.ne_none_iff_exists'.1 hsome
  rw [hanswer] at hpod hnone
  obtain ⟨hsynced, hlookup⟩ := lookup_of_identify hpod
  have hcaller : caller (agentServer unicode host config serving) outcomes =
      (Attribution.identify unicode resolver cred.pid.toUInt32 (some watcher)).1 := by
    rw [caller, hidentified, hanswer]
  rw [hcaller]
  refine ⟨hstarted, resolver, watcher, pod, ?_, hpod, hsynced, hlookup⟩
  exact Prod.ext rfl (Option.not_isSome_iff_eq_none.1 hnone)

end Released

/-! ## A start and a release -/

/-- A binding for a program of namespace `payments`, with required pod identity. -/
def checkoutConfig : KernelSealConfig where
  policy := { podIdentity := str "required" }
  secrets :=
    [{ name := str "checkout"
       selector := { binary := str "app", namespaceName := str "payments" }
       secretRefs := [⟨str "TOKEN", { value := str "x" }⟩] }]

/-- Nothing but the configuration is read. -/
def bareHost : Host where
  getenv _ := []
  readFile _ := .error (str "no such file or directory")

/-- A start in which everything succeeds. -/
def checkoutStart : Except GoError Startup.Serving × List Startup.Step :=
  run (Startup.answers []) [] (startup Unicode.ascii checkoutConfig 10)

def checkoutServing : Startup.Serving where
  lsmLoaded := true
  policy := getBPFPolicy Unicode.ascii checkoutConfig
  cfg := serverConfig Unicode.ascii checkoutConfig
  identification := ⟨true, true⟩

def checkoutServer : Server :=
  agentServer Unicode.ascii bareHost checkoutConfig checkoutServing

/-- What the connection of process 42, a program of that pod, is answered. -/
def checkoutAnswers : (op : Op) → op.Ans
  | .setDeadline => none
  | .isUnixConn => true
  | .peerCred => .ok ⟨42⟩
  | .decode => .ok ⟨str "/bin/app"⟩
  | .identify pid => Attribution.identify Unicode.ascii checkoutResolver pid
      (some (checkoutInputs.foldl (Watcher.receive Unicode.ascii) {}))
  | .processStartTime _ => .ok 1
  | .protectPID _ | .trackPID _ | .unprotectPID _ => none
  | .onIssued _ _ | .onDenied _ _ => ()
  | .reply _ => none
  | .listProtectedPIDs => .ok []
  | .alive _ => true

def checkoutConnection : Unit × List Step :=
  run (fun _ => checkoutAnswers) [] (handleConn Unicode.ascii checkoutServer)

def checkoutResponse : Response :=
  (run (fun _ => checkoutAnswers) (preamble ⟨42⟩ ⟨str "/bin/app"⟩)
    (handle Unicode.ascii checkoutServer ⟨42⟩ ⟨str "/bin/app"⟩)).1

theorem path_checkoutStart :
    Path (startup Unicode.ascii checkoutConfig 10) checkoutStart.2 (ret (.ok checkoutServing)) :=
  path_run (Startup.answers []) [] (startup Unicode.ascii checkoutConfig 10)

theorem backed_checkoutConnection : Backed Unicode.ascii checkoutServing checkoutConnection.2 where
  protects pid answer hcall := by
    have hanswer : answer = none := answer_of_mem_run hcall
    exact ⟨none, hanswer⟩
  identifies pid answer hcall := by
    have hanswer : answer = checkoutAnswers (.identify pid) := answer_of_mem_run hcall
    exact ⟨checkoutResolver, checkoutInputs.foldl (Watcher.receive Unicode.ascii) {}, hanswer⟩

theorem reply_mem_checkoutConnection :
    ⟨.reply checkoutResponse, none⟩ ∈ checkoutConnection.2 := by
  have hconnection : checkoutConnection.2 = preamble ⟨42⟩ ⟨str "/bin/app"⟩ ++
      (run (fun _ => checkoutAnswers) (preamble ⟨42⟩ ⟨str "/bin/app"⟩)
        (handle Unicode.ascii checkoutServer ⟨42⟩ ⟨str "/bin/app"⟩ >>= fun response =>
          reply response >>= fun _ => pure ())).2 := rfl
  rw [hconnection, run_bind]
  exact List.mem_append_right _ (List.mem_append_right _ List.mem_cons_self)

end KernelSeal.Service

import KernelSeal.Agent.System
import KernelSeal.Server.Connection

/-!
# PID reuse during a connection

A connection learns the PID of its peer once and uses it in several later
calls.  This file determines when the process behind the PID is the same one in
all of them: exactly when the peer still held its PID at the first start-time
read.  The two reads protect the time between them, and nothing protects the
time before the first.
-/

namespace KernelSeal.PidReuse

open KernelSeal.Text
open KernelSeal.Registry
open KernelSeal.Resumption
open KernelSeal.Transition
open KernelSeal.Delivery
open KernelSeal.Release
open KernelSeal.Connection
open KernelSeal.Agent

/-- The process that holds a PID. -/
def holder (kernel : Kernel) (pid : UInt32) : Option Instance :=
  (kernel.table pid).map (Instance.mk pid)

theorem holder_eq_iff {kernel : Kernel} {pid : UInt32} {inst : Instance} :
    holder kernel pid = some inst ↔ inst.pid = pid ∧ kernel.Live inst := by
  obtain ⟨instPid, start⟩ := inst
  rw [holder, Kernel.Live]
  constructor
  · intro hholder
    obtain ⟨found, hfound, hinst⟩ := Option.map_eq_some_iff.1 hholder
    cases hinst
    exact ⟨rfl, hfound⟩
  · rintro ⟨rfl, hlive⟩
    exact Option.map_eq_some_iff.2 ⟨start, hlive, rfl⟩

/-- The connection wrote this response. -/
def Delivered (thread : Thread) (response : Response) : Prop :=
  Op.reply response ∈ thread.calls.map Call.op

instance (thread : Thread) : DecidablePred (Delivered thread) := fun _ =>
  inferInstanceAs (Decidable (_ ∈ _))

/-- The PID whose cgroup a call reads for matching, or that it marks protected. -/
def subject : Op → Option UInt32
  | .identify pid | .protectPID pid => some pid
  | _ => none

theorem mem_subject_iff {op : Op} {pid : UInt32} :
    pid ∈ subject op ↔ op = .identify pid ∨ op = .protectPID pid := by
  cases op <;> simp [subject]

/-- If the call identified a PID or marked it protected, the peer held it. -/
def HeldBy (event : Event) (peer : Instance) : Prop :=
  ∀ pid ∈ subject event.call.op, holder event.kernel pid = some peer

instance (event : Event) : DecidablePred (HeldBy event) := fun _ =>
  Option.decidableForallMem (subject event.call.op)

/-- Whenever a PID was identified or marked protected, the peer held it. -/
def SameInstance (thread : Thread) (peer : Instance) : Prop :=
  ∀ event ∈ thread.trace, HeldBy event peer

instance (thread : Thread) : DecidablePred (SameInstance thread) := fun _ =>
  inferInstanceAs (Decidable (∀ event ∈ thread.trace, HeldBy event _))

def isStartRead : Op → Bool
  | .processStartTime _ => true
  | _ => false

/-- The peer held its PID when its start time was first read. -/
def HeldAtFirstRead (thread : Thread) (peer : Instance) : Prop :=
  ∀ event ∈ thread.trace.find? fun event => isStartRead event.call.op, event.kernel.Live peer

instance (thread : Thread) : DecidablePred (HeldAtFirstRead thread) := fun _ =>
  inferInstanceAs (Decidable (∀ _ ∈ _, _))

section Sound

variable {unicode : Unicode} {server : Server} {kernel : Kernel} {born : List Instance}
variable {thread : Thread} {peer : Instance}

/-- A peer that is running at some event of its connection was running at every
earlier one. -/
theorem live_earlier (hsound : thread.Sound unicode server kernel born)
    (hactor : thread.actor = .connection peer) {earlier later : Event}
    (horder : [earlier, later].Sublist thread.trace) (hlive : later.kernel.Live peer) :
    earlier.kernel.Live peer := by
  have hpairs := (List.pairwise_append.1 (hsound.peerGone peer hactor)).1
  have htwo := hpairs.sublist (horder.map Event.kernel)
  exact List.rel_of_pairwise_cons htwo List.mem_cons_self hlive

/-- Every call of a connection about a PID is about its peer's. -/
theorem pid_eq_peer (hsound : thread.Sound unicode server kernel born)
    (hactor : thread.actor = .connection peer) {event : Event} (hevent : event ∈ thread.trace)
    {pid : UInt32} (hpid : pidOf event.call.op = some pid) : pid = peer.pid := by
  obtain ⟨cred, hcred, rfl⟩ :=
    exists_peerCred (hsound.connection hactor) (List.mem_map_of_mem hevent) hpid
  obtain ⟨answered, hanswered, hcall⟩ := List.mem_map.1 hcred
  have hanswer := hsound.answered answered hanswered
  rw [hcall, hactor] at hanswer
  exact of_decide_eq_true hanswer

/-- A start time that a connection read is that of the process holding the
peer's PID. -/
theorem table_of_read (hsound : thread.Sound unicode server kernel born)
    (hactor : thread.actor = .connection peer) {event : Event} (hevent : event ∈ thread.trace)
    {pid : UInt32} {start : UInt64}
    (hcall : event.call = ⟨.processStartTime pid, .ok start⟩) :
    event.kernel.table peer.pid = some start := by
  have hpid : pid = peer.pid := pid_eq_peer hsound hactor hevent (by rw [hcall]; rfl)
  have hanswer := hsound.answered event hevent
  rw [hcall] at hanswer
  exact hpid ▸ of_decide_eq_true hanswer

/-- The calls of a connection that delivered secrets. -/
theorem calls_of_delivered (hsound : thread.Sound unicode server kernel born)
    (hactor : thread.actor = .connection peer) {response : Response}
    (hdelivered : Delivered thread response) (henv : response.env ≠ ∅) :
    ∃ cred req before start protectErr trackErr names replyErr,
      thread.calls = preamble cred req ++ before ++
          handshake cred.pid.toUInt32 start (.ok start) protectErr trackErr ++
          (issuedCalls server cred.pid.toUInt32 names ++ [⟨Op.reply response, replyErr⟩]) ∧
        IdentifyCalls cred.pid.toUInt32 before ∧ response.isProtected = protectErr.isNone := by
  obtain ⟨⟨op, replyErr⟩, hreply, hop⟩ := List.mem_map.1 hdelivered
  cases hop
  obtain ⟨cred, req, before, start, protectErr, trackErr, names, hcalls⟩ :=
    connection_released (hsound.connection hactor) hreply henv
  exact ⟨cred, req, before, start, protectErr, trackErr, names, replyErr, hcalls⟩

/-- The events of a connection that delivered secrets. -/
structure ReleaseTrace (server : Server) (response : Response) where
  cred : Ucred
  req : Request
  start : UInt64
  front : List Event
  idents : List Event
  firstRead : Event
  protect : Event
  track : Event
  secondRead : Event
  tail : List Event
  front_calls : front.map Event.call = preamble cred req
  idents_calls : IdentifyCalls cred.pid.toUInt32 (idents.map Event.call)
  firstRead_call : firstRead.call = ⟨.processStartTime cred.pid.toUInt32, .ok start⟩
  protect_op : protect.call.op = .protectPID cred.pid.toUInt32
  track_op : track.call.op = .trackPID cred.pid.toUInt32
  secondRead_call : secondRead.call = ⟨.processStartTime cred.pid.toUInt32, .ok start⟩
  tail_calls : ∃ names replyErr, tail.map Event.call =
    issuedCalls server cred.pid.toUInt32 names ++ [⟨.reply response, replyErr⟩]

namespace ReleaseTrace

variable {response : Response}

/-- The events in order. -/
def events (release : ReleaseTrace server response) : List Event :=
  release.front ++ (release.idents ++
    (release.firstRead :: release.protect :: release.track :: release.secondRead ::
      release.tail))

theorem front_ops (release : ReleaseTrace server response) {event : Event}
    (hevent : event ∈ release.front) : Preliminary event.call.op := by
  have hcall : event.call ∈ preamble release.cred release.req :=
    release.front_calls ▸ List.mem_map_of_mem hevent
  simp only [preamble, List.mem_cons, List.not_mem_nil, or_false] at hcall
  rcases hcall with hcall | hcall | hcall | hcall
  · exact hcall ▸ .setDeadline
  · exact hcall ▸ .isUnixConn
  · exact hcall ▸ .peerCred
  · exact hcall ▸ .decode

theorem idents_ops (release : ReleaseTrace server response) {event : Event}
    (hevent : event ∈ release.idents) :
    event.call.op = .identify release.cred.pid.toUInt32 := by
  have hcall := List.mem_map_of_mem (f := Event.call) hevent
  rcases release.idents_calls with hnone | ⟨identified, hone⟩
  · rw [hnone] at hcall
    cases hcall
  · rw [hone] at hcall
    rw [List.mem_singleton.1 hcall]

theorem tail_ops (release : ReleaseTrace server response) {event : Event}
    (hevent : event ∈ release.tail) :
    Reports event.call.op ∨ event.call.op = .reply response := by
  obtain ⟨names, replyErr, hcalls⟩ := release.tail_calls
  have hcall := List.mem_map_of_mem (f := Event.call) hevent
  rw [hcalls, issuedCalls] at hcall
  rcases List.mem_append.1 hcall with hissued | hreply
  · split_ifs at hissued
    · rw [List.mem_singleton.1 hissued]
      exact Or.inl (Or.inr rfl)
    · cases hissued
  · rw [List.mem_singleton.1 hreply]
    exact Or.inr rfl

theorem firstRead_protect (release : ReleaseTrace server response) :
    [release.firstRead, release.protect].Sublist release.events :=
  (((List.nil_sublist _).cons_cons _).cons_cons _).trans
    ((List.sublist_append_right _ _).trans (List.sublist_append_right _ _))

theorem protect_secondRead (release : ReleaseTrace server response) :
    [release.protect, release.secondRead].Sublist release.events :=
  (((((List.nil_sublist _).cons_cons _).cons _).cons_cons _).cons _).trans
    ((List.sublist_append_right _ _).trans (List.sublist_append_right _ _))

theorem ident_firstRead (release : ReleaseTrace server response) {event : Event}
    (hevent : event ∈ release.idents) :
    [event, release.firstRead].Sublist release.events := by
  apply List.Sublist.trans _ (List.sublist_append_right _ _)
  exact (List.singleton_sublist.2 hevent).append ((List.nil_sublist _).cons_cons _)

/-- The PID is identified or marked protected at no other events. -/
theorem mem_idents_or_eq (release : ReleaseTrace server response) {event : Event}
    (hevent : event ∈ release.events) {pid : UInt32}
    (hop : event.call.op = .identify pid ∨ event.call.op = .protectPID pid) :
    event ∈ release.idents ∨ event = release.protect := by
  simp only [events, List.mem_append, List.mem_cons] at hevent
  rcases hevent with hfront | hidents | rfl | rfl | rfl | rfl | htail
  · have hnone := (release.front_ops hfront).pidOf_eq
    rcases hop with hop | hop <;> simp [hop, pidOf] at hnone
  · exact Or.inl hidents
  · simp [release.firstRead_call] at hop
  · exact Or.inr rfl
  · simp [release.track_op] at hop
  · simp [release.secondRead_call] at hop
  · rcases release.tail_ops htail with hreport | hreply
    · rcases hop with hop | hop <;> simp [Reports, hop] at hreport
    · simp [hreply] at hop

/-- The first start-time read is the one that opens the handshake. -/
theorem find_firstRead (release : ReleaseTrace server response) :
    (release.events.find? fun event => isStartRead event.call.op) = some release.firstRead := by
  have hfront : (release.front.find? fun event => isStartRead event.call.op) = none := by
    rw [List.find?_eq_none]
    intro event hevent
    have hnone := (release.front_ops hevent).pidOf_eq
    cases hop : event.call.op <;> simp_all [isStartRead, pidOf]
  have hidents : (release.idents.find? fun event => isStartRead event.call.op) = none := by
    rw [List.find?_eq_none]
    intro event hevent
    simp [release.idents_ops hevent, isStartRead]
  have hread : isStartRead release.firstRead.call.op = true := by
    rw [release.firstRead_call]
    rfl
  rw [events, List.find?_append, List.find?_append, hfront, hidents]
  simp [hread]

end ReleaseTrace

/-- A connection that delivered secrets did so by such events. -/
theorem exists_releaseTrace (hsound : thread.Sound unicode server kernel born)
    (hactor : thread.actor = .connection peer) {response : Response}
    (hdelivered : Delivered thread response) (henv : response.env ≠ ∅) :
    ∃ release : ReleaseTrace server response, thread.trace = release.events := by
  obtain ⟨cred, req, before, start, protectErr, trackErr, names, replyErr, hcalls, hbefore, _⟩ :=
    calls_of_delivered hsound hactor hdelivered henv
  obtain ⟨fronts, tail, htrace, hfronts, htail⟩ := List.map_eq_append_iff.1 hcalls
  obtain ⟨openings, handshakes, rfl, hopenings, hhandshakes⟩ := List.map_eq_append_iff.1 hfronts
  obtain ⟨front, idents, rfl, hfront, rfl⟩ := List.map_eq_append_iff.1 hopenings
  obtain ⟨firstRead, afterRead, rfl, hfirstRead, hafterRead⟩ := List.map_eq_cons_iff.1 hhandshakes
  obtain ⟨protect, afterProtect, rfl, hprotect, hafterProtect⟩ :=
    List.map_eq_cons_iff.1 hafterRead
  obtain ⟨track, afterTrack, rfl, htrack, hafterTrack⟩ := List.map_eq_cons_iff.1 hafterProtect
  obtain ⟨secondRead, rest, rfl, hsecondRead, hrest⟩ := List.map_eq_cons_iff.1 hafterTrack
  obtain rfl := List.map_eq_nil_iff.1 hrest
  refine ⟨{
    cred := cred
    req := req
    start := start
    front := front
    idents := idents
    firstRead := firstRead
    protect := protect
    track := track
    secondRead := secondRead
    tail := tail
    front_calls := hfront
    idents_calls := hbefore
    firstRead_call := hfirstRead
    protect_op := congrArg Call.op hprotect
    track_op := congrArg Call.op htrack
    secondRead_call := hsecondRead
    tail_calls := ⟨names, replyErr, htail⟩ }, ?_⟩
  simpa [ReleaseTrace.events] using htrace

/-- A peer that held its PID at the first read holds it at the second, because
the two reads agree. -/
theorem live_secondRead (hsound : thread.Sound unicode server kernel born)
    (hactor : thread.actor = .connection peer) {response : Response}
    (release : ReleaseTrace server response) (htrace : thread.trace = release.events)
    (hheld : release.firstRead.kernel.Live peer) : release.secondRead.kernel.Live peer := by
  have hmem {event : Event} (hevent : event ∈ release.events) : event ∈ thread.trace :=
    htrace ▸ hevent
  have hread := table_of_read hsound hactor
    (hmem (by simp [ReleaseTrace.events])) release.firstRead_call
  have hreread := table_of_read hsound hactor
    (hmem (by simp [ReleaseTrace.events])) release.secondRead_call
  calc
    release.secondRead.kernel.table peer.pid = some release.start := hreread
    _ = release.firstRead.kernel.table peer.pid := hread.symm
    _ = some peer.start := hheld

end Sound

/-- In every reachable state and for every connection that delivered secrets:
the process that connected, the one whose cgroup was used for matching and the
one that was marked protected are the same exactly when the process that
connected still held its PID at the first start-time read. -/
theorem same_instance_iff {unicode : Unicode} {server : Server} {state : State}
    (hstate : (agent unicode server).Reachable System.Unrestricted state) {thread : Thread}
    (hthread : thread ∈ state.threads) {peer : Instance}
    (hactor : thread.actor = .connection peer) {response : Response}
    (hdelivered : Delivered thread response) (henv : response.env ≠ ∅) :
    SameInstance thread peer ↔ HeldAtFirstRead thread peer := by
  have hsound := (sound_of_reachable hstate).threads thread hthread
  obtain ⟨release, htrace⟩ := exists_releaseTrace hsound hactor hdelivered henv
  have hfirst : HeldAtFirstRead thread peer ↔ release.firstRead.kernel.Live peer := by
    rw [HeldAtFirstRead, htrace, release.find_firstRead]
    simp
  rw [hfirst]
  constructor
  · intro hsame
    have hprotect : release.protect ∈ thread.trace := by
      simp [htrace, ReleaseTrace.events]
    have hholder := hsame release.protect hprotect _
      (mem_subject_iff.2 (Or.inr release.protect_op))
    exact live_earlier hsound hactor (htrace ▸ release.firstRead_protect)
      (holder_eq_iff.1 hholder).2
  · intro hheld event hevent pid hsubject
    have hop := mem_subject_iff.1 hsubject
    have hpid : pid = peer.pid := by
      apply pid_eq_peer hsound hactor hevent
      rcases hop with hop | hop <;> simp [hop, pidOf]
    refine holder_eq_iff.2 ⟨hpid.symm, ?_⟩
    have hlast := live_secondRead hsound hactor release htrace hheld
    rw [htrace] at hevent
    rcases release.mem_idents_or_eq hevent hop with hident | rfl
    · exact live_earlier hsound hactor (htrace ▸ release.ident_firstRead hident) hheld
    · exact live_earlier hsound hactor (htrace ▸ release.protect_secondRead) hlast

/-! ## A schedule that redirects a release -/

/-- The process that connects, and the one that is given its PID. -/
def connecting : Instance := ⟨5, 1⟩

def successor : Instance := ⟨5, 2⟩

def tenantPod : Pod where
  uid := str "u"
  name := str "web"
  namespaceName := str "tenant"
  labels := ∅
  containers := ∅

def tenantServer : Server where
  cfg := { requireProtection := true, identifyCallers := true, requirePodIdentity := true }
  bindings :=
    [{ name := str "tenant"
       selector := { binary := str "node", namespaceName := str "tenant" }
       secrets := [⟨str "TOKEN", str "s3cr3t"⟩] }]

def tenantResponse : Response where
  ok := true
  env := environment [⟨str "TOKEN", str "s3cr3t"⟩]
  isProtected := true

/-- Every call succeeds, and PID 5 is held by a process of the tenant's pod that
was started at this time. -/
def answers (start : UInt64) : (op : Op) → op.Ans
  | .setDeadline | .protectPID _ | .trackPID _ | .unprotectPID _ | .reply _ => none
  | .isUnixConn => true
  | .peerCred => .ok ⟨5⟩
  | .decode => .ok ⟨str "node"⟩
  | .identify _ => ({ pod := some tenantPod }, none)
  | .processStartTime _ => .ok start
  | .onIssued _ _ | .onDenied _ _ => ()
  | .listProtectedPIDs => .ok [5]
  | .alive _ => true

/-- Answer that many calls of a thread. -/
def advances (count index : ℕ) (start : UInt64) : List Action :=
  List.replicate count (.advance index (answers start))

/-- The process stays until it has its secrets. -/
def undisturbed : List Action :=
  [.spawn connecting, .connect connecting] ++ advances 11 0 1

/-- The process exits after `peerCred`, and its PID is reused before the request
is decoded. -/
def redirection : List Action :=
  [.spawn connecting, .connect connecting] ++ advances 3 0 1 ++
    [.exit 5 false, .spawn successor] ++ advances 8 0 2

theorem undisturbed_same_instance :
    ∃ state, (agent Unicode.ascii tenantServer).Reachable System.Unrestricted state ∧
      ∃ thread ∈ state.threads, Delivered thread tenantResponse ∧
        SameInstance thread connecting := by
  obtain ⟨state, hstate, thread, hthread, hactor, hdelivered, hheld⟩ :
      ∃ state, (agent Unicode.ascii tenantServer).Reachable System.Unrestricted state ∧
        ∃ thread ∈ state.threads, thread.actor = .connection connecting ∧
          Delivered thread tenantResponse ∧ HeldAtFirstRead thread connecting :=
    System.exists_reachable undisturbed (by decide +kernel)
  have hsame := same_instance_iff hstate hthread hactor hdelivered (by decide)
  exact ⟨state, hstate, thread, hthread, hdelivered, hsame.2 hheld⟩

/-- A process that exits once its PID is known is sent the secrets of the
process that its PID is given to. -/
theorem release_redirected :
    ∃ state, (agent Unicode.ascii tenantServer).Reachable System.Unrestricted state ∧
      ∃ thread ∈ state.threads, thread.actor = .connection connecting ∧
        Delivered thread tenantResponse ∧ tenantResponse.env ≠ ∅ ∧
          ¬ SameInstance thread connecting :=
  System.exists_reachable redirection (by decide +kernel)

end KernelSeal.PidReuse

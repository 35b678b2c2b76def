import KernelSeal.Core.Layout
import KernelSeal.Go.Text

/-!
# Ring-buffer events

The BPF programs write the structures of `bpf/kernelseal_common.h` into the ring
buffers; the agent decodes the samples into the structures of
`internal/types/events.go` with `encoding/binary`.  The C compiler aligns the
members and the Go reader does not, so the two sides agree only because the Go
structures spell the padding out.
-/

namespace KernelSeal.Events

open KernelSeal.Text
open KernelSeal.Layout

/-- A fixed buffer of C characters. -/
abbrev Chars (length : ℕ) := Fin length → Byte

/-! ## The C structures -/

/-- `struct ks_exec_event`. -/
structure KsExecEvent where
  timestamp : UInt64
  pid : UInt32
  tid : UInt32
  ppid : UInt32
  uid : UInt32
  gid : UInt32
  cgroupId : UInt64
  eventType : UInt8
  reserved : Chars 3
  comm : Chars 16
  filename : Chars 256

/-- `struct ks_lsm_event`. -/
structure KsLsmEvent where
  timestamp : UInt64
  pid : UInt32
  tid : UInt32
  uid : UInt32
  targetPid : UInt32
  eventType : UInt8
  accessType : UInt8
  reserved : Chars 2
  comm : Chars 16
  path : Chars 256

def KsExecEvent.members (event : KsExecEvent) : List Member :=
  [.u64 event.timestamp, .u32 event.pid, .u32 event.tid, .u32 event.ppid, .u32 event.uid,
    .u32 event.gid, .u64 event.cgroupId, .u8 event.eventType, .array event.reserved,
    .array event.comm, .array event.filename]

def KsLsmEvent.members (event : KsLsmEvent) : List Member :=
  [.u64 event.timestamp, .u32 event.pid, .u32 event.tid, .u32 event.uid, .u32 event.targetPid,
    .u8 event.eventType, .u8 event.accessType, .array event.reserved, .array event.comm,
    .array event.path]

/-- The submitted record, over memory that held `stale`. -/
def KsExecEvent.sample (event : KsExecEvent) (stale : ℕ → Byte) : GoString :=
  structBytes stale event.members

def KsLsmEvent.sample (event : KsLsmEvent) (stale : ℕ → Byte) : GoString :=
  structBytes stale event.members

/-! ## The Go structures -/

/-- `types.ExecEvent`. -/
structure ExecEvent where
  timestamp : UInt64
  pid : UInt32
  tid : UInt32
  ppid : UInt32
  uid : UInt32
  gid : UInt32
  pad0 : UInt32
  cgroupID : UInt64
  eventType : UInt8
  pad1 : Chars 3
  comm : Chars 16
  filename : Chars 256

/-- `types.LSMEvent`; its blank field holds nothing. -/
structure LSMEvent where
  timestamp : UInt64
  pid : UInt32
  tid : UInt32
  uid : UInt32
  targetPID : UInt32
  eventType : UInt8
  accessType : UInt8
  comm : Chars 16
  path : Chars 256

def decodeExecEvent : Decoder ExecEvent := do
  let timestamp ← uint64
  let pid ← uint32
  let tid ← uint32
  let ppid ← uint32
  let uid ← uint32
  let gid ← uint32
  let pad0 ← uint32
  let cgroupID ← uint64
  let eventType ← uint8
  let pad1 ← array 3
  let comm ← array 16
  let filename ← array 256
  pure { timestamp, pid, tid, ppid, uid, gid, pad0, cgroupID, eventType, pad1, comm, filename }

def decodeLSMEvent : Decoder LSMEvent := do
  let timestamp ← uint64
  let pid ← uint32
  let tid ← uint32
  let uid ← uint32
  let targetPID ← uint32
  let eventType ← uint8
  let accessType ← uint8
  skip 2
  let comm ← array 16
  let path ← array 256
  pure { timestamp, pid, tid, uid, targetPID, eventType, accessType, comm, path }

/-- `binary.Read` of an exec event; the structure has 316 bytes when packed. -/
def readExecEvent (sample : GoString) : Except ReadError ExecEvent :=
  read 316 decodeExecEvent sample

/-- `binary.Read` of an LSM event; the structure has 300 bytes when packed. -/
def readLSMEvent (sample : GoString) : Except ReadError LSMEvent :=
  read 300 decodeLSMEvent sample

/-- `cStringToGo`. -/
def cStringToGo (buffer : GoString) : GoString :=
  match buffer.findIdx? (· = 0) with
  | some index => buffer.take index
  | none => buffer

def ExecEvent.getComm (event : ExecEvent) : GoString := cStringToGo (List.ofFn event.comm)

def ExecEvent.getFilename (event : ExecEvent) : GoString := cStringToGo (List.ofFn event.filename)

def LSMEvent.getComm (event : LSMEvent) : GoString := cStringToGo (List.ofFn event.comm)

def LSMEvent.getPath (event : LSMEvent) : GoString := cStringToGo (List.ofFn event.path)

/-! ## What the exec monitor writes -/

/-- What the helpers report about the current task.  The parent is absent if it
could not be read. -/
structure Current where
  pidTgid : UInt64
  uidGid : UInt64
  cgroupId : UInt64
  now : UInt64
  parentPid : Option UInt32
  comm : Chars 16

/-- The thread group leader. -/
def Current.pid (current : Current) : UInt32 := (current.pidTgid >>> 32).toUInt32

/-- The thread. -/
def Current.tid (current : Current) : UInt32 := current.pidTgid.toUInt32

/-- The members that all handlers write alike. -/
def KsExecEvent.fill (reserved : KsExecEvent) (current : Current) (eventType : UInt8)
    (ppid : UInt32) : KsExecEvent :=
  { reserved with
    timestamp := current.now
    pid := current.pid
    tid := current.tid
    uid := (current.uidGid &&& 0xFFFFFFFF).toUInt32
    gid := (current.uidGid >>> 32).toUInt32
    cgroupId := current.cgroupId
    eventType
    ppid
    comm := current.comm }

/-- `KS_EVENT_EXEC`. -/
def eventExec : UInt8 := 1

/-- `KS_EVENT_EXIT`. -/
def eventExit : UInt8 := 2

/-- `bpf_probe_read_user_str`: as much of the text as fits, with a NUL after it; a
text that cannot be read leaves zeros. -/
def probeReadUserStr {length : ℕ} (buffer : Chars length) : Option GoString → Chars length
  | none => fun _ => 0
  | some text => fun index =>
      let copied := (text.takeWhile (· ≠ 0)).take (length - 1)
      if index.val < copied.length then copied.getD index 0
      else if index.val = copied.length then 0
      else buffer index

/-- The event of `handle_sys_enter_execve`; `argument` is absent if the file name is
a null pointer, and its text is if the memory is not there. -/
def KsExecEvent.fillExecve (reserved : KsExecEvent) (current : Current)
    (argument : Option (Option GoString)) : KsExecEvent :=
  { reserved.fill current eventExec (current.parentPid.getD 0) with
    filename :=
      match argument with
      | none => fun index => if index.val = 0 then 0 else reserved.filename index
      | some text => probeReadUserStr reserved.filename text }

/-- The event of `handle_sched_process_exec`, written over the reserved record:
the command name and a final NUL are copied into the front of the file name. -/
def KsExecEvent.fillSchedExec (reserved : KsExecEvent) (current : Current) : KsExecEvent :=
  { reserved.fill current eventExec (current.parentPid.getD 0) with
    filename := fun index =>
      if hindex : index.val < 15 then current.comm ⟨index, by omega⟩
      else if index.val = 15 then 0
      else reserved.filename index }

/-- The event of `handle_sched_process_exit`. -/
def KsExecEvent.fillExit (reserved : KsExecEvent) (current : Current) : KsExecEvent :=
  { reserved.fill current eventExit 0 with
    filename := fun index => if index.val = 0 then 0 else reserved.filename index }

/-! ## Decoding a sample -/

/-- Every member with a meaning was decoded. -/
structure ExecEvent.Recovers (decoded : ExecEvent) (event : KsExecEvent) : Prop where
  timestamp : decoded.timestamp = event.timestamp
  pid : decoded.pid = event.pid
  tid : decoded.tid = event.tid
  ppid : decoded.ppid = event.ppid
  uid : decoded.uid = event.uid
  gid : decoded.gid = event.gid
  cgroupID : decoded.cgroupID = event.cgroupId
  eventType : decoded.eventType = event.eventType
  comm : decoded.comm = event.comm
  filename : decoded.filename = event.filename

structure LSMEvent.Recovers (decoded : LSMEvent) (event : KsLsmEvent) : Prop where
  timestamp : decoded.timestamp = event.timestamp
  pid : decoded.pid = event.pid
  tid : decoded.tid = event.tid
  uid : decoded.uid = event.uid
  targetPID : decoded.targetPID = event.targetPid
  eventType : decoded.eventType = event.eventType
  accessType : decoded.accessType = event.accessType
  comm : decoded.comm = event.comm
  path : decoded.path = event.path

theorem KsExecEvent.place_members (event : KsExecEvent) (stale : ℕ → Byte) :
    place stale 0 event.members =
      leBytes 8 event.timestamp.toNat ++ (leBytes 4 event.pid.toNat ++
      (leBytes 4 event.tid.toNat ++ (leBytes 4 event.ppid.toNat ++ (leBytes 4 event.uid.toNat ++
      (leBytes 4 event.gid.toNat ++ (gap stale 28 4 ++ (leBytes 8 event.cgroupId.toNat ++
      (leBytes 1 event.eventType.toNat ++ (List.ofFn event.reserved ++ (List.ofFn event.comm ++
      (List.ofFn event.filename ++ []))))))))))) := by
  simp only [KsExecEvent.members, place_u64, place_u32, place_u8, place_array, place_nil, padding,
    Nat.reduceMod, Nat.reduceSub, Nat.reduceAdd, gap_zero, List.nil_append]

theorem KsLsmEvent.place_members (event : KsLsmEvent) (stale : ℕ → Byte) :
    place stale 0 event.members =
      leBytes 8 event.timestamp.toNat ++ (leBytes 4 event.pid.toNat ++
      (leBytes 4 event.tid.toNat ++ (leBytes 4 event.uid.toNat ++
      (leBytes 4 event.targetPid.toNat ++ (leBytes 1 event.eventType.toNat ++
      (leBytes 1 event.accessType.toNat ++ (List.ofFn event.reserved ++ (List.ofFn event.comm ++
      (List.ofFn event.path ++ []))))))))) := by
  simp only [KsLsmEvent.members, place_u64, place_u32, place_u8, place_array, place_nil, padding,
    Nat.reduceMod, Nat.reduceSub, Nat.reduceAdd, gap_zero, List.nil_append]

/-- The packed Go structure ends before the trailing padding of the C one. -/
theorem readExecEvent_sample (event : KsExecEvent) (stale : ℕ → Byte) (extra : GoString) :
    ∃ decoded, readExecEvent (event.sample stale ++ extra) = .ok decoded ∧
      decoded.Recovers event := by
  have hlength : (place stale 0 event.members).length = 316 := by
    rw [event.place_members]
    simp only [List.length_append, length_leBytes, length_gap, List.length_ofFn, List.length_nil]
  refine ⟨(decodeExecEvent (place stale 0 event.members)).1, ?_, ?_⟩
  · rw [readExecEvent, KsExecEvent.sample, structBytes, List.append_assoc,
      read_append _ decodeExecEvent hlength]
  · rw [event.place_members]
    constructor <;> simp only [decodeExecEvent, bind_apply, pure_apply, uint64_leBytes,
      uint32_leBytes, uint32_gap, uint8_leBytes, array_ofFn]

theorem readLSMEvent_sample (event : KsLsmEvent) (stale : ℕ → Byte) (extra : GoString) :
    ∃ decoded, readLSMEvent (event.sample stale ++ extra) = .ok decoded ∧
      decoded.Recovers event := by
  have hlength : (place stale 0 event.members).length = 300 := by
    rw [event.place_members]
    simp only [List.length_append, length_leBytes, List.length_ofFn, List.length_nil]
  refine ⟨(decodeLSMEvent (place stale 0 event.members)).1, ?_, ?_⟩
  · rw [readLSMEvent, KsLsmEvent.sample, structBytes, List.append_assoc,
      read_append _ decodeLSMEvent hlength]
  · rw [event.place_members]
    constructor <;> simp only [decodeLSMEvent, bind_apply, pure_apply, uint64_leBytes,
      uint32_leBytes, uint8_leBytes, array_ofFn, skip_ofFn]

/-! ## Strings in buffers -/

/-- What follows the first NUL is not part of the string. -/
theorem cStringToGo_eq {buffer text stale : GoString} (hbuffer : buffer = text ++ 0 :: stale)
    (htext : 0 ∉ text) : cStringToGo buffer = text := by
  have hfront : text.findIdx? (· = 0) = none := by
    rw [List.findIdx?_eq_none_iff]
    intro byte hbyte
    exact decide_eq_false fun hzero => htext (hzero ▸ hbyte)
  have hindex : buffer.findIdx? (· = 0) = some text.length := by
    rw [hbuffer, List.findIdx?_append, hfront, List.findIdx?_cons]
    simp
  rw [cStringToGo, hindex, hbuffer]
  exact List.take_left

/-- The command name with its NUL is copied into the file name whole. -/
theorem KsExecEvent.take_fillSchedExec_filename (reserved : KsExecEvent) (current : Current)
    {text stale : GoString} (hcomm : List.ofFn current.comm = text ++ 0 :: stale) :
    (List.ofFn (reserved.fillSchedExec current).filename).take (text.length + 1) =
      (List.ofFn current.comm).take (text.length + 1) := by
  have hlength := congrArg List.length hcomm
  rw [List.length_ofFn, List.length_append, List.length_cons] at hlength
  apply List.ext_getElem
  · simp only [List.length_take, List.length_ofFn]
    omega
  · intro index hfile hname
    simp only [List.length_take, List.length_ofFn] at hfile hname
    rw [List.getElem_take, List.getElem_take, List.getElem_ofFn, List.getElem_ofFn]
    by_cases hcopied : index < 15
    · exact dif_pos hcopied
    · have hlast : index = 15 := by omega
      have hzero : (List.ofFn current.comm)[15] = 0 := by
        simp only [hcomm]
        rw [List.getElem_append_right (by omega)]
        simp [show 15 - text.length = 0 by omega]
      subst hlast
      rw [List.getElem_ofFn] at hzero
      exact hzero.symm

theorem KsExecEvent.fillSchedExec_filename (reserved : KsExecEvent) (current : Current)
    {text stale : GoString} (hcomm : List.ofFn current.comm = text ++ 0 :: stale) :
    ∃ rest, List.ofFn (reserved.fillSchedExec current).filename = text ++ 0 :: rest := by
  refine ⟨(List.ofFn (reserved.fillSchedExec current).filename).drop (text.length + 1), ?_⟩
  calc List.ofFn (reserved.fillSchedExec current).filename
      = (List.ofFn current.comm).take (text.length + 1) ++
          (List.ofFn (reserved.fillSchedExec current).filename).drop (text.length + 1) := by
        rw [← reserved.take_fillSchedExec_filename current hcomm, List.take_append_drop]
    _ = _ := by
        rw [hcomm, List.take_length_add_append, List.append_assoc]
        rfl

/-- Every event that is laid out by the C compiler is decoded with all its members,
and the strings in its buffers end at their first NUL. -/
theorem events_round_trip :
    (∀ (event : KsExecEvent) (stale : ℕ → Byte) (extra : GoString), ∃ decoded,
      readExecEvent (event.sample stale ++ extra) = .ok decoded ∧ decoded.Recovers event) ∧
    (∀ (event : KsLsmEvent) (stale : ℕ → Byte) (extra : GoString), ∃ decoded,
      readLSMEvent (event.sample stale ++ extra) = .ok decoded ∧ decoded.Recovers event) ∧
    (∀ (event : ExecEvent) (text stale : GoString), 0 ∉ text →
      (List.ofFn event.comm = text ++ 0 :: stale → event.getComm = text) ∧
      (List.ofFn event.filename = text ++ 0 :: stale → event.getFilename = text)) ∧
    (∀ (event : LSMEvent) (text stale : GoString), 0 ∉ text →
      (List.ofFn event.comm = text ++ 0 :: stale → event.getComm = text) ∧
      (List.ofFn event.path = text ++ 0 :: stale → event.getPath = text)) ∧
    (∀ (reserved : KsExecEvent) (current : Current) (stale : ℕ → Byte)
      (text rest extra : GoString), 0 ∉ text → List.ofFn current.comm = text ++ 0 :: rest →
      ∃ decoded,
        readExecEvent ((reserved.fillSchedExec current).sample stale ++ extra) = .ok decoded ∧
        decoded.getComm = text ∧ decoded.getFilename = text) := by
  refine ⟨readExecEvent_sample, readLSMEvent_sample, ?_, ?_, ?_⟩
  · intro event text stale htext
    exact ⟨fun hcomm => cStringToGo_eq hcomm htext,
      fun hfilename => cStringToGo_eq hfilename htext⟩
  · intro event text stale htext
    exact ⟨fun hcomm => cStringToGo_eq hcomm htext, fun hpath => cStringToGo_eq hpath htext⟩
  · intro reserved current stale text rest extra htext hcomm
    obtain ⟨decoded, hread, hrecovers⟩ :=
      readExecEvent_sample (reserved.fillSchedExec current) stale extra
    obtain ⟨after, hfilename⟩ := reserved.fillSchedExec_filename current hcomm
    refine ⟨decoded, hread, ?_, ?_⟩
    · rw [ExecEvent.getComm, hrecovers.comm]
      exact cStringToGo_eq hcomm htext
    · rw [ExecEvent.getFilename, hrecovers.filename]
      exact cStringToGo_eq hfilename htext

/-- A task that just executed `psql`. -/
def psqlTask : Current where
  pidTgid := 0x0000002A0000002A
  uidGid := 0x000003E8000003E8
  cgroupId := 7
  now := 1000
  parentPid := some 1
  comm := fun index => (str "psql").getD index 0

/-- A record reserved over the remains of another. -/
def staleRecord : KsExecEvent where
  timestamp := 1
  pid := 2
  tid := 3
  ppid := 4
  uid := 5
  gid := 6
  cgroupId := 7
  eventType := 2
  reserved := fun _ => 0xAA
  comm := fun _ => 0xAA
  filename := fun _ => 0xAA

/-- The remains of the other record do not reach the file name. -/
theorem psql_decoded :
    0 ∉ str "psql" ∧ List.ofFn psqlTask.comm = str "psql" ++ 0 :: List.replicate 11 0 ∧
    ∃ decoded,
      readExecEvent ((staleRecord.fillSchedExec psqlTask).sample (fun _ => 0xAA) ++ []) =
        .ok decoded ∧ decoded.getComm = str "psql" ∧ decoded.getFilename = str "psql" := by
  have hname : 0 ∉ str "psql" := by
    decide
  have hcomm : List.ofFn psqlTask.comm = str "psql" ++ 0 :: List.replicate 11 0 := by
    decide
  exact ⟨hname, hcomm, events_round_trip.2.2.2.2 staleRecord psqlTask (fun _ => 0xAA)
    (str "psql") (List.replicate 11 0) [] hname hcomm⟩

end KernelSeal.Events

import KernelSeal.Go.Scanning
import KernelSeal.Server.Delivery

/-!
# The start time of a process

The agent tells a process from a later one with its PID by the start time, which it
reads from `/proc/<pid>/stat`.  The line has the name of the process in its second
field, as the process chose it and without escapes.  Behind the last parenthesis the
line is regular, so that no name makes the agent read another field.
-/

namespace KernelSeal.StartTime

open KernelSeal.Text
open KernelSeal.Utf8
open KernelSeal.Scanning
open KernelSeal.Delivery (GoError agrees)

/-! ## Reading -/

/-- The path of the line. -/
def statPath (pid : UInt32) : GoString := str "/proc/" ++ decimal pid.toNat ++ str "/stat"

/-- `)`. -/
def closing : Byte := 41

/-- Field 3 is the first after the name. -/
def startTimeIndex : ℕ := 22 - 3

/-- `processStartTime` on the contents of the file. -/
def parseStat (unicode : Unicode) (pid : UInt32) (data : GoString) : UInt64 × Option GoError :=
  match lastIndexByte data closing with
  | none => (0, some (str "malformed " ++ statPath pid))
  | some position =>
      if data.length ≤ position + 2 then (0, some (str "malformed " ++ statPath pid))
      else
        let found := fields (data.drop (position + 2))
        if found.length ≤ startTimeIndex then
          (0, some (statPath pid ++ str " has " ++ decimal found.length ++
            str " fields after comm, need " ++ decimal (startTimeIndex + 1)))
        else parseUint unicode (found.getD startTimeIndex [])

/-- `processStartTime`. -/
def processStartTime (unicode : Unicode) (readFile : GoString → Except GoError GoString)
    (pid : UInt32) : UInt64 × Option GoError :=
  match readFile (statPath pid) with
  | .error err => (0, some err)
  | .ok data => parseStat unicode pid data

/-- What the caller of `processStartTime` goes on with. -/
def startTime (unicode : Unicode) (readFile : GoString → Except GoError GoString)
    (pid : UInt32) : Except GoError UInt64 :=
  match processStartTime unicode readFile pid with
  | (number, none) => .ok number
  | (_, some err) => .error err

/-! ## The line -/

/-- The line of a process with this name and these fields after it. -/
def statLine (pid : UInt32) (comm : GoString) (parts : List GoString) : GoString :=
  decimal pid.toNat ++ str " (" ++ comm ++ str ") " ++ join parts [32] ++ [10]

/-- What may stand in a field after the name. -/
structure IsField (part : GoString) : Prop where
  ne_nil : part ≠ []
  unspaced : Unspaced part
  unclosed : closing ∉ part

section Line

variable (unicode : Unicode) (pid : UInt32) (comm : GoString) {parts : List GoString}

/-- The last parenthesis is the one after the name, whatever the name is. -/
theorem parseStat_statLine (hparts : ∀ part ∈ parts, IsField part) :
    parseStat unicode pid (statLine pid comm parts) =
      if parts.length ≤ startTimeIndex then
        (0, some (statPath pid ++ str " has " ++ decimal parts.length ++
          str " fields after comm, need " ++ decimal (startTimeIndex + 1)))
      else parseUint unicode (parts.getD startTimeIndex []) := by
  set front := decimal pid.toNat ++ str " (" ++ comm with hfront
  set line := join parts [32] ++ [10] with hline
  have hstat : statLine pid comm parts = front ++ closing :: 32 :: line := by
    have hclosed : str ") " = [closing, 32] := by decide
    rw [statLine, ← hfront, List.append_assoc, ← hline, hclosed]
    simp
  have hunclosed : closing ∉ 32 :: line := by
    have hjoined : closing ∉ join parts [32] :=
      notMem_join (fun part hpart => (hparts part hpart).unclosed) (by decide)
    rw [List.mem_cons, hline, List.mem_append, not_or, not_or]
    exact ⟨by decide, hjoined, by decide⟩
  have hlength : ¬ (front ++ closing :: 32 :: line).length ≤ front.length + 2 := by
    simp [hline]
  have hrest : (front ++ closing :: 32 :: line).drop (front.length + 2) = line := by
    rw [List.drop_append]
    simp
  have hfields : fields line = parts :=
    fields_line fun part hpart => ⟨(hparts part hpart).ne_nil, (hparts part hpart).unspaced⟩
  rw [hstat, parseStat, lastIndexByte_append hunclosed]
  simp only [if_neg hlength, hrest, hfields]

/-- A file without a parenthesis is refused. -/
theorem parseStat_of_notMem {data : GoString} (hdata : closing ∉ data) :
    parseStat unicode pid data = (0, some (str "malformed " ++ statPath pid)) := by
  rw [parseStat, lastIndexByte_eq_none hdata]

end Line

section Reads

variable {unicode : Unicode} {readFile : GoString → Except GoError GoString} {pid : UInt32}
  {comm : GoString} {parts : List GoString}

/-- The twentieth field after the name is parsed, and nothing else of the line matters. -/
theorem processStartTime_eq (hparts : ∀ part ∈ parts, IsField part)
    (hread : readFile (statPath pid) = .ok (statLine pid comm parts)) {part : GoString}
    (hpart : parts[19]? = some part) :
    processStartTime unicode readFile pid = parseUint unicode part := by
  have hcount : ¬ parts.length ≤ startTimeIndex :=
    not_le.2 (List.getElem?_eq_some_iff.1 hpart).1
  have hfield : parts.getD startTimeIndex [] = part := by
    rw [List.getD_eq_getElem?_getD, show startTimeIndex = 19 from rfl, hpart]
    rfl
  rw [processStartTime, hread]
  simp only [parseStat_statLine unicode pid comm hparts, if_neg hcount, hfield]

theorem processStartTime_of_few (hparts : ∀ part ∈ parts, IsField part)
    (hread : readFile (statPath pid) = .ok (statLine pid comm parts))
    (hfew : parts.length < 20) :
    ∃ err, processStartTime unicode readFile pid = (0, some err) := by
  have hcount : parts.length ≤ startTimeIndex := Nat.le_of_lt_succ hfew
  rw [processStartTime, hread]
  simp only [parseStat_statLine unicode pid comm hparts, if_pos hcount]
  exact ⟨_, rfl⟩

end Reads

/-- The start time is the twentieth field after the name if this is a number of 64
bits, and otherwise there is an error.  With fewer fields or without a parenthesis there
is an error and no number. -/
theorem processStartTime_statLine (unicode : Unicode)
    (readFile : GoString → Except GoError GoString) (pid : UInt32) :
    (∀ comm parts, (∀ part ∈ parts, IsField part) →
      readFile (statPath pid) = .ok (statLine pid comm parts) →
      (∀ part, parts[19]? = some part →
        (∀ number, spelled part = some number → number < 2 ^ 64 →
          processStartTime unicode readFile pid = (UInt64.ofNat number, none)) ∧
        ((¬ ∃ number, spelled part = some number ∧ number < 2 ^ 64) →
          (processStartTime unicode readFile pid).2 ≠ none)) ∧
      (parts.length < 20 → ∃ err, processStartTime unicode readFile pid = (0, some err))) ∧
    ∀ data, readFile (statPath pid) = .ok data → closing ∉ data →
      ∃ err, processStartTime unicode readFile pid = (0, some err) := by
  constructor
  · intro comm parts hparts hread
    refine ⟨fun part hpart => ?_, processStartTime_of_few hparts hread⟩
    rw [processStartTime_eq hparts hread hpart]
    constructor
    · intro number hspelled hnumber
      rw [parseUint_eq_iff, UInt64.toNat_ofNat_of_lt' hnumber]
      exact hspelled
    · intro hnone
      refine parseUint_snd_ne_none fun number hspelled => ?_
      exact not_lt.1 fun hnumber => hnone ⟨number, hspelled, hnumber⟩
  · intro data hread hdata
    rw [processStartTime, hread]
    exact ⟨_, parseStat_of_notMem unicode pid hdata⟩

/-- Fields of a line with a start time in the last one. -/
def sampleParts : List GoString := List.replicate 19 (str "0") ++ [str "8913"]

theorem isField_of_mem_sampleParts : ∀ part ∈ sampleParts, IsField part := by
  intro part hpart
  have hcases : part = str "0" ∨ part = str "8913" := by simpa [sampleParts] using hpart
  rcases hcases with rfl | rfl
  · exact ⟨by decide, by decide +kernel, by decide⟩
  · exact ⟨by decide, by decide +kernel, by decide⟩

/-- A process that closes the parenthesis itself and goes on with fields of its own. -/
theorem processStartTime_disguised :
    processStartTime Unicode.ascii
      (fun _ => .ok (statLine 7 (str "sh) R 1 1\n(") sampleParts)) 7 = (8913, none) :=
  ((processStartTime_statLine Unicode.ascii
    (fun _ => .ok (statLine 7 (str "sh) R 1 1\n(") sampleParts)) 7).1 _ _
      isField_of_mem_sampleParts rfl).1 (str "8913") rfl |>.1 8913 (by decide +kernel) (by decide)

/-! ## Recycled PIDs -/

section Recycled

variable {unicode : Unicode} {readFile : GoString → Except GoError GoString} {pid : UInt32}
  {comm : GoString} {parts : List GoString} {part : GoString} {number : ℕ}

theorem startTime_eq_ok (hparts : ∀ part ∈ parts, IsField part)
    (hread : readFile (statPath pid) = .ok (statLine pid comm parts))
    (hpart : parts[19]? = some part) (hspelled : spelled part = some number)
    (hnumber : number < 2 ^ 64) :
    startTime unicode readFile pid = .ok (UInt64.ofNat number) := by
  have hparsed : parseUint unicode part = (UInt64.ofNat number, none) := by
    rw [parseUint_eq_iff, UInt64.toNat_ofNat_of_lt' hnumber]
    exact hspelled
  rw [startTime, processStartTime_eq hparts hread hpart, hparsed]

/-- The second read agrees with the first if and only if the line has the start time
that it had.  A process that has changed its name in between is the same one. -/
theorem agrees_startTime_iff {start : ℕ} (hstart : start < 2 ^ 64)
    (hparts : ∀ part ∈ parts, IsField part)
    (hread : readFile (statPath pid) = .ok (statLine pid comm parts))
    (hpart : parts[19]? = some part) (hspelled : spelled part = some number)
    (hnumber : number < 2 ^ 64) :
    agrees (UInt64.ofNat start) (startTime unicode readFile pid) = true ↔ number = start := by
  rw [startTime_eq_ok hparts hread hpart hspelled hnumber, agrees, decide_eq_true_iff,
    ← UInt64.toNat_inj, UInt64.toNat_ofNat_of_lt' hnumber, UInt64.toNat_ofNat_of_lt' hstart]

end Recycled

end KernelSeal.StartTime

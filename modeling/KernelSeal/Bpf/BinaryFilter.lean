import KernelSeal.Bpf.ExecMonitor
import KernelSeal.Policy.Loader
import Mathlib.Data.List.DropRight
import Mathlib.Data.List.GetD

/-!
# The keys of the exec filter

The agent writes the configured binaries into a map of the exec monitor, and the
monitor looks up the command name of a process that has executed a file.  Both take
names to be sixteen bytes.  The kernel keeps the last of them for a NUL and the agent
does not, so a name that fills the key is never looked up.
-/

namespace KernelSeal.BinaryFilter

open KernelSeal.Text
open KernelSeal.Delivery (GoError)
open KernelSeal.Loader
open KernelSeal.Resumption
open KernelSeal.Resumption.Prog
open KernelSeal.Events
open KernelSeal.ExecMonitor

/-! ## The loader -/

/-- What a write to a map meets: the exec monitor may not be loaded, and the system
call may fail. -/
structure Attempt where
  loaded : Bool := true
  fault : Option GoError := none

/-- A write to the maps of the exec monitor. -/
def writeMap (attempt : Attempt) (failure : GoString) (write : Filters → Filters)
    (filters : Filters) : Option GoError × Filters :=
  if attempt.loaded then
    match attempt.fault with
    | some err => (some (failure ++ str ": " ++ err), filters)
    | none => (none, write filters)
  else (some (str "exec monitor not loaded"), filters)

/-- The key that the loader makes of a name: `copy` into sixteen zero bytes. -/
def binaryKey (binaryName : GoString) : Chars 16 := fun index => binaryName.getD index 0

/-- `(*Manager).AddTargetBinary`. -/
def addTargetBinary (attempt : Attempt) (binaryName : GoString) :
    Filters → Option GoError × Filters :=
  writeMap attempt (str "failed to add target binary " ++ binaryName) fun filters =>
    { filters with
      targetBinaries :=
        Function.update filters.targetBinaries (binaryKey binaryName) (some 1) }

/-- `(*Manager).RemoveTargetBinary`. -/
def removeTargetBinary (attempt : Attempt) (binaryName : GoString) :
    Filters → Option GoError × Filters :=
  writeMap attempt (str "failed to remove target binary " ++ binaryName) fun filters =>
    { filters with
      targetBinaries := Function.update filters.targetBinaries (binaryKey binaryName) none }

/-- `(*Manager).EnableBinaryFilter`. -/
def enableBinaryFilter (attempt : Attempt) (enabled : Bool) :
    Filters → Option GoError × Filters :=
  writeMap attempt (str "failed to set binary filter") fun filters =>
    { filters with binaryFilterEnabled := some (if enabled then 1 else 0) }

/-- One round of `GetTargetBinaries`.  What was seen is what is in the list. -/
def collectBinary (binaries : List GoString) (binding : SecretBinding) : List GoString :=
  if binding.selector.binary ≠ [] ∧ binding.selector.binary ∉ binaries then
    binaries ++ [binding.selector.binary]
  else binaries

/-- `(*PolicyManager).GetTargetBinaries`. -/
def getTargetBinaries (config : KernelSealConfig) : List GoString :=
  config.secrets.foldl collectBinary []

/-- The loop of `configureBinaryFilter`; a name that cannot be added is only logged. -/
def addTargetBinaries (attempts : GoString → Attempt) (targetBinaries : List GoString)
    (filters : Filters) : Filters :=
  targetBinaries.foldl
    (fun filters binary => (addTargetBinary (attempts binary) binary filters).2) filters

/-- `configureBinaryFilter`; `enabled` is the switch `kernelBinaryFilter`. -/
def configureBinaryFilter (enabled : Bool) (config : KernelSealConfig)
    (attempts : GoString → Attempt) (enabling : Attempt) (filters : Filters) : Filters :=
  let targetBinaries := getTargetBinaries config
  if !enabled then filters
  else if targetBinaries = [] then filters
  else (enableBinaryFilter enabling true (addTargetBinaries attempts targetBinaries filters)).2

/-- The write is made. -/
def Attempt.Succeeds (attempt : Attempt) : Prop := attempt.loaded = true ∧ attempt.fault = none

instance : DecidablePred Attempt.Succeeds := fun _ => inferInstanceAs (Decidable (_ ∧ _))

section Writes

variable {attempt : Attempt} {failure : GoString} {write : Filters → Filters}
  {filters written : Filters}

theorem writeMap_of_succeeds (hattempt : attempt.Succeeds) :
    writeMap attempt failure write filters = (none, write filters) := by
  rw [writeMap, if_pos hattempt.1, hattempt.2]

/-- A write that fails changes nothing and says so. -/
theorem writeMap_of_not_succeeds (hattempt : ¬ attempt.Succeeds) :
    (writeMap attempt failure write filters).1 ≠ none ∧
      (writeMap attempt failure write filters).2 = filters := by
  rw [writeMap]
  split
  · rename_i hloaded
    cases hfault : attempt.fault with
    | none => exact absurd ⟨hloaded, hfault⟩ hattempt
    | some err => simp
  · simp

theorem eq_of_writeMap (hwritten : writeMap attempt failure write filters = (none, written)) :
    written = write filters := by
  by_cases hattempt : attempt.Succeeds
  · rw [writeMap_of_succeeds hattempt] at hwritten
    exact (Prod.ext_iff.1 hwritten).2.symm
  · exact absurd (Prod.ext_iff.1 hwritten).1 (writeMap_of_not_succeeds hattempt).1

end Writes

/-! ## The kernel's name for a process -/

/-- The file name in an executed path. -/
def kbasename (path : GoString) : GoString := path.rtakeWhile (· ≠ slash)

/-- The command name after `execve`: as much of the file name as leaves room for a
NUL, and NULs after it. -/
def execComm (path : GoString) : Chars 16 := fun index => ((kbasename path).take 15).getD index 0

/-- Texts without NULs that are equal after padding are equal. -/
theorem eq_of_getD_zero {left right : GoString} (hleft : (0 : Byte) ∉ left)
    (hright : (0 : Byte) ∉ right) (hsame : ∀ index, left.getD index 0 = right.getD index 0) :
    left = right := by
  apply List.ext_getElem?
  intro index
  have hindex := hsame index
  rw [List.getD_eq_getElem?_getD, List.getD_eq_getElem?_getD] at hindex
  cases hfirst : left[index]? with
  | none =>
      cases hsecond : right[index]? with
      | none => rfl
      | some byte =>
          rw [hfirst, hsecond] at hindex
          obtain rfl : 0 = byte := hindex
          exact absurd (List.mem_of_getElem? hsecond) hright
  | some byte =>
      cases hsecond : right[index]? with
      | none =>
          rw [hfirst, hsecond] at hindex
          obtain rfl : byte = 0 := hindex
          exact absurd (List.mem_of_getElem? hfirst) hleft
      | some other =>
          rw [hfirst, hsecond] at hindex
          exact congrArg some hindex

/-- The two sides use one key for names of at most fifteen bytes only. -/
theorem binaryKey_eq_execComm_iff {binaryName path : GoString} (hname : (0 : Byte) ∉ binaryName)
    (hpath : (0 : Byte) ∉ kbasename path) :
    binaryKey binaryName = execComm path ↔ binaryName = (kbasename path).take 15 := by
  constructor
  · intro hkey
    have hcomm : (0 : Byte) ∉ (kbasename path).take 15 := fun hzero =>
      hpath (List.mem_of_mem_take hzero)
    have hlength : ((kbasename path).take 15).length ≤ 15 := List.length_take_le _ _
    have hlast : binaryName.getD 15 0 = 0 := by
      calc binaryName.getD 15 0 = ((kbasename path).take 15).getD 15 0 := congrFun hkey 15
        _ = 0 := List.getD_eq_default _ _ hlength
    have hshort : binaryName.length ≤ 15 := by
      by_contra hlong
      rw [List.getD_eq_getElem _ _ (not_le.1 hlong)] at hlast
      exact hname (hlast ▸ List.getElem_mem _)
    apply eq_of_getD_zero hname hcomm
    intro index
    by_cases hindex : index < 16
    · exact congrFun hkey ⟨index, hindex⟩
    · rw [List.getD_eq_default _ _ (by omega), List.getD_eq_default _ _ (by omega)]
  · intro hbinary
    funext index
    rw [hbinary]
    rfl

/-! ## What is monitored -/

theorem shouldMonitorBinary_of_enabled {filters : Filters} {comm : Chars 16}
    (henabled : filters.binaryFilterEnabled = some 1) :
    shouldMonitorBinary filters comm = true ↔ filters.targetBinaries comm = some 1 := by
  simp [shouldMonitorBinary, henabled]

/-- After a name has been added and the filter enabled, the command name of a process
that has executed a file of this name is accepted if the name has at most fifteen
bytes; a longer one is only accepted if its first fifteen bytes were a target before.
Removing a name takes out the key that adding it put in. -/
theorem targetBinary_monitored_iff {adding enabling : Attempt} {binaryName path : GoString}
    {filters added enabled : Filters} (hname : (0 : Byte) ∉ binaryName)
    (hbase : kbasename path = binaryName)
    (hadd : addTargetBinary adding binaryName filters = (none, added))
    (henable : enableBinaryFilter enabling true added = (none, enabled)) :
    (shouldMonitorBinary enabled (execComm path) = true ↔
      binaryName.length ≤ 15 ∨ filters.targetBinaries (execComm path) = some 1) ∧
    ∃ key, added = { filters with
        targetBinaries := Function.update filters.targetBinaries key (some 1) } ∧
      ∀ removing later removed, removeTargetBinary removing binaryName later = (none, removed) →
        removed = { later with
          targetBinaries := Function.update later.targetBinaries key none } := by
  obtain rfl := eq_of_writeMap hadd
  obtain rfl := eq_of_writeMap henable
  refine ⟨?_, binaryKey binaryName, rfl, fun removing later removed hremove =>
    eq_of_writeMap hremove⟩
  rw [shouldMonitorBinary_of_enabled rfl]
  have hkey : binaryKey binaryName = execComm path ↔ binaryName.length ≤ 15 := by
    rw [binaryKey_eq_execComm_iff hname (hbase ▸ hname), hbase, eq_comm, List.take_eq_self_iff]
  by_cases hshort : binaryName.length ≤ 15
  · simp [hkey.2 hshort, hshort]
  · have hother : execComm path ≠ binaryKey binaryName := fun hsame => hshort (hkey.1 hsame.symm)
    simp [Function.update_of_ne hother, hshort]

/-- Nothing is a target yet. -/
def emptyFilters : Filters where
  cgroupFilterEnabled := some 0
  targetCgroups _ := none
  binaryFilterEnabled := some 0
  targetBinaries _ := none

/-- The filters of an agent that was told of one binary. -/
def filtersFor (binaryName : GoString) : Filters :=
  (enableBinaryFilter {} true (addTargetBinary {} binaryName emptyFilters).2).2

theorem postgres_monitored :
    shouldMonitorBinary (filtersFor (str "postgres-backup"))
      (execComm (str "/usr/bin/postgres-backup")) = true := by
  have hbase : kbasename (str "/usr/bin/postgres-backup") = str "postgres-backup" := by
    decide +kernel
  have hadd : addTargetBinary {} (str "postgres-backup") emptyFilters =
      (none, (addTargetBinary {} (str "postgres-backup") emptyFilters).2) := rfl
  have henable : enableBinaryFilter {} true
      (addTargetBinary {} (str "postgres-backup") emptyFilters).2 =
        (none, filtersFor (str "postgres-backup")) := rfl
  exact (targetBinary_monitored_iff (by decide +kernel) hbase hadd henable).1.2
    (Or.inl (by decide +kernel))

/-- A name of sixteen bytes fills the key, and the command name ends one byte earlier. -/
theorem payments_not_monitored :
    kbasename (str "/app/payments-service") = str "payments-service" ∧
      (addTargetBinary {} (str "payments-service") emptyFilters).1 = none ∧
      shouldMonitorBinary (filtersFor (str "payments-service"))
        (execComm (str "/app/payments-service")) = false := by
  decide +kernel

/-! ## What the agent configures -/

theorem mem_collectBinary {binaries : List GoString} {binding : SecretBinding}
    {binary : GoString} :
    binary ∈ collectBinary binaries binding ↔
      binary ∈ binaries ∨ binary ≠ [] ∧ binding.selector.binary = binary := by
  rw [collectBinary]
  split
  · grind
  · grind

theorem mem_foldl_collectBinary {secrets : List SecretBinding} {binaries : List GoString}
    {binary : GoString} :
    binary ∈ secrets.foldl collectBinary binaries ↔
      binary ∈ binaries ∨
        binary ≠ [] ∧ ∃ binding ∈ secrets, binding.selector.binary = binary := by
  induction secrets generalizing binaries with
  | nil => simp
  | cons binding secrets ih =>
      rw [List.foldl_cons, ih, mem_collectBinary, or_assoc, ← and_or_left,
        List.exists_mem_cons_iff]

theorem mem_getTargetBinaries {config : KernelSealConfig} {binary : GoString} :
    binary ∈ getTargetBinaries config ↔
      binary ≠ [] ∧ ∃ binding ∈ config.secrets, binding.selector.binary = binary := by
  rw [getTargetBinaries, mem_foldl_collectBinary]
  simp

theorem addTargetBinary_apply (attempt : Attempt) (binaryName : GoString) (filters : Filters)
    (comm : Chars 16) :
    (addTargetBinary attempt binaryName filters).2.targetBinaries comm = some 1 ↔
      filters.targetBinaries comm = some 1 ∨ attempt.Succeeds ∧ binaryKey binaryName = comm := by
  by_cases hattempt : attempt.Succeeds
  · rw [addTargetBinary, writeMap_of_succeeds hattempt]
    by_cases hkey : comm = binaryKey binaryName
    · simp [hkey, hattempt]
    · simp [Function.update_of_ne hkey, Ne.symm hkey]
  · rw [addTargetBinary, (writeMap_of_not_succeeds hattempt).2]
    simp [hattempt]

theorem addTargetBinaries_apply (attempts : GoString → Attempt) (targetBinaries : List GoString)
    (filters : Filters) (comm : Chars 16) :
    (addTargetBinaries attempts targetBinaries filters).targetBinaries comm = some 1 ↔
      filters.targetBinaries comm = some 1 ∨
        ∃ binary ∈ targetBinaries, (attempts binary).Succeeds ∧ binaryKey binary = comm := by
  induction targetBinaries generalizing filters with
  | nil => simp [addTargetBinaries]
  | cons binary targetBinaries ih =>
      have hstep : addTargetBinaries attempts (binary :: targetBinaries) filters =
          addTargetBinaries attempts targetBinaries
            (addTargetBinary (attempts binary) binary filters).2 := rfl
      rw [hstep, ih, addTargetBinary_apply, or_assoc, List.exists_mem_cons_iff]

/-- A configured filter lets through the processes whose command name is a configured
binary as a whole.  A binary of sixteen bytes or more is no command name. -/
theorem configureBinaryFilter_monitors_iff {config : KernelSealConfig}
    {attempts : GoString → Attempt} {enabling : Attempt} {path : GoString}
    (hpath : (0 : Byte) ∉ kbasename path)
    (hconfig : ∀ binding ∈ config.secrets, (0 : Byte) ∉ binding.selector.binary)
    (htargets : getTargetBinaries config ≠ []) (henabling : enabling.Succeeds)
    (hattempts : ∀ binary, (attempts binary).Succeeds) :
    shouldMonitorBinary (configureBinaryFilter true config attempts enabling emptyFilters)
        (execComm path) = true ↔
      ∃ binding ∈ config.secrets, binding.selector.binary ≠ [] ∧
        binding.selector.binary = (kbasename path).take 15 := by
  have hconfigured : configureBinaryFilter true config attempts enabling emptyFilters =
      { addTargetBinaries attempts (getTargetBinaries config) emptyFilters with
        binaryFilterEnabled := some 1 } := by
    simp only [configureBinaryFilter, enableBinaryFilter, writeMap_of_succeeds henabling]
    simp [htargets]
  rw [hconfigured, shouldMonitorBinary_of_enabled rfl, addTargetBinaries_apply]
  simp only [emptyFilters, reduceCtorEq, false_or, mem_getTargetBinaries, hattempts, true_and]
  constructor
  · rintro ⟨_, ⟨hbinary, binding, hbinding, rfl⟩, hkey⟩
    exact ⟨binding, hbinding, hbinary,
      (binaryKey_eq_execComm_iff (hconfig binding hbinding) hpath).1 hkey⟩
  · rintro ⟨binding, hbinding, hbinary, hname⟩
    exact ⟨_, ⟨hbinary, binding, hbinding, rfl⟩,
      (binaryKey_eq_execComm_iff (hconfig binding hbinding) hpath).2 hname⟩

/-- The handler sends nothing about a process that the filter rejects. -/
theorem handleSchedProcessExec_silent {filters : Filters} {current : Current}
    (hrejected : shouldMonitorBinary filters current.comm = false)
    {oracle : Oracle Op Op.Ans}
    (horacle : ∀ past comm,
      oracle past (.shouldMonitorBinary comm) = shouldMonitorBinary filters comm)
    (past : List (Call Op Op.Ans)) :
    ∀ made ∈ (run oracle past (handleSchedProcessExec current)).2, made.op.submitted = [] := by
  have hfiltered (past : List (Call Op Op.Ans)) :
      ∀ made ∈ (run oracle past (call (Op.shouldMonitorBinary current.comm) fun monitored =>
          if monitored then sendExec current fun record => record.fillSchedExec current
          else ret ())).2, made.op.submitted = [] := by
    simp [run_call, horacle, hrejected, Op.submitted]
  rw [handleSchedProcessExec, run_call]
  refine List.forall_mem_cons.2 ⟨rfl, ?_⟩
  split
  · simp
  · rw [run_call]
    refine List.forall_mem_cons.2 ⟨rfl, ?_⟩
    split
    · exact hfiltered _
    · simp

end KernelSeal.BinaryFilter

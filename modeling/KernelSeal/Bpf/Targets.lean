import KernelSeal.Core.Segments
import KernelSeal.Bpf.FileProtect

/-!
# The files that the file hook refuses

`ks_file_open` knows a file by its name and by the name of its parent directory.  It
does not ask for the filesystem, and it reads the directory name as a number of 32
bits.  What it refuses is always named like a guarded file.  That the file is one of
a protected process follows only on procfs and for a directory name that is the
printed number.
-/

namespace KernelSeal.Targets

open KernelSeal.Text
open KernelSeal.Segments
open KernelSeal.FileProtect

inductive Filesystem where
  | procfs
  | other (type : GoString)
  deriving DecidableEq

/-- A file on the host.  Names in a directory have no NUL byte. -/
structure HostFile where
  filesystem : Filesystem
  name : GoString
  parentName : GoString
  name_ne_zero : ∀ byte ∈ name, byte ≠ 0
  parentName_ne_zero : ∀ byte ∈ parentName, byte ≠ 0

/-- The file as the hook sees it. -/
def HostFile.file (host : HostFile) : File where
  dentry := some { name := some host.name, parentName := some host.parentName }

/-- The file stands in the procfs directory of a protected process. -/
def HostFile.OfProtected (host : HostFile) (maps : Maps) : Prop :=
  host.filesystem = .procfs ∧
    ∃ pid : UInt32, host.parentName = decimal pid.toNat ∧ maps.protectedPids pid = some 1

/-! ## Guarded names -/

/-- The names of the guarded files. -/
def guardedNames : List GoString := [str "environ", str "mem", str "maps"]

/-- A comparison up to the NUL compares the whole name, even one that is cut off. -/
theorem eq_of_prefix_buffer {word name : GoString} (hword : (0 : Byte) ∉ word)
    (hfits : word.length < 15) (hname : ∀ byte ∈ name, byte ≠ 0)
    (hstarts : word ++ [0] <+: (probeReadStr maxProcFileLen name).1) : name = word := by
  have hcopied : (cString name).take 15 = name.take 15 := by
    rw [cString, List.takeWhile_eq_self_iff.2 (by simpa using hname)]
  have hlength : (name.take 15).length ≤ 15 := List.length_take_le _ _
  have hbuffer : (probeReadStr maxProcFileLen name).1 =
      name.take 15 ++ 0 :: List.replicate (15 - (name.take 15).length) 0 := by
    rw [← List.replicate_succ, ← Nat.sub_add_comm hlength]
    simp only [probeReadStr, maxProcFileLen, Nat.add_one_sub_one, hcopied]
  have hzero : (0 : Byte) ∉ name.take 15 := fun hmem => hname 0 (List.mem_of_mem_take hmem) rfl
  rw [hbuffer, separator_prefix_iff hword hzero] at hstarts
  have hshort : name.length ≤ 15 := by
    have htake := congrArg List.length hstarts.1
    rw [List.length_take] at htake
    omega
  rw [hstarts.1, List.take_of_length_le hshort]

theorem mem_guardedNames_of_classify {name : GoString} {access : AccessType}
    (hname : ∀ byte ∈ name, byte ≠ 0)
    (hclass : classifyProcFile (probeReadStr maxProcFileLen name).1 = some access) :
    name ∈ guardedNames := by
  rw [classifyProcFile] at hclass
  split_ifs at hclass with henviron hmem hmaps
  · rw [eq_of_prefix_buffer (by decide) (by decide) hname henviron]
    decide
  · rw [eq_of_prefix_buffer (by decide) (by decide) hname hmem]
    decide
  · rw [eq_of_prefix_buffer (by decide) (by decide) hname hmaps]
    decide

/-! ## Directory names -/

/-- The number that a run of digits stands for. -/
def value (name : GoString) : ℕ :=
  name.foldl (fun value byte => value * 10 + (byte.val - 48)) 0

/-- A number below `2 ^ 32` as the kernel prints it: digits, the first of them not a
zero. -/
structure Numeral (name : GoString) : Prop where
  ne_nil : name ≠ []
  digits : ∀ byte ∈ name, 48 ≤ byte.val ∧ byte.val ≤ 57
  leading : name.head? ≠ some 48
  bound : value name < 2 ^ 32

/-- The digits of a name as numbers. -/
def digitsOf (name : GoString) : List ℕ := name.map fun byte => byte.val - 48

theorem value_eq_ofDigits (name : GoString) :
    value name = Nat.ofDigits 10 (digitsOf name).reverse := by
  rw [← foldl_horner_reverse, List.reverse_reverse, value, digitsOf, List.foldl_map]

theorem lt_ten_of_mem_digitsOf {name : GoString}
    (hdigits : ∀ byte ∈ name, 48 ≤ byte.val ∧ byte.val ≤ 57) :
    ∀ digit ∈ digitsOf name, digit < 10 := by
  intro digit hdigit
  obtain ⟨byte, hbyte, rfl⟩ := List.mem_map.1 hdigit
  have hrange := hdigits byte hbyte
  omega

theorem ascii_digitsOf {name : GoString}
    (hdigits : ∀ byte ∈ name, 48 ≤ byte.val ∧ byte.val ≤ 57) : ascii (digitsOf name) = name := by
  rw [ascii, digitsOf, List.map_map, List.map_congr_left (g := id), List.map_id]
  intro byte hbyte
  have hrange := hdigits byte hbyte
  rw [Function.comp_apply, show 48 + (byte.val - 48) = byte.val by omega]
  exact Fin.ofNat_val_eq_self byte

theorem val_ofNat_digit {digit : ℕ} (hdigit : digit < 10) :
    (Fin.ofNat 256 (48 + digit) : Byte).val = 48 + digit :=
  Nat.mod_eq_of_lt (by omega)

theorem digitsOf_ascii {digits : List ℕ} (hdigits : ∀ digit ∈ digits, digit < 10) :
    digitsOf (ascii digits) = digits := by
  rw [ascii, digitsOf, List.map_map, List.map_congr_left (g := id), List.map_id]
  intro digit hdigit
  have hbound := hdigits digit hdigit
  rw [Function.comp_apply, val_ofNat_digit hbound, Nat.add_sub_cancel_left]
  rfl

/-- A numeral is the printed form of its value. -/
theorem Numeral.decimal_value {name : GoString} (hname : Numeral name) :
    value name ≠ 0 ∧ decimal (value name) = name := by
  have hlt : ∀ digit ∈ (digitsOf name).reverse, digit < 10 := fun digit hdigit =>
    lt_ten_of_mem_digitsOf hname.digits digit (List.mem_reverse.1 hdigit)
  have hlast (hne : (digitsOf name).reverse ≠ []) : (digitsOf name).reverse.getLast hne ≠ 0 := by
    obtain ⟨first, rest, rfl⟩ := List.exists_cons_of_ne_nil hname.ne_nil
    have hrange := hname.digits first List.mem_cons_self
    have hfirst : first.val ≠ 48 := fun hzero =>
      hname.leading (congrArg some (Fin.ext hzero))
    simp only [digitsOf, List.map_cons, List.reverse_cons, List.getLast_append_singleton]
    omega
  have hdigits : Nat.digits 10 (value name) = (digitsOf name).reverse := by
    rw [value_eq_ofDigits]
    exact Nat.digits_ofDigits 10 (by decide) _ hlt hlast
  have hvalue : value name ≠ 0 := by
    intro hzero
    rw [hzero, Nat.digits_zero] at hdigits
    exact hname.ne_nil (by simpa [digitsOf] using hdigits.symm)
  refine ⟨hvalue, ?_⟩
  rw [decimal, if_neg hvalue, hdigits, List.reverse_reverse]
  exact ascii_digitsOf hname.digits

/-- The first printed digit is the last one of `Nat.digits`, which is not zero. -/
theorem head?_ascii_reverse_digits {number : ℕ} (hnumber : number ≠ 0) :
    (ascii (Nat.digits 10 number).reverse).head? ≠ some 48 := by
  have hne : Nat.digits 10 number ≠ [] := Nat.digits_ne_nil_iff_ne_zero.2 hnumber
  have hlast := Nat.getLast_digit_ne_zero 10 hnumber
  have hbound : (Nat.digits 10 number).getLast hne < 10 :=
    Nat.digits_lt_base (by decide) (List.getLast_mem hne)
  rw [ascii, List.head?_map, List.head?_reverse, List.getLast?_eq_getLast_of_ne_nil hne]
  intro hleading
  have hval : (Fin.ofNat 256 (48 + (Nat.digits 10 number).getLast hne) : Byte).val = 48 :=
    congrArg Fin.val (Option.some.inj hleading)
  rw [val_ofNat_digit hbound] at hval
  exact hlast (by omega)

/-- A printed number is a numeral. -/
theorem numeral_decimal {pid : UInt32} (hpid : pid ≠ 0) : Numeral (decimal pid.toNat) := by
  have hnumber : pid.toNat ≠ 0 := fun hzero => hpid (UInt32.toNat_inj.1 hzero)
  have hlt : ∀ digit ∈ (Nat.digits 10 pid.toNat).reverse, digit < 10 := fun digit hdigit =>
    Nat.digits_lt_base (by decide) (List.mem_reverse.1 hdigit)
  have hprinted : decimal pid.toNat = ascii (Nat.digits 10 pid.toNat).reverse := if_neg hnumber
  rw [hprinted]
  refine ⟨?_, ?_, head?_ascii_reverse_digits hnumber, ?_⟩
  · simpa [ascii] using Nat.digits_ne_nil_iff_ne_zero.2 hnumber
  · intro byte hbyte
    obtain ⟨digit, hdigit, rfl⟩ := List.mem_map.1 hbyte
    have hbound := hlt digit hdigit
    rw [val_ofNat_digit hbound]
    omega
  · rw [value_eq_ofDigits, digitsOf_ascii hlt, List.reverse_reverse, Nat.ofDigits_digits]
    exact pid.toNat_lt

/-- The names that procfs gives its process directories. -/
theorem numeral_iff {name : GoString} :
    Numeral name ↔ ∃ pid : UInt32, pid ≠ 0 ∧ name = decimal pid.toNat := by
  constructor
  · intro hname
    obtain ⟨hvalue, hprinted⟩ := hname.decimal_value
    have htoNat : (UInt32.ofNat (value name)).toNat = value name :=
      UInt32.toNat_ofNat_of_lt' hname.bound
    refine ⟨UInt32.ofNat (value name), fun hzero => hvalue ?_, ?_⟩
    · rw [← htoNat, hzero]
      rfl
    · rw [htoNat, hprinted]
  · rintro ⟨pid, hpid, rfl⟩
    exact numeral_decimal hpid

/-- Printed numbers are read back, so distinct ones stand for distinct processes. -/
theorem eq_of_getProcDirPid {left right : GoString} (hleft : Numeral left)
    (hright : Numeral right) (hsame : getProcDirPid (some left) = getProcDirPid (some right)) :
    left = right := by
  obtain ⟨first, hfirst, rfl⟩ := numeral_iff.1 hleft
  obtain ⟨second, hsecond, rfl⟩ := numeral_iff.1 hright
  rw [getProcDirPid_decimal hfirst, getProcDirPid_decimal hsecond] at hsame
  rw [hsame]

/-! ## What a directory name is read as -/

theorem scanPid_of_digits {text : GoString}
    (hdigits : ∀ byte ∈ text, 48 ≤ byte.val ∧ byte.val ≤ 57) :
    scanPid text 0 = UInt32.ofNat (value text) := by
  have hvalue : value text = (digitsOf text).foldl (fun value digit => value * 10 + digit) 0 := by
    rw [value, digitsOf, List.foldl_map]
  calc scanPid text 0 = scanPid (ascii (digitsOf text) ++ []) (UInt32.ofNat 0) := by
        rw [ascii_digitsOf hdigits, List.append_nil]
        rfl
    _ = UInt32.ofNat (value text) := by
        rw [scanPid_ascii_append (lt_ten_of_mem_digitsOf hdigits), scanPid, hvalue]

/-- One byte that is not a digit gives up the digits before it. -/
theorem scanPid_of_nondigit {text : GoString} (htext : ∀ byte ∈ text, byte ≠ 0)
    {byte : Byte} (hbyte : byte ∈ text) (hrange : ¬ (48 ≤ byte.val ∧ byte.val ≤ 57))
    (pid : UInt32) : scanPid text pid = 0 := by
  induction text generalizing pid with
  | nil => exact absurd hbyte List.not_mem_nil
  | cons first rest ih =>
      rw [scanPid, if_neg (htext first List.mem_cons_self)]
      split
      · rfl
      · rename_i hdigit
        have hrest : byte ∈ rest := by
          refine (List.mem_cons.1 hbyte).resolve_left ?_
          rintro rfl
          rw [Fin.lt_def, Fin.lt_def] at hdigit
          exact hrange ⟨not_lt.1 fun hlow => hdigit (Or.inl hlow),
            not_lt.1 fun hhigh => hdigit (Or.inr hhigh)⟩
        exact ih (fun other hother => htext other (List.mem_cons_of_mem _ hother)) hrest _

theorem ne_zero_of_mem_take_cString {bytes : GoString} {count : ℕ} {byte : Byte}
    (hbyte : byte ∈ (cString bytes).take count) : byte ≠ 0 := by
  simpa using List.mem_takeWhile_imp (List.mem_of_mem_take hbyte)

/-- The parser inverts decimal printing.  A name that is empty or has something else
than digits among its first fifteen bytes is read as no process, and any other name as
the value of its first fifteen digits modulo `2 ^ 32`. -/
theorem getProcDirPid_positional :
    (∀ number, 1 ≤ number → number < 2 ^ 32 →
      (getProcDirPid (some (decimal number))).toNat = number) ∧
    ∀ bytes,
      ((cString bytes = [] ∨
          ∃ byte ∈ (cString bytes).take 15, ¬ (48 ≤ byte.val ∧ byte.val ≤ 57)) →
        getProcDirPid (some bytes) = 0) ∧
      (cString bytes ≠ [] →
        (∀ byte ∈ (cString bytes).take 15, 48 ≤ byte.val ∧ byte.val ≤ 57) →
        (getProcDirPid (some bytes)).toNat = value ((cString bytes).take 15) % 2 ^ 32) := by
  constructor
  · intro number hpositive hbound
    have htoNat : (UInt32.ofNat number).toNat = number := UInt32.toNat_ofNat_of_lt' hbound
    have hpid : UInt32.ofNat number ≠ 0 := by
      intro hzero
      rw [hzero] at htoNat
      exact absurd hpositive (by rw [← htoNat]; decide)
    calc (getProcDirPid (some (decimal number))).toNat
        = (getProcDirPid (some (decimal (UInt32.ofNat number).toNat))).toNat := by rw [htoNat]
      _ = number := by rw [getProcDirPid_decimal hpid, htoNat]
  · intro bytes
    rw [getProcDirPid_eq]
    constructor
    · rintro (hempty | ⟨byte, hbyte, hrange⟩)
      · rw [hempty]
        rfl
      · exact scanPid_of_nondigit (fun other => ne_zero_of_mem_take_cString) hbyte hrange 0
    · intro _ hdigits
      rw [scanPid_of_digits hdigits, UInt32.toNat_ofNat']

/-- The largest process number, a name with a letter in fifteenth place, and a name of
sixteen digits of which the last is not read. -/
theorem getProcDirPid_positional_samples :
    (getProcDirPid (some (decimal 4294967295))).toNat = 4294967295 ∧
    getProcDirPid (some (str "12345678901234x")) = 0 ∧
    (getProcDirPid (some (str "4294967296000019"))).toNat =
      value (str "429496729600001") % 2 ^ 32 :=
  ⟨getProcDirPid_positional.1 4294967295 (by decide) (by decide),
    (getProcDirPid_positional.2 (str "12345678901234x")).1 (by decide +kernel),
    (getProcDirPid_positional.2 (str "4294967296000019")).2 (by decide +kernel)
      (by decide +kernel)⟩

/-! ## Refusals -/

/-- A refused file is named like a guarded one.  It is a file of a protected process
exactly when it is on procfs and its directory is named by a printed number, and
among such names no two stand for one process. -/
theorem refused_ofProtected_iff (maps : Maps) (room : Bool) (opener : Opener) (host : HostFile)
    (hrefused : (ksFileOpen maps room opener host.file).verdict = -eperm) :
    host.name ∈ guardedNames ∧
    (host.OfProtected maps ↔ host.filesystem = .procfs ∧ Numeral host.parentName) ∧
    (Numeral host.parentName → ∀ other : HostFile,
      (ksFileOpen maps room opener other.file).verdict = -eperm → Numeral other.parentName →
      getProcDirPid (some host.parentName) = getProcDirPid (some other.parentName) →
      host.parentName = other.parentName) := by
  obtain ⟨policy, name, access, hrefusal⟩ :=
    (ksFileOpen_refuses_iff maps room opener host.file).1 hrefused
  have hname : host.name = name := Option.some.inj hrefusal.named
  have hrecorded : maps.protectedPids (getProcDirPid (some host.parentName)) = some 1 :=
    hrefusal.recorded
  have hnumeric : getProcDirPid (some host.parentName) ≠ 0 := hrefusal.numeric
  refine ⟨mem_guardedNames_of_classify host.name_ne_zero (hname ▸ hrefusal.classified),
    and_congr_right fun _ => ?_, fun hhost other _ hother hsame =>
      eq_of_getProcDirPid hhost hother hsame⟩
  rw [numeral_iff]
  constructor
  · rintro ⟨pid, hparent, -⟩
    refine ⟨pid, ?_, hparent⟩
    rintro rfl
    rw [hparent] at hnumeric
    exact hnumeric (by decide)
  · rintro ⟨pid, hpid, hparent⟩
    rw [hparent, getProcDirPid_decimal hpid] at hrecorded
    exact ⟨pid, hparent, hrecorded⟩

/-- A file named `environ` in the directory of process 100. -/
def procEnviron : HostFile where
  filesystem := .procfs
  name := str "environ"
  parentName := str "100"
  name_ne_zero := by decide +kernel
  parentName_ne_zero := by decide +kernel

/-- The same names on another filesystem. -/
def plainEnviron : HostFile := { procEnviron with filesystem := .other (str "tmpfs") }

/-- A directory with a number that is too large for a process. -/
def wrappedEnviron : HostFile :=
  { plainEnviron with
    parentName := str "4294967396"
    parentName_ne_zero := by decide +kernel }

theorem procEnviron_ofProtected : procEnviron.OfProtected threadedMaps := by
  have hname : Numeral procEnviron.parentName :=
    ⟨by decide +kernel, by decide +kernel, by decide +kernel, by decide +kernel⟩
  exact (refused_ofProtected_iff threadedMaps true (stranger.opener 0) procEnviron
    (by decide +kernel)).2.1.2 ⟨rfl, hname⟩

/-- A file of the user's own in a directory with a number for a name is refused, and
two such names stand for one process. -/
theorem plain_file_refused :
    (ksFileOpen threadedMaps true (stranger.opener 0) plainEnviron.file).verdict = -eperm ∧
      ¬ plainEnviron.OfProtected threadedMaps ∧
    (ksFileOpen threadedMaps true (stranger.opener 0) wrappedEnviron.file).verdict = -eperm ∧
      getProcDirPid (some wrappedEnviron.parentName) =
        getProcDirPid (some plainEnviron.parentName) ∧
      wrappedEnviron.parentName ≠ plainEnviron.parentName := by
  refine ⟨by decide +kernel, fun hprotected => ?_, by decide +kernel, by decide +kernel,
    by decide +kernel⟩
  cases hprotected.1

end KernelSeal.Targets

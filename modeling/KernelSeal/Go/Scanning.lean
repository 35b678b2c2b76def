import KernelSeal.Go.Utf8

/-!
# Fields and numbers

`strings.Fields` divides a text at white space of any script, so what it returns
depends on how the bytes are decoded.  `strconv.ParseUint` accumulates digits in 64
bits and notices when they no longer fit.  Both are determined here on arbitrary
bytes.
-/

namespace KernelSeal.Scanning

open KernelSeal.Text
open KernelSeal.Utf8

/-! ## Positions -/

/-- `bytes.LastIndexByte`, absent where Go returns -1. -/
def lastIndexByte (data : GoString) (byte : Byte) : Option ℕ :=
  (List.range data.length).reverse.find? fun position => data[position]? = some byte

theorem lastIndexByte_eq_none {data : GoString} {byte : Byte} (hdata : byte ∉ data) :
    lastIndexByte data byte = none := by
  rw [lastIndexByte, List.find?_eq_none]
  intro position _ hfound
  exact hdata (List.mem_of_getElem? (of_decide_eq_true hfound))

theorem lastIndexByte_append {back : GoString} {byte : Byte} (hback : byte ∉ back)
    (front : GoString) :
    lastIndexByte (front ++ byte :: back) byte = some front.length := by
  have hrange : List.range (front ++ byte :: back).length =
      List.range front.length ++
        (List.range (back.length + 1)).map fun offset => front.length + offset := by
    rw [List.length_append, List.length_cons, List.range_add]
  have hlater : ((List.range (back.length + 1)).map fun offset => front.length + offset).reverse =
      ((List.range back.length).map fun offset => front.length + (offset + 1)).reverse ++
        [front.length] := by
    rw [List.range_succ_eq_map, List.map_cons, List.reverse_cons, List.map_map]
    rfl
  have hnone : (((List.range back.length).map
      fun offset => front.length + (offset + 1)).reverse.find?
        fun position => (front ++ byte :: back)[position]? = some byte) = none := by
    rw [List.find?_eq_none]
    intro position hposition hfound
    obtain ⟨offset, _, rfl⟩ := List.mem_map.1 (List.mem_reverse.1 hposition)
    rw [decide_eq_true_iff, List.getElem?_append_right (by omega), Nat.add_sub_cancel_left,
      List.getElem?_cons_succ] at hfound
    exact hback (List.mem_of_getElem? hfound)
  rw [lastIndexByte, hrange, List.reverse_append, hlater, List.append_assoc, List.find?_append,
    hnone]
  simp

/-- A byte of a joined text is one of its parts or of the separator. -/
theorem notMem_join {byte : Byte} {parts : List GoString} {separator : GoString}
    (hparts : ∀ part ∈ parts, byte ∉ part) (hseparator : byte ∉ separator) :
    byte ∉ join parts separator := by
  induction parts with
  | nil => exact List.not_mem_nil
  | cons part parts ih =>
      obtain ⟨hpart, hrest⟩ := List.forall_mem_cons.1 hparts
      cases parts with
      | nil => simpa [join] using hpart
      | cons next parts =>
          rw [join, List.intercalate_cons_cons, List.mem_append, List.mem_append, not_or, not_or]
          exact ⟨⟨hpart, hseparator⟩, ih hrest⟩

/-! ## Fields -/

/-- `strings.Fields`: the runs of runes between white space. -/
def fields (text : GoString) : List GoString :=
  (((runes text).splitOnP fun rune => isSpace rune.value).filter fun run => !run.isEmpty).map
    fun run => run.flatMap Rune.raw

/-- No rune of the text is white space. -/
def Unspaced (text : GoString) : Prop := ∀ rune ∈ runes text, isSpace rune.value = false

instance : DecidablePred Unspaced := fun text =>
  inferInstanceAs (Decidable (∀ rune ∈ runes text, isSpace rune.value = false))

theorem runes_ne_nil {text : GoString} (htext : text ≠ []) : runes text ≠ [] := by
  intro hrunes
  have hraw := flatMap_raw_runes text
  rw [hrunes] at hraw
  exact htext hraw.symm

@[simp]
theorem fields_nil : fields [] = [] := rfl

/-- White space ends the field before it. -/
theorem fields_append_space {field : GoString} (hfield : field ≠ []) (hunspaced : Unspaced field)
    {space : Byte} (hascii : space.val < 0x80) (hspace : isSpace space.val = true)
    (rest : GoString) : fields (field ++ space :: rest) = field :: fields rest := by
  have hsplit : (runes (field ++ space :: rest)).splitOnP (fun rune => isSpace rune.value) =
      runes field :: (runes rest).splitOnP fun rune => isSpace rune.value := by
    rw [runes_append_ascii field hascii]
    exact List.splitOnP_append_cons_of_forall_mem hunspaced _ hspace _
  rw [fields, hsplit, List.filter_cons_of_pos (by simpa using runes_ne_nil hfield),
    List.map_cons, flatMap_raw_runes]
  rfl

/-- Leading white space is skipped. -/
theorem fields_cons_space {space : Byte} (hascii : space.val < 0x80)
    (hspace : isSpace space.val = true) (rest : GoString) :
    fields (space :: rest) = fields rest := by
  have hrunes := runes_append_ascii [] hascii rest
  rw [List.nil_append] at hrunes
  rw [fields, hrunes, show runes [] = [] from rfl, List.nil_append,
    List.splitOnP_cons_eq_if_modifyHead, if_pos hspace]
  rfl

/-- A line of fields with single spaces between them is divided into these. -/
theorem fields_line {parts : List GoString} (hparts : ∀ part ∈ parts, part ≠ [] ∧ Unspaced part) :
    fields (join parts [32] ++ [10]) = parts := by
  induction parts with
  | nil => exact fields_cons_space (by decide) (by decide) []
  | cons part parts ih =>
      obtain ⟨⟨hpart, hunspaced⟩, hrest⟩ := List.forall_mem_cons.1 hparts
      cases parts with
      | nil =>
          have hline : join [part] [32] ++ [10] = part ++ 10 :: [] := by simp [join]
          rw [hline, fields_append_space hpart hunspaced (by decide) (by decide), fields_nil]
      | cons next parts =>
          have hline : join (part :: next :: parts) [32] ++ [10] =
              part ++ 32 :: (join (next :: parts) [32] ++ [10]) := by
            simp [join, List.intercalate]
          rw [hline, fields_append_space hpart hunspaced (by decide) (by decide), ih hrest]

/-! ## Numbers -/

/-- Why a text is no number for `ParseUint`. -/
inductive NumError where
  | errSyntax
  | errRange
  deriving DecidableEq

/-- The text of a `strconv.NumError`. -/
def NumError.text (unicode : Unicode) (number : GoString) (err : NumError) : GoString :=
  str "strconv.ParseUint: parsing " ++ quote unicode number ++ str ": " ++
    match err with
    | .errSyntax => str "invalid syntax"
    | .errRange => str "value out of range"

/-- The value of a digit in a base up to 36. -/
def digitValue (byte : Byte) : Option ℕ :=
  let lower := byte.val ||| 32
  if 48 ≤ byte.val ∧ byte.val ≤ 57 then some (byte.val - 48)
  else if 97 ≤ lower ∧ lower ≤ 122 then some (lower - 97 + 10)
  else none

/-- The smallest number whose tenfold does not fit: `maxUint64/10 + 1`. -/
def cutoff : UInt64 := 1844674407370955162

def maxUint64 : UInt64 := 18446744073709551615

/-- The loop of `ParseUint` in base 10, from the number read so far. -/
def scanUint : GoString → UInt64 → Except NumError UInt64
  | [], number => .ok number
  | byte :: rest, number =>
      match digitValue byte with
      | none => .error .errSyntax
      | some digit =>
          if 10 ≤ digit then .error .errSyntax
          else if cutoff ≤ number then .error .errRange
          else
            let tenfold := number * 10
            let next := tenfold + UInt64.ofNat digit
            if next < tenfold ∨ maxUint64 < next then .error .errRange else scanUint rest next

/-- `strconv.ParseUint(text, 10, 64)`.  A number out of range is returned as the
largest one, with the error. -/
def parseUint (unicode : Unicode) (text : GoString) : UInt64 × Option GoString :=
  if text = [] then (0, some (NumError.errSyntax.text unicode text))
  else
    match scanUint text 0 with
    | .ok number => (number, none)
    | .error .errSyntax => (0, some (NumError.errSyntax.text unicode text))
    | .error .errRange => (maxUint64, some (NumError.errRange.text unicode text))

/-- The byte is an ASCII digit. -/
def IsDigit (byte : Byte) : Prop := 48 ≤ byte.val ∧ byte.val ≤ 57

instance : DecidablePred IsDigit := fun _ => inferInstanceAs (Decidable (_ ∧ _))

/-- The number that digits spell after one that was read before them. -/
def horner (text : GoString) (number : ℕ) : ℕ :=
  text.foldl (fun number byte => number * 10 + (byte.val - 48)) number

/-- The number that a text of digits spells. -/
def spelled (text : GoString) : Option ℕ :=
  if text ≠ [] ∧ ∀ byte ∈ text, IsDigit byte then some (horner text 0) else none

theorem le_horner (text : GoString) (number : ℕ) : number ≤ horner text number := by
  induction text generalizing number with
  | nil => exact le_rfl
  | cons byte text ih =>
      calc number ≤ number * 10 + (byte.val - 48) := by omega
        _ ≤ horner text (number * 10 + (byte.val - 48)) := ih _

theorem digitValue_of_isDigit {byte : Byte} (hdigit : IsDigit byte) :
    digitValue byte = some (byte.val - 48) :=
  if_pos hdigit

/-- Letters are digits of larger bases only. -/
theorem ten_le_of_digitValue {byte : Byte} (hdigit : ¬ IsDigit byte) {digit : ℕ}
    (hvalue : digitValue byte = some digit) : 10 ≤ digit := by
  simp only [digitValue, if_neg (show ¬ (48 ≤ byte.val ∧ byte.val ≤ 57) from hdigit)] at hvalue
  split at hvalue
  · cases hvalue
    omega
  · cases hvalue

theorem scanUint_of_not_isDigit {byte : Byte} (hdigit : ¬ IsDigit byte) (rest : GoString)
    (number : UInt64) : scanUint (byte :: rest) number = .error .errSyntax := by
  rw [scanUint]
  cases hvalue : digitValue byte with
  | none => rfl
  | some digit => exact if_pos (ten_le_of_digitValue hdigit hvalue)

/-- One round of the loop at a digit: it fails exactly when the number grows out of 64
bits. -/
theorem scanUint_cons {byte : Byte} (hdigit : IsDigit byte) (rest : GoString) (number : UInt64) :
    scanUint (byte :: rest) number =
      if number.toNat * 10 + (byte.val - 48) < 2 ^ 64 then
        scanUint rest (UInt64.ofNat (number.toNat * 10 + (byte.val - 48)))
      else .error .errRange := by
  have hrange : 48 ≤ byte.val ∧ byte.val ≤ 57 := hdigit
  have hcutoff : cutoff.toNat = 1844674407370955162 := rfl
  have hmax : maxUint64.toNat = 2 ^ 64 - 1 := rfl
  rw [scanUint, digitValue_of_isDigit hdigit]
  simp only
  rw [if_neg (by omega)]
  by_cases hlarge : cutoff ≤ number
  · have hfull : 1844674407370955162 ≤ number.toNat := hcutoff ▸ UInt64.le_iff_toNat_le.1 hlarge
    rw [if_pos hlarge, if_neg (by omega)]
  · have hsmall : number.toNat < 1844674407370955162 :=
      hcutoff ▸ UInt64.lt_iff_toNat_lt.1 (UInt64.not_le.1 hlarge)
    have htenfold : (number * 10).toNat = number.toNat * 10 := by
      rw [UInt64.toNat_mul]
      exact Nat.mod_eq_of_lt (by simp; omega)
    have hnext : (number * 10 + UInt64.ofNat (byte.val - 48)).toNat =
        (number.toNat * 10 + (byte.val - 48)) % 2 ^ 64 := by
      rw [UInt64.toNat_add, htenfold, UInt64.toNat_ofNat', Nat.mod_eq_of_lt (a := byte.val - 48)]
      omega
    have hwraps : (number * 10 + UInt64.ofNat (byte.val - 48) < number * 10 ∨
        maxUint64 < number * 10 + UInt64.ofNat (byte.val - 48)) ↔
          ¬ number.toNat * 10 + (byte.val - 48) < 2 ^ 64 := by
      rw [UInt64.lt_iff_toNat_lt, UInt64.lt_iff_toNat_lt, hnext, htenfold, hmax]
      omega
    rw [if_neg hlarge]
    by_cases hfits : number.toNat * 10 + (byte.val - 48) < 2 ^ 64
    · rw [if_neg (mt hwraps.1 (not_not.2 hfits)), if_pos hfits]
      congr 1
      apply UInt64.toNat_inj.1
      rw [hnext, UInt64.toNat_ofNat']
    · rw [if_pos (hwraps.2 hfits), if_neg hfits]

/-- The loop returns the number that the digits spell if they are digits and it fits. -/
theorem scanUint_eq_ok_iff {text : GoString} {number result : UInt64} :
    scanUint text number = .ok result ↔
      (∀ byte ∈ text, IsDigit byte) ∧ result.toNat = horner text number.toNat := by
  induction text generalizing number with
  | nil =>
      rw [scanUint, Except.ok.injEq, ← UInt64.toNat_inj, eq_comm]
      simp [horner]
  | cons byte text ih =>
      rw [List.forall_mem_cons]
      by_cases hdigit : IsDigit byte
      · have hstep : horner (byte :: text) number.toNat =
            horner text (number.toNat * 10 + (byte.val - 48)) := rfl
        rw [scanUint_cons hdigit, hstep]
        split
        · rename_i hfits
          rw [ih, UInt64.toNat_ofNat_of_lt' hfits]
          simp [hdigit]
        · rename_i hfits
          have hgrows := le_horner text (number.toNat * 10 + (byte.val - 48))
          have hbound := result.toNat_lt
          constructor
          · intro herror
            cases herror
          · rintro ⟨_, hresult⟩
            omega
      · rw [scanUint_of_not_isDigit hdigit]
        simp [hdigit]

/-- `ParseUint` succeeds on the texts that spell a number below `2 ^ 64`. -/
theorem parseUint_eq_iff {unicode : Unicode} {text : GoString} {number : UInt64} :
    parseUint unicode text = (number, none) ↔ spelled text = some number.toNat := by
  by_cases htext : text = []
  · simp [parseUint, spelled, htext]
  · have hscan : parseUint unicode text = (number, none) ↔ scanUint text 0 = .ok number := by
      rw [parseUint, if_neg htext]
      rcases scanUint text 0 with (_ | _) | result <;> simp
    rw [hscan, scanUint_eq_ok_iff, spelled]
    by_cases hdigits : ∀ byte ∈ text, IsDigit byte
    · rw [if_pos ⟨htext, hdigits⟩, Option.some.injEq, eq_comm]
      exact and_iff_right hdigits
    · rw [if_neg fun hboth => hdigits hboth.2]
      simp [hdigits]

theorem parseUint_snd_ne_none {unicode : Unicode} {text : GoString}
    (htext : ∀ number, spelled text = some number → 2 ^ 64 ≤ number) :
    (parseUint unicode text).2 ≠ none := by
  intro hnone
  have hspelled := parseUint_eq_iff.1 (Prod.ext rfl hnone : parseUint unicode text =
    ((parseUint unicode text).1, none))
  have hbound := (parseUint unicode text).1.toNat_lt
  have hlarge := htext _ hspelled
  omega

end KernelSeal.Scanning

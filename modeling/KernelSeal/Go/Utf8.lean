import KernelSeal.Go.Text

/-!
# UTF-8

Decoding and encoding of runes are inverse to each other on valid text.  Writing
the runes of an arbitrary string replaces each invalid byte by U+FFFD; the result
is valid, and it is the string itself exactly when that was valid.
-/

namespace KernelSeal.Utf8

open KernelSeal.Text

/-- A code point other than a surrogate. -/
def IsScalar (value : ℕ) : Prop := value < 0xD800 ∨ 0xDFFF < value ∧ value ≤ 0x10FFFF

/-- The rune stands for a byte that is not part of an encoding. -/
def Rune.Invalid (rune : Rune) : Prop := rune.value = runeError ∧ rune.raw.length = 1

instance : DecidablePred Rune.Invalid := fun _ => inferInstanceAs (Decidable (_ ∧ _))

/-- The bytes are the encoding of the value. -/
structure Encodes (value : ℕ) (raw : GoString) : Prop where
  isScalar : IsScalar value
  encoded : encodeRune value = raw

/-- What `decodeRune` finds. -/
inductive Decoded (lead : Byte) (rest : GoString) : Rune → Prop
  | invalid (hlead : 0x80 ≤ lead) : Decoded lead rest ⟨runeError, [lead]⟩
  | valid (value : ℕ) (tail after : GoString) (hrest : rest = tail ++ after)
      (hencodes : Encodes value (lead :: tail)) : Decoded lead rest ⟨value, lead :: tail⟩

theorem encodes_two {lead second : Byte} (hlead : 0xC2 ≤ lead.val ∧ lead.val ≤ 0xDF)
    (hsecond : 0x80 ≤ second.val ∧ second.val ≤ 0xBF) :
    Encodes ((lead.val % 32) * 64 + second.val % 64) [lead, second] where
  isScalar := by
    rw [IsScalar]
    omega
  encoded := by
    rw [encodeRune, if_neg (by omega), if_pos (by omega)]
    simp only [List.cons.injEq, Fin.ext_iff, Fin.ofNat, and_true]
    omega

/-- The second byte of a longer rune continues it, and is bounded from below after the
leading byte `first` and from above after the leading byte `last`. -/
structure SecondByte (first low last high : ℕ) (lead second : Byte) : Prop where
  continues : 0x80 ≤ second.val ∧ second.val ≤ 0xBF
  above : lead.val = first → low ≤ second.val
  below : lead.val = last → second.val ≤ high

theorem encodes_three {lead second third : Byte} (hlead : 0xE0 ≤ lead.val ∧ lead.val ≤ 0xEF)
    (hsecond : SecondByte 0xE0 0xA0 0xED 0x9F lead second)
    (hthird : 0x80 ≤ third.val ∧ third.val ≤ 0xBF) :
    Encodes (((lead.val % 16) * 64 + second.val % 64) * 64 + third.val % 64)
      [lead, second, third] := by
  obtain ⟨hsecond, hlow, hhigh⟩ := hsecond
  constructor
  · rw [IsScalar]
    omega
  · rw [encodeRune, if_neg (by omega), if_neg (by omega), if_neg (by omega), if_pos (by omega)]
    simp only [List.cons.injEq, Fin.ext_iff, Fin.ofNat, and_true]
    omega

theorem encodes_four {lead second third fourth : Byte}
    (hlead : 0xF0 ≤ lead.val ∧ lead.val ≤ 0xF4)
    (hsecond : SecondByte 0xF0 0x90 0xF4 0x8F lead second)
    (hthird : 0x80 ≤ third.val ∧ third.val ≤ 0xBF)
    (hfourth : 0x80 ≤ fourth.val ∧ fourth.val ≤ 0xBF) :
    Encodes ((((lead.val % 8) * 64 + second.val % 64) * 64 + third.val % 64) * 64 +
      fourth.val % 64) [lead, second, third, fourth] := by
  obtain ⟨hsecond, hlow, hhigh⟩ := hsecond
  constructor
  · rw [IsScalar]
    omega
  · rw [encodeRune, if_neg (by omega), if_neg (by omega), if_neg (by omega), if_neg (by omega)]
    simp only [List.cons.injEq, Fin.ext_iff, Fin.ofNat, and_true]
    omega

/-- ASCII is encoded as itself. -/
theorem Encodes.eq_of_ascii {value : ℕ} {raw : GoString} (hencodes : Encodes value raw)
    (hvalue : value < 0x80) : raw = [Fin.ofNat 256 value] := by
  rw [← hencodes.encoded, encodeRune, if_pos hvalue]

/-- Other runes are encoded without ASCII. -/
theorem Encodes.high {value : ℕ} {raw : GoString} (hencodes : Encodes value raw)
    (hvalue : 0x80 ≤ value) : ∀ byte ∈ raw, 0x80 ≤ byte.val := by
  have hscalar := hencodes.isScalar
  rw [IsScalar] at hscalar
  rw [← hencodes.encoded, encodeRune, if_neg (by omega)]
  split_ifs
  all_goals
    simp only [List.forall_mem_cons, List.not_mem_nil, false_implies, implies_true, and_true,
      Fin.ofNat]
    omega

/-! ## Leading bytes -/

theorem leadByte_two {lead : Byte} (hlead : 0xC2 ≤ lead.val ∧ lead.val ≤ 0xDF) :
    leadByte lead = some (2, 0x80, 0xBF) :=
  if_pos hlead

theorem secondByte_iff {first low last high : ℕ} {lead second lower upper : Byte}
    (hlow : 0x80 ≤ low) (hhigh : high ≤ 0xBF)
    (hlower : lower.val = if lead.val = first then low else 0x80)
    (hupper : upper.val = if lead.val = last then high else 0xBF) :
    lower ≤ second ∧ second ≤ upper ↔ SecondByte first low last high lead second := by
  rw [Fin.le_def, Fin.le_def, hlower, hupper]
  constructor
  · rintro ⟨habove, hbelow⟩
    refine ⟨⟨?_, ?_⟩, fun hfirst => ?_, fun hlast => ?_⟩
    · split_ifs at habove <;> omega
    · split_ifs at hbelow <;> omega
    · rwa [if_pos hfirst] at habove
    · rwa [if_pos hlast] at hbelow
  · rintro ⟨hcontinues, habove, hbelow⟩
    constructor
    · split_ifs with hfirst
      exacts [habove hfirst, hcontinues.1]
    · split_ifs with hlast
      exacts [hbelow hlast, hcontinues.2]

theorem leadByte_three (lead : Byte) (hlead : 0xE0 ≤ lead.val ∧ lead.val ≤ 0xEF) :
    ∃ low high : Byte, leadByte lead = some (3, low, high) ∧
      ∀ second, low ≤ second ∧ second ≤ high ↔ SecondByte 0xE0 0xA0 0xED 0x9F lead second := by
  by_cases hfirst : lead.val = 0xE0
  · obtain rfl : lead = 0xE0 := Fin.ext hfirst
    exact ⟨0xA0, 0xBF, rfl, fun _ => secondByte_iff (by decide) (by decide) rfl rfl⟩
  by_cases hsurrogate : lead.val = 0xED
  · obtain rfl : lead = 0xED := Fin.ext hsurrogate
    exact ⟨0x80, 0x9F, rfl, fun _ => secondByte_iff (by decide) (by decide) rfl rfl⟩
  have htwo : ¬ (0xC2 ≤ lead ∧ lead ≤ 0xDF) := fun hrange =>
    absurd (show lead.val ≤ 0xDF from hrange.2) (by omega)
  have hother : 0xE1 ≤ lead ∧ lead ≤ 0xEF :=
    ⟨show 0xE1 ≤ lead.val by omega, hlead.2⟩
  refine ⟨0x80, 0xBF, ?_, fun _ => secondByte_iff (by decide) (by decide)
    (if_neg hfirst).symm (if_neg hsurrogate).symm⟩
  rw [leadByte, if_neg htwo, if_neg fun hlead => hfirst (congrArg Fin.val hlead),
    if_neg fun hlead => hsurrogate (congrArg Fin.val hlead), if_pos hother]

theorem leadByte_four (lead : Byte) (hlead : 0xF0 ≤ lead.val ∧ lead.val ≤ 0xF4) :
    ∃ low high : Byte, leadByte lead = some (4, low, high) ∧
      ∀ second, low ≤ second ∧ second ≤ high ↔ SecondByte 0xF0 0x90 0xF4 0x8F lead second := by
  by_cases hfirst : lead.val = 0xF0
  · obtain rfl : lead = 0xF0 := Fin.ext hfirst
    exact ⟨0x90, 0xBF, rfl, fun _ => secondByte_iff (by decide) (by decide) rfl rfl⟩
  by_cases hlast : lead.val = 0xF4
  · obtain rfl : lead = 0xF4 := Fin.ext hlast
    exact ⟨0x80, 0x8F, rfl, fun _ => secondByte_iff (by decide) (by decide) rfl rfl⟩
  have hbelow {bound : Byte} (hbound : bound.val < 0xF0) : ¬ lead ≤ bound := fun hle =>
    absurd (show lead.val ≤ bound.val from hle) (by omega)
  have hother : 0xF1 ≤ lead ∧ lead ≤ 0xF3 :=
    ⟨show 0xF1 ≤ lead.val by omega, show lead.val ≤ 0xF3 by omega⟩
  refine ⟨0x80, 0xBF, ?_, fun _ => secondByte_iff (by decide) (by decide)
    (if_neg hfirst).symm (if_neg hlast).symm⟩
  rw [leadByte, if_neg fun hrange => hbelow (by decide) hrange.2,
    if_neg fun hlead => hbelow (by decide) (le_of_eq hlead),
    if_neg fun hlead => hbelow (by decide) (le_of_eq hlead),
    if_neg fun hrange => hbelow (by decide) hrange.2,
    if_neg fun hlead => hfirst (congrArg Fin.val hlead), if_pos hother]

/-- The remaining bytes beyond ASCII start no rune. -/
theorem leadByte_none {lead : Byte} (hlead : lead.val < 0xC2 ∨ 0xF4 < lead.val) :
    leadByte lead = none := by
  have hnot {low high : Byte} (hlow : 0xC2 ≤ low.val) (hhigh : high.val ≤ 0xF4) :
      ¬ (low ≤ lead ∧ lead ≤ high) := by
    rintro ⟨hle, hge⟩
    have hlower : low.val ≤ lead.val := hle
    have hupper : lead.val ≤ high.val := hge
    omega
  have hne {byte : Byte} (hlow : 0xC2 ≤ byte.val) (hhigh : byte.val ≤ 0xF4) : lead ≠ byte :=
    fun hsame => hnot hlow hhigh ⟨hsame.ge, hsame.le⟩
  rw [leadByte, if_neg (hnot (by decide) (by decide)), if_neg (hne (by decide) (by decide)),
    if_neg (hne (by decide) (by decide)), if_neg (hnot (by decide) (by decide)),
    if_neg (hne (by decide) (by decide)), if_neg (hnot (by decide) (by decide)),
    if_neg (hne (by decide) (by decide))]

/-! ## Decoding -/

theorem continues_iff {byte : Byte} :
    continues byte = true ↔ 0x80 ≤ byte.val ∧ byte.val ≤ 0xBF :=
  decide_eq_true_iff

theorem decodeRune_ascii {lead : Byte} (hlead : lead.val < 0x80) (rest : GoString) :
    decodeRune lead rest = ⟨lead.val, [lead]⟩ :=
  if_pos hlead

section Wide

variable {lead low high : Byte} (hlead : 0x80 ≤ lead.val)

include hlead

theorem decodeRune_two (hbyte : leadByte lead = some (2, low, high)) (second : Byte)
    (rest : GoString) :
    decodeRune lead (second :: rest) =
      if low ≤ second ∧ second ≤ high then
        ⟨(lead.val % 32) * 64 + second.val % 64, [lead, second]⟩
      else ⟨runeError, [lead]⟩ := by
  rw [decodeRune.eq_def, if_neg (not_lt.2 (show 0x80 ≤ lead from hlead)), hbyte]
  rfl

theorem decodeRune_three (hbyte : leadByte lead = some (3, low, high)) (second third : Byte)
    (rest : GoString) :
    decodeRune lead (second :: third :: rest) =
      if low ≤ second ∧ second ≤ high ∧ continues third then
        ⟨((lead.val % 16) * 64 + second.val % 64) * 64 + third.val % 64, [lead, second, third]⟩
      else ⟨runeError, [lead]⟩ := by
  rw [decodeRune.eq_def, if_neg (not_lt.2 (show 0x80 ≤ lead from hlead)), hbyte]
  rfl

theorem decodeRune_four (hbyte : leadByte lead = some (4, low, high))
    (second third fourth : Byte) (rest : GoString) :
    decodeRune lead (second :: third :: fourth :: rest) =
      if low ≤ second ∧ second ≤ high ∧ continues third ∧ continues fourth then
        ⟨(((lead.val % 8) * 64 + second.val % 64) * 64 + third.val % 64) * 64 + fourth.val % 64,
          [lead, second, third, fourth]⟩
      else ⟨runeError, [lead]⟩ := by
  rw [decodeRune.eq_def, if_neg (not_lt.2 (show 0x80 ≤ lead from hlead)), hbyte]
  rfl

/-- A rune that is cut off is invalid. -/
theorem decodeRune_short {width : ℕ} {rest : GoString}
    (hbyte : leadByte lead = some (width, low, high)) (hrest : rest.length + 1 < width) :
    decodeRune lead rest = ⟨runeError, [lead]⟩ := by
  rw [decodeRune.eq_def, if_neg (not_lt.2 (show 0x80 ≤ lead from hlead)), hbyte]
  split
  case h_4 => rfl
  -- The other patterns have as many bytes as the width announces.
  all_goals
    rename_i hwidth
    cases hwidth
    simp only [List.length_cons] at hrest
    omega

omit low high in
theorem decodeRune_none (hbyte : leadByte lead = none) (rest : GoString) :
    decodeRune lead rest = ⟨runeError, [lead]⟩ := by
  rw [decodeRune.eq_def, if_neg (not_lt.2 (show 0x80 ≤ lead from hlead)), hbyte]

end Wide

theorem encodes_ascii {lead : Byte} (hlead : lead.val < 0x80) : Encodes lead.val [lead] where
  isScalar := Or.inl (by omega)
  encoded := by
    rw [encodeRune, if_pos hlead]
    simp only [List.cons.injEq, Fin.ext_iff, Fin.ofNat, and_true]
    omega

section Widths

variable {lead : Byte} (rest : GoString)

theorem decoded_two (hlead : 0xC2 ≤ lead.val ∧ lead.val ≤ 0xDF) :
    Decoded lead rest (decodeRune lead rest) := by
  have hwide : 0x80 ≤ lead.val := by omega
  have hbyte := leadByte_two hlead
  match rest with
  | second :: after =>
      rw [decodeRune_two hwide hbyte]
      split_ifs with hrange
      · exact .valid _ [second] after rfl (encodes_two hlead hrange)
      · exact .invalid hwide
  | [] =>
      rw [decodeRune_short hwide hbyte (by simp)]
      exact .invalid hwide

theorem decoded_three (hlead : 0xE0 ≤ lead.val ∧ lead.val ≤ 0xEF) :
    Decoded lead rest (decodeRune lead rest) := by
  have hwide : 0x80 ≤ lead.val := by omega
  obtain ⟨low, high, hbyte, hsecond⟩ := leadByte_three lead hlead
  match rest with
  | second :: third :: after =>
      rw [decodeRune_three hwide hbyte]
      split_ifs with hrange
      · obtain ⟨hlow, hhigh, hthird⟩ := hrange
        exact .valid _ [second, third] after rfl
          (encodes_three hlead ((hsecond second).1 ⟨hlow, hhigh⟩) (continues_iff.1 hthird))
      · exact .invalid hwide
  | [] | [_] =>
      rw [decodeRune_short hwide hbyte (by simp)]
      exact .invalid hwide

theorem decoded_four (hlead : 0xF0 ≤ lead.val ∧ lead.val ≤ 0xF4) :
    Decoded lead rest (decodeRune lead rest) := by
  have hwide : 0x80 ≤ lead.val := by omega
  obtain ⟨low, high, hbyte, hsecond⟩ := leadByte_four lead hlead
  match rest with
  | second :: third :: fourth :: after =>
      rw [decodeRune_four hwide hbyte]
      split_ifs with hrange
      · obtain ⟨hlow, hhigh, hthird, hfourth⟩ := hrange
        exact .valid _ [second, third, fourth] after rfl
          (encodes_four hlead ((hsecond second).1 ⟨hlow, hhigh⟩) (continues_iff.1 hthird)
            (continues_iff.1 hfourth))
      · exact .invalid hwide
  | [] | [_] | [_, _] =>
      rw [decodeRune_short hwide hbyte (by simp)]
      exact .invalid hwide

end Widths

/-- Whatever is decoded is either the encoding of its value or an invalid byte. -/
theorem decoded_decodeRune (lead : Byte) (rest : GoString) :
    Decoded lead rest (decodeRune lead rest) := by
  by_cases hascii : lead.val < 0x80
  · rw [decodeRune_ascii hascii]
    exact .valid lead.val [] rest rfl (encodes_ascii hascii)
  by_cases htwo : 0xC2 ≤ lead.val ∧ lead.val ≤ 0xDF
  · exact decoded_two rest htwo
  by_cases hthree : 0xE0 ≤ lead.val ∧ lead.val ≤ 0xEF
  · exact decoded_three rest hthree
  by_cases hfour : 0xF0 ≤ lead.val ∧ lead.val ≤ 0xF4
  · exact decoded_four rest hfour
  have hwide : 0x80 ≤ lead.val := not_lt.1 hascii
  rw [decodeRune_none hwide (leadByte_none (by omega))]
  exact .invalid hwide

/-- An encoding is decoded whatever follows it. -/
theorem decodeRune_of_encodes {value : ℕ} {lead : Byte} {tail : GoString}
    (hencodes : Encodes value (lead :: tail)) (rest : GoString) :
    decodeRune lead (tail ++ rest) = ⟨value, lead :: tail⟩ := by
  obtain ⟨hscalar, hencoded⟩ := hencodes
  rw [IsScalar] at hscalar
  have hval (number : ℕ) (hnumber : number < 256) :
      (Fin.ofNat 256 number : Byte).val = number := Nat.mod_eq_of_lt hnumber
  rw [encodeRune] at hencoded
  split_ifs at hencoded with hone htwo hreplaced hthree
  · cases hencoded
    rw [decodeRune_ascii (by rw [hval] <;> omega), hval value (by omega)]
  · cases hencoded
    have hlead := hval (0xC0 + value / 64) (by omega)
    have hsecond := hval (0x80 + value % 64) (by omega)
    rw [List.singleton_append, decodeRune_two (by omega) (leadByte_two (by omega)), if_pos]
    · rw [hlead, hsecond]
      congr 1
      omega
    · exact ⟨show 0x80 ≤ Fin.val _ by omega, show Fin.val _ ≤ 0xBF by omega⟩
  · omega
  · cases hencoded
    have hlead := hval (0xE0 + value / 4096) (by omega)
    have hsecond := hval (0x80 + value / 64 % 64) (by omega)
    have hthird := hval (0x80 + value % 64) (by omega)
    obtain ⟨low, high, hbyte, hrange⟩ :=
      leadByte_three (Fin.ofNat 256 (0xE0 + value / 4096)) (by omega)
    obtain ⟨hlow, hhigh⟩ := (hrange (Fin.ofNat 256 (0x80 + value / 64 % 64))).2
      ⟨by omega, by omega, by omega⟩
    rw [List.cons_append, List.singleton_append, decodeRune_three (by omega) hbyte,
      if_pos ⟨hlow, hhigh, continues_iff.2 (by omega)⟩, hlead, hsecond, hthird]
    congr 1
    omega
  · cases hencoded
    have hlead := hval (0xF0 + value / 262144) (by omega)
    have hsecond := hval (0x80 + value / 4096 % 64) (by omega)
    have hthird := hval (0x80 + value / 64 % 64) (by omega)
    have hfourth := hval (0x80 + value % 64) (by omega)
    obtain ⟨low, high, hbyte, hrange⟩ :=
      leadByte_four (Fin.ofNat 256 (0xF0 + value / 262144)) (by omega)
    obtain ⟨hlow, hhigh⟩ := (hrange (Fin.ofNat 256 (0x80 + value / 4096 % 64))).2
      ⟨by omega, by omega, by omega⟩
    rw [List.cons_append, List.cons_append, List.singleton_append,
      decodeRune_four (by omega) hbyte,
      if_pos ⟨hlow, hhigh, continues_iff.2 (by omega), continues_iff.2 (by omega)⟩, hlead,
      hsecond, hthird, hfourth]
    congr 1
    omega

/-! ## The runes of a string -/

theorem length_raw_ne_zero (lead : Byte) (rest : GoString) :
    (decodeRune lead rest).raw.length ≠ 0 := by
  have hdecoded := decoded_decodeRune lead rest
  generalize decodeRune lead rest = rune at hdecoded
  cases hdecoded <;> simp

theorem decodeUpTo_congr {fuel fuel' : ℕ} {text : GoString} (hfuel : text.length ≤ fuel)
    (hfuel' : text.length ≤ fuel') : decodeUpTo fuel text = decodeUpTo fuel' text := by
  induction fuel generalizing fuel' text with
  | zero =>
      obtain rfl := List.length_eq_zero_iff.1 (Nat.le_zero.1 hfuel)
      cases fuel' <;> rfl
  | succ fuel ih =>
      cases text with
      | nil => cases fuel' <;> rfl
      | cons lead rest =>
          cases fuel' with
          | zero => simp at hfuel'
          | succ fuel' =>
              have hraw := length_raw_ne_zero lead rest
              rw [decodeUpTo, decodeUpTo]
              congr 1
              simp only [List.length_cons] at hfuel hfuel'
              apply ih <;> simp only [List.length_drop, List.length_cons] <;> omega

/-- An encoding is the first rune of a string that starts with it. -/
theorem runes_valid {value : ℕ} {lead : Byte} {tail : GoString}
    (hencodes : Encodes value (lead :: tail)) (rest : GoString) :
    runes (lead :: (tail ++ rest)) = ⟨value, lead :: tail⟩ :: runes rest := by
  rw [runes, List.length_cons, decodeUpTo, decodeRune_of_encodes hencodes]
  simp only [List.length_cons, List.drop_succ_cons, List.drop_left]
  rw [runes, decodeUpTo_congr (by simp) le_rfl]

theorem runes_invalid {lead : Byte} {rest : GoString}
    (hinvalid : decodeRune lead rest = ⟨runeError, [lead]⟩) :
    runes (lead :: rest) = ⟨runeError, [lead]⟩ :: runes rest := by
  rw [runes, List.length_cons, decodeUpTo, hinvalid]
  rfl

/-- Induction on a string by its runes. -/
theorem runes_induction {motive : GoString → Prop} (hnil : motive [])
    (hinvalid : ∀ lead rest, decodeRune lead rest = ⟨runeError, [lead]⟩ → motive rest →
      motive (lead :: rest))
    (hvalid : ∀ value lead tail rest, Encodes value (lead :: tail) → motive rest →
      motive (lead :: (tail ++ rest))) (text : GoString) : motive text := by
  induction hlength : text.length using Nat.strong_induction_on generalizing text with
  | _ length ih =>
      cases text with
      | nil => exact hnil
      | cons lead rest =>
          subst hlength
          have hfound := decoded_decodeRune lead rest
          generalize hdecoded : decodeRune lead rest = rune at hfound
          cases hfound with
          | invalid hlead => exact hinvalid lead rest hdecoded (ih rest.length (by simp) rest rfl)
          | valid value tail after hrest hencodes =>
              subst hrest
              apply hvalid value lead tail after hencodes
              have hshorter : after.length < (lead :: (tail ++ after)).length := by
                rw [List.length_cons, List.length_append]
                omega
              exact ih after.length hshorter after rfl

/-- A rune of some string. -/
inductive IsRune : Rune → Prop
  | invalid (lead : Byte) : IsRune ⟨runeError, [lead]⟩
  | valid (value : ℕ) (lead : Byte) (tail : GoString) (hencodes : Encodes value (lead :: tail)) :
      IsRune ⟨value, lead :: tail⟩

theorem isRune_of_mem_runes (text : GoString) : ∀ rune ∈ runes text, IsRune rune := by
  induction text using runes_induction with
  | hnil => exact fun rune hrune => absurd hrune List.not_mem_nil
  | hinvalid lead rest hinvalid ih =>
      rw [runes_invalid hinvalid]
      exact List.forall_mem_cons.2 ⟨.invalid lead, ih⟩
  | hvalid value lead tail rest hencodes ih =>
      rw [runes_valid hencodes]
      exact List.forall_mem_cons.2 ⟨.valid value lead tail hencodes, ih⟩

/-- An encoding that goes on after its leading byte has no ASCII. -/
theorem Encodes.high_of_mem {value : ℕ} {lead byte : Byte} {tail : GoString}
    (hencodes : Encodes value (lead :: tail)) (hbyte : byte ∈ tail) : 0x80 ≤ byte.val := by
  by_cases hvalue : value < 0x80
  · have hraw := hencodes.eq_of_ascii hvalue
    rw [(List.cons.inj hraw).2] at hbyte
    exact absurd hbyte List.not_mem_nil
  · exact hencodes.high (not_lt.1 hvalue) byte (List.mem_cons_of_mem _ hbyte)

/-- A byte that is no rune with what follows it is none either if an ASCII byte and more
text come after that. -/
theorem decodeRune_append_ascii {lead byte : Byte} {rest : GoString}
    (hinvalid : decodeRune lead rest = ⟨runeError, [lead]⟩) (hbyte : byte.val < 0x80)
    (more : GoString) : decodeRune lead (rest ++ byte :: more) = ⟨runeError, [lead]⟩ := by
  have hfound := decoded_decodeRune lead (rest ++ byte :: more)
  generalize hdecoded : decodeRune lead (rest ++ byte :: more) = rune at hfound
  cases hfound with
  | invalid hlead => rfl
  | valid value tail after hrest hencodes =>
      -- The encoding ends before the ASCII byte, so it was there without it.
      rcases List.append_eq_append_iff.1 hrest with
        ⟨between, rfl, hbetween⟩ | ⟨between, rfl, _⟩
      · cases between with
        | nil =>
            rw [List.append_nil] at hencodes ⊢
            have hsame := decodeRune_of_encodes hencodes []
            rw [List.append_nil, hinvalid] at hsame
            exact hsame.symm
        | cons first between =>
            obtain ⟨rfl, _⟩ := List.cons.inj hbetween
            have hhigh : 0x80 ≤ byte.val := hencodes.high_of_mem (by simp)
            omega
      · rw [← hinvalid, decodeRune_of_encodes hencodes]

/-- No rune extends over an ASCII byte. -/
theorem runes_append_ascii (text : GoString) {byte : Byte} (hbyte : byte.val < 0x80)
    (more : GoString) :
    runes (text ++ byte :: more) = runes text ++ ⟨byte.val, [byte]⟩ :: runes more := by
  induction text using runes_induction with
  | hnil => exact runes_valid (encodes_ascii hbyte) more
  | hinvalid lead rest hinvalid ih =>
      rw [List.cons_append, runes_invalid (decodeRune_append_ascii hinvalid hbyte more), ih,
        runes_invalid hinvalid, List.cons_append]
  | hvalid value lead tail rest hencodes ih =>
      rw [List.cons_append, List.append_assoc, runes_valid hencodes, ih, runes_valid hencodes,
        List.cons_append]

/-- The runes of a string are made of its bytes. -/
theorem flatMap_raw_runes (text : GoString) : (runes text).flatMap Rune.raw = text := by
  induction text using runes_induction with
  | hnil => rfl
  | hinvalid lead rest hinvalid ih => rw [runes_invalid hinvalid, List.flatMap_cons, ih]; rfl
  | hvalid value lead tail rest hencodes ih =>
      rw [runes_valid hencodes, List.flatMap_cons, ih]
      rfl

/-! ## Valid strings -/

/-- `utf8.ValidString`. -/
def ValidString (text : GoString) : Prop := ∀ rune ∈ runes text, ¬ Rune.Invalid rune

instance : DecidablePred ValidString := fun _ => inferInstanceAs (Decidable (∀ _ ∈ _, _))

/-- The string with U+FFFD in place of each invalid byte. -/
def sanitize (text : GoString) : GoString :=
  (runes text).flatMap fun rune => encodeRune rune.value

theorem isScalar_runeError : IsScalar runeError := Or.inr (by decide)

theorem Encodes.not_invalid {value : ℕ} {raw : GoString} (hencodes : Encodes value raw) :
    ¬ Rune.Invalid ⟨value, raw⟩ := by
  rintro ⟨hvalue, hlength⟩
  change value = runeError at hvalue
  rw [← hencodes.encoded, hvalue] at hlength
  exact absurd hlength (by decide)

theorem sanitize_invalid {lead : Byte} {rest : GoString}
    (hinvalid : decodeRune lead rest = ⟨runeError, [lead]⟩) :
    sanitize (lead :: rest) = encodeRune runeError ++ sanitize rest := by
  rw [sanitize, runes_invalid hinvalid, List.flatMap_cons, sanitize]

theorem sanitize_valid {value : ℕ} {lead : Byte} {tail : GoString}
    (hencodes : Encodes value (lead :: tail)) (rest : GoString) :
    sanitize (lead :: (tail ++ rest)) = lead :: (tail ++ sanitize rest) := by
  rw [sanitize, runes_valid hencodes, List.flatMap_cons, hencodes.encoded, sanitize,
    List.cons_append]

/-- Each invalid byte makes the string two bytes longer. -/
theorem length_sanitize (text : GoString) :
    (sanitize text).length =
      text.length + 2 * (runes text).countP fun rune => Rune.Invalid rune := by
  induction text using runes_induction with
  | hnil => rfl
  | hinvalid lead rest hinvalid ih =>
      have hreplaced : (encodeRune runeError).length = 3 := rfl
      rw [sanitize_invalid hinvalid, runes_invalid hinvalid, List.length_append, hreplaced, ih,
        List.countP_cons_of_pos (by simp [Rune.Invalid]), List.length_cons]
      omega
  | hvalid value lead tail rest hencodes ih =>
      rw [sanitize_valid hencodes, runes_valid hencodes,
        List.countP_cons_of_neg (by simpa using hencodes.not_invalid)]
      simp only [List.length_cons, List.length_append, ih]
      omega

theorem sanitize_of_valid {text : GoString} (hvalid : ValidString text) : sanitize text = text := by
  induction text using runes_induction with
  | hnil => rfl
  | hinvalid lead rest hinvalid ih =>
      rw [ValidString, runes_invalid hinvalid] at hvalid
      exact absurd ⟨rfl, rfl⟩ (hvalid _ List.mem_cons_self)
  | hvalid value lead tail rest hencodes ih =>
      rw [ValidString, runes_valid hencodes] at hvalid
      rw [sanitize_valid hencodes, ih fun rune hrune => hvalid rune (List.mem_cons_of_mem _ hrune)]

/-- Sanitizing leaves exactly the valid strings as they are. -/
theorem sanitize_eq_self_iff {text : GoString} : sanitize text = text ↔ ValidString text := by
  constructor
  · intro hsame rune hrune hinvalid
    have hcount : 0 < (runes text).countP fun rune => Rune.Invalid rune :=
      List.countP_pos_iff.2 ⟨rune, hrune, by simpa using hinvalid⟩
    have hlength := length_sanitize text
    rw [hsame] at hlength
    omega
  · exact sanitize_of_valid

/-- Every encoding is not empty. -/
theorem exists_encodes {value : ℕ} (hscalar : IsScalar value) :
    ∃ lead tail, Encodes value (lead :: tail) ∧ encodeRune value = lead :: tail := by
  have hne : encodeRune value ≠ [] := by
    rw [encodeRune]
    split_ifs <;> simp
  obtain ⟨lead, tail, hencoded⟩ := List.exists_cons_of_ne_nil hne
  exact ⟨lead, tail, ⟨hscalar, hencoded⟩, hencoded⟩

theorem runes_encodeRune_append {value : ℕ} (hscalar : IsScalar value) (rest : GoString) :
    runes (encodeRune value ++ rest) = ⟨value, encodeRune value⟩ :: runes rest := by
  obtain ⟨lead, tail, hencodes, hencoded⟩ := exists_encodes hscalar
  rw [hencoded]
  exact runes_valid hencodes rest

theorem validString_sanitize (text : GoString) : ValidString (sanitize text) := by
  induction text using runes_induction with
  | hnil => exact fun rune hrune => absurd hrune List.not_mem_nil
  | hinvalid lead rest hinvalid ih =>
      rw [ValidString, sanitize_invalid hinvalid, runes_encodeRune_append isScalar_runeError]
      exact List.forall_mem_cons.2 ⟨by decide, ih⟩
  | hvalid value lead tail rest hencodes ih =>
      rw [ValidString, sanitize_valid hencodes, runes_valid hencodes]
      exact List.forall_mem_cons.2 ⟨hencodes.not_invalid, ih⟩

end KernelSeal.Utf8

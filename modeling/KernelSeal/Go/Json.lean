import KernelSeal.Core.Parsing
import KernelSeal.Go.Utf8

/-!
# `encoding/json`

Messages made of objects, strings and booleans, as `json.Encoder` writes and
`json.Decoder` reads them.  Strings are written with U+FFFD in place of invalid
bytes, and reading undoes everything else.  A value is read as soon as its text is
complete, and no proper prefix of the text is read as a value.
-/

namespace KernelSeal.Json

open KernelSeal.Text
open KernelSeal.Utf8
open KernelSeal.Parsing

/-- A JSON value without numbers, arrays and null.  The messages of the two programs have
none of these, and a text that contains one is not read here. -/
inductive Value where
  | bool (value : Bool)
  | string (text : GoString)
  | object (members : List (GoString × Value))

/-! ## Encoding -/

/-- One rune of `appendString`, with HTML escaping. -/
def escapeRune (rune : Rune) : GoString :=
  if Rune.Invalid rune then str "\\ufffd"
  else if rune.value = 34 ∨ rune.value = 92 then [92, Fin.ofNat 256 rune.value]
  else if rune.value = 8 then str "\\b"
  else if rune.value = 12 then str "\\f"
  else if rune.value = 10 then str "\\n"
  else if rune.value = 13 then str "\\r"
  else if rune.value = 9 then str "\\t"
  else if rune.value < 32 ∨ rune.value = 60 ∨ rune.value = 62 ∨ rune.value = 38 then
    str "\\u00" ++ hex 2 rune.value
  else if rune.value = 0x2028 ∨ rune.value = 0x2029 then
    str "\\u202" ++ [hexDigit (rune.value % 16)]
  else rune.raw

/-- The text of a string after its opening quote. -/
def stringText (text : GoString) : GoString := (runes text).flatMap escapeRune ++ [34]

mutual

/-- The text of a value, as `Encode` writes it without the newline. -/
def encode : Value → GoString
  | .bool true => str "true"
  | .bool false => str "false"
  | .string text => 34 :: stringText text
  | .object [] => [123, 125]
  | .object ((key, value) :: members) =>
      123 :: 34 :: (stringText key ++ 58 :: (encode value ++ encodeMembers members))

/-- The text of the remaining members and of the end of an object. -/
def encodeMembers : List (GoString × Value) → GoString
  | [] => [125]
  | (key, value) :: members =>
      44 :: 34 :: (stringText key ++ 58 :: (encode value ++ encodeMembers members))

end

/-! ## Decoding -/

/-- The literal up to the closing quote, with its escapes. -/
def scanLiteral : Parser Byte GoString
  | [] => none
  | byte :: rest =>
      if byte = 34 then some ([], rest)
      else if byte < 32 then none
      else if byte = 92 then
        match rest with
        | [] => none
        | escaped :: rest =>
            if escaped ∈ str "\"\\/bfnrtu" then
              (scanLiteral rest).map fun found => (byte :: escaped :: found.1, found.2)
            else none
      else (scanLiteral rest).map fun found => (byte :: found.1, found.2)

/-- The value of a hexadecimal digit. -/
def hexValue (byte : Byte) : Option ℕ :=
  if 48 ≤ byte ∧ byte ≤ 57 then some (byte.val - 48)
  else if 97 ≤ byte ∧ byte ≤ 102 then some (byte.val - 87)
  else if 65 ≤ byte ∧ byte ≤ 70 then some (byte.val - 55)
  else none

/-- `getu4`: four hexadecimal digits after `\u`. -/
def getu4 : GoString → Option (ℕ × GoString)
  | first :: second :: third :: fourth :: rest => do
      let first ← hexValue first
      let second ← hexValue second
      let third ← hexValue third
      let fourth ← hexValue fourth
      some (((first * 16 + second) * 16 + third) * 16 + fourth, rest)
  | _ => none

/-- The byte of a one-letter escape. -/
def escapedByte (byte : Byte) : Option Byte :=
  if byte = 34 ∨ byte = 92 ∨ byte = 47 then some byte
  else if byte = 98 then some 8
  else if byte = 102 then some 12
  else if byte = 110 then some 10
  else if byte = 114 then some 13
  else if byte = 116 then some 9
  else none

/-- What follows the high half of a surrogate pair completes it. -/
def lowSurrogate : GoString → Option (ℕ × GoString)
  | 92 :: 117 :: digits => do
      let (value, rest) ← getu4 digits
      if 0xDC00 ≤ value ∧ value ≤ 0xDFFF then some (value, rest) else none
  | _ => none

/-- A rune written as `\u`; half of a surrogate pair is read as `runeError`. -/
def unquoteHex (digits : GoString) : Option (GoString × GoString) := do
  let (value, rest) ← getu4 digits
  if 0xD800 ≤ value ∧ value ≤ 0xDBFF then
    match lowSurrogate rest with
    | some (low, rest) =>
        some (encodeRune ((value - 0xD800) * 1024 + (low - 0xDC00) + 0x10000), rest)
    | none => some (encodeRune runeError, rest)
  else some (encodeRune value, rest)

/-- The first rune of a literal, and the literal after it. -/
def unquoteRune (lead : Byte) (rest : GoString) : Option (GoString × GoString) :=
  if lead = 92 then
    match rest with
    | [] => none
    | escaped :: rest =>
        if escaped = 117 then unquoteHex rest
        else (escapedByte escaped).map fun byte => ([byte], rest)
  else
    let rune := decodeRune lead rest
    some (encodeRune rune.value, (lead :: rest).drop rune.raw.length)

/-- Read at most `fuel` runes; every rune takes at least one byte. -/
def unquoteUpTo : ℕ → GoString → Option GoString
  | _, [] => some []
  | 0, _ :: _ => none
  | fuel + 1, lead :: rest => do
      let (bytes, rest) ← unquoteRune lead rest
      let text ← unquoteUpTo fuel rest
      some (bytes ++ text)

/-- `unquote`. -/
def unquote (literal : GoString) : Option GoString := unquoteUpTo literal.length literal

/-- A string after its opening quote. -/
def parseString : Parser Byte GoString := do
  let literal ← scanLiteral
  match unquote literal with
  | none => failure
  | some text => pure text

/-- The space between tokens. -/
def isJsonSpace (byte : Byte) : Bool := byte = 32 ∨ byte = 9 ∨ byte = 13 ∨ byte = 10

mutual

/-- A value, nested at most `fuel` deep. -/
def parseValue : ℕ → Parser Byte Value
  | 0 => failure
  | fuel + 1 => do
      let byte ← token isJsonSpace
      if byte = 34 then
        let text ← parseString
        pure (.string text)
      else if byte = 116 then
        literal (str "rue")
        pure (.bool true)
      else if byte = 102 then
        literal (str "alse")
        pure (.bool false)
      else if byte = 123 then
        let byte ← token isJsonSpace
        if byte = 125 then pure (.object [])
        else if byte = 34 then
          let members ← parseMembers fuel
          pure (.object members)
        else failure
      else failure

/-- The members of an object after the quote that opens the first key. -/
def parseMembers : ℕ → Parser Byte (List (GoString × Value))
  | 0 => failure
  | fuel + 1 => do
      let key ← parseString
      let colon ← token isJsonSpace
      if colon = 58 then
        let value ← parseValue fuel
        let byte ← token isJsonSpace
        if byte = 125 then pure [(key, value)]
        else if byte = 44 then
          let quote ← token isJsonSpace
          if quote = 34 then
            let members ← parseMembers fuel
            pure ((key, value) :: members)
          else failure
        else failure
      else failure

end

/-- `Decode`: the value at the head of a stream. -/
def decode (text : GoString) : Option Value := ((parseValue text.length).run text).map Prod.fst

/-! ## Literals -/

/-- The piece of a literal is scanned as a whole. -/
def Scans (piece : GoString) : Prop :=
  ∀ tail, scanLiteral (piece ++ tail) =
    (scanLiteral tail).map fun found => (piece ++ found.1, found.2)

theorem Scans.append {first second : GoString} (hfirst : Scans first) (hsecond : Scans second) :
    Scans (first ++ second) := by
  intro tail
  rw [List.append_assoc, hfirst, hsecond]
  cases scanLiteral tail with
  | none => rfl
  | some found => simp

theorem scanLiteral_quote (rest : GoString) : scanLiteral (34 :: rest) = some ([], rest) := by
  rw [scanLiteral.eq_def]
  exact if_pos rfl

theorem scans_nil : Scans [] := by
  intro tail
  cases htail : scanLiteral tail with
  | none => simp [htail]
  | some found => simp [htail]

theorem scans_byte {byte : Byte} (hquote : byte ≠ 34) (hcontrol : 32 ≤ byte.val)
    (hescape : byte ≠ 92) : Scans [byte] := by
  intro tail
  have hprintable : ¬ byte < 32 := fun hlt => absurd (Fin.lt_def.1 hlt) (not_lt.2 hcontrol)
  rw [List.singleton_append, scanLiteral.eq_def]
  simp only [if_neg hquote, if_neg hprintable, if_neg hescape]
  rfl

theorem scans_escape {escaped : Byte} (hescaped : escaped ∈ str "\"\\/bfnrtu") :
    Scans [92, escaped] := by
  intro tail
  rw [List.cons_append, List.singleton_append, scanLiteral.eq_def]
  simp only [if_pos hescaped]
  rfl

/-- A byte that stands for itself in a literal. -/
structure Plain (byte : Byte) : Prop where
  notQuote : byte ≠ 34
  printable : 32 ≤ byte.val
  notEscape : byte ≠ 92

theorem scans_plain {piece : GoString} (hpiece : ∀ byte ∈ piece, Plain byte) : Scans piece := by
  induction piece with
  | nil => exact scans_nil
  | cons byte piece ih =>
      obtain ⟨hbyte, hrest⟩ := List.forall_mem_cons.1 hpiece
      exact (scans_byte hbyte.notQuote hbyte.printable hbyte.notEscape).append (ih hrest)

theorem hexValue_hexDigit {digit : ℕ} (hdigit : digit < 16) :
    hexValue (hexDigit digit) = some digit := by
  revert digit
  decide

theorem plain_hexDigit {digit : ℕ} (hdigit : digit < 16) : Plain (hexDigit digit) := by
  have hbyte : ∀ digit < 16, hexDigit digit ≠ 34 ∧ 32 ≤ (hexDigit digit).val ∧
      hexDigit digit ≠ 92 := by
    decide
  obtain ⟨hquote, hprintable, hescape⟩ := hbyte digit hdigit
  exact ⟨hquote, hprintable, hescape⟩

/-- Four digits of a literal, as they are read. -/
structure HexDigits (digits : GoString) (value : ℕ) : Prop where
  read : ∀ tail, getu4 (digits ++ tail) = some (value, tail)
  plain : ∀ byte ∈ digits, Plain byte

theorem hexDigits_of_lt (first second third fourth : ℕ) (hfirst : first < 16)
    (hsecond : second < 16) (hthird : third < 16) (hfourth : fourth < 16) :
    HexDigits [hexDigit first, hexDigit second, hexDigit third, hexDigit fourth]
      (((first * 16 + second) * 16 + third) * 16 + fourth) where
  read tail := by
    simp only [List.cons_append, List.nil_append, getu4, hexValue_hexDigit hfirst,
      hexValue_hexDigit hsecond, hexValue_hexDigit hthird, hexValue_hexDigit hfourth,
      Option.bind_eq_bind, Option.bind_some]
  plain := by
    simp only [List.forall_mem_cons, List.not_mem_nil, false_implies, implies_true, and_true]
    exact ⟨plain_hexDigit hfirst, plain_hexDigit hsecond, plain_hexDigit hthird,
      plain_hexDigit hfourth⟩

/-- How a rune is written. -/
inductive Escaped (rune : Rune) : GoString → Prop
  | letter (byte escaped : Byte) (hvalue : encodeRune rune.value = [byte])
      (hescaped : escapedByte escaped = some byte) (hscanned : escaped ∈ str "\"\\/bfnrtu")
      (hletter : escaped ≠ 117) : Escaped rune [92, escaped]
  | hex (digits : GoString) (hdigits : HexDigits digits rune.value)
      (hvalue : ¬ (0xD800 ≤ rune.value ∧ rune.value ≤ 0xDBFF)) :
      Escaped rune (92 :: 117 :: digits)
  | plain (lead : Byte) (tail : GoString) (hencodes : Encodes rune.value (lead :: tail))
      (hplain : ∀ byte ∈ lead :: tail, Plain byte) : Escaped rune (lead :: tail)

/-- The bytes of a rune that is not escaped. -/
theorem plain_of_encodes {value : ℕ} {raw : GoString} (hencodes : Encodes value raw)
    (hquote : ¬ (value = 34 ∨ value = 92)) (hcontrol : 32 ≤ value) : ∀ byte ∈ raw, Plain byte := by
  intro byte hbyte
  by_cases hascii : value < 0x80
  · rw [hencodes.eq_of_ascii hascii, List.mem_singleton] at hbyte
    have hval : byte.val = value := by
      rw [hbyte]
      exact Nat.mod_eq_of_lt (by omega)
    have hne {other : Byte} (hother : value ≠ other.val) : byte ≠ other :=
      fun hsame => hother (hval.symm.trans (congrArg Fin.val hsame))
    exact ⟨hne (not_or.1 hquote).1, by omega, hne (not_or.1 hquote).2⟩
  · have hhigh := hencodes.high (not_lt.1 hascii) byte hbyte
    have hne {other : Byte} (hother : other.val < 0x80) : byte ≠ other :=
      fun hsame => absurd (hsame ▸ hhigh) (not_le.2 hother)
    exact ⟨hne (by decide), by omega, hne (by decide)⟩

theorem escaped_escapeRune {rune : Rune} (hrune : IsRune rune) :
    Escaped rune (escapeRune rune) := by
  cases hrune with
  | invalid lead =>
      rw [escapeRune, if_pos ⟨rfl, rfl⟩]
      exact .hex (str "fffd")
        (hexDigits_of_lt 15 15 15 13 (by decide) (by decide) (by decide) (by decide))
        (show ¬ (0xD800 ≤ runeError ∧ runeError ≤ 0xDBFF) by decide)
  | valid value lead tail hencodes =>
      rw [escapeRune, if_neg hencodes.not_invalid]
      dsimp only
      split_ifs with hquote hbackspace hfeed hnewline hreturn htab hcontrol hseparator
      · rcases hquote with rfl | rfl
        · exact .letter 34 34 rfl rfl (by decide) (by decide)
        · exact .letter 92 92 rfl rfl (by decide) (by decide)
      · subst hbackspace
        exact .letter 8 98 rfl rfl (by decide) (by decide)
      · subst hfeed
        exact .letter 12 102 rfl rfl (by decide) (by decide)
      · subst hnewline
        exact .letter 10 110 rfl rfl (by decide) (by decide)
      · subst hreturn
        exact .letter 13 114 rfl rfl (by decide) (by decide)
      · subst htab
        exact .letter 9 116 rfl rfl (by decide) (by decide)
      · have hdigits := hexDigits_of_lt 0 0 (value / 16 % 16) (value % 16) (by decide) (by decide)
          (Nat.mod_lt _ (by decide)) (Nat.mod_lt _ (by decide))
        have hvalue : ((0 * 16 + 0) * 16 + value / 16 % 16) * 16 + value % 16 = value := by
          omega
        rw [hvalue] at hdigits
        exact .hex _ hdigits (show ¬ (0xD800 ≤ value ∧ value ≤ 0xDBFF) by omega)
      · rcases hseparator with rfl | rfl
        · exact .hex (str "2028")
            (hexDigits_of_lt 2 0 2 8 (by decide) (by decide) (by decide) (by decide))
            (show ¬ (0xD800 ≤ 0x2028 ∧ 0x2028 ≤ 0xDBFF) by decide)
        · exact .hex (str "2029")
            (hexDigits_of_lt 2 0 2 9 (by decide) (by decide) (by decide) (by decide))
            (show ¬ (0xD800 ≤ 0x2029 ∧ 0x2029 ≤ 0xDBFF) by decide)
      · exact .plain lead tail hencodes (plain_of_encodes hencodes hquote (by omega))

theorem Escaped.scans {rune : Rune} {piece : GoString} (hescaped : Escaped rune piece) :
    Scans piece := by
  cases hescaped with
  | letter byte escaped hvalue hescaped hscanned hletter => exact scans_escape hscanned
  | hex digits hdigits hvalue =>
      exact (scans_escape (by decide)).append (scans_plain hdigits.plain)
  | plain lead tail hencodes hplain => exact scans_plain hplain

/-- A rune is read back as the encoding of its value. -/
theorem Escaped.unquoteRune_eq {rune : Rune} {piece : GoString} (hescaped : Escaped rune piece) :
    ∃ lead tail, piece = lead :: tail ∧
      ∀ rest, unquoteRune lead (tail ++ rest) = some (encodeRune rune.value, rest) := by
  cases hescaped with
  | letter byte escaped hvalue hescaped hscanned hletter =>
      refine ⟨92, [escaped], rfl, fun rest => ?_⟩
      rw [unquoteRune.eq_def, if_pos rfl, hvalue]
      simp only [List.singleton_append, if_neg hletter, hescaped, Option.map_some]
  | hex digits hdigits hvalue =>
      refine ⟨92, 117 :: digits, rfl, fun rest => ?_⟩
      rw [unquoteRune.eq_def, if_pos rfl]
      simp only [List.cons_append, if_true, unquoteHex, hdigits.read, Option.bind_eq_bind,
        Option.bind_some, if_neg hvalue]
  | plain lead tail hencodes hplain =>
      refine ⟨lead, tail, rfl, fun rest => ?_⟩
      rw [unquoteRune.eq_def, if_neg (hplain lead List.mem_cons_self).notEscape,
        decodeRune_of_encodes hencodes]
      simp only [List.length_cons, List.drop_succ_cons, List.drop_left]

/-- The literal of a string. -/
def literalOf (text : GoString) : GoString := (runes text).flatMap escapeRune

theorem scans_literalOf (text : GoString) : Scans (literalOf text) := by
  have hrunes := isRune_of_mem_runes text
  rw [literalOf]
  generalize runes text = runes at hrunes
  induction runes with
  | nil => exact scans_nil
  | cons rune runes ih =>
      obtain ⟨hrune, hrest⟩ := List.forall_mem_cons.1 hrunes
      exact (escaped_escapeRune hrune).scans.append (ih hrest)

theorem unquoteUpTo_flatMap {runes : List Rune} (hrunes : ∀ rune ∈ runes, IsRune rune) {fuel : ℕ}
    (hfuel : (runes.flatMap escapeRune).length ≤ fuel) :
    unquoteUpTo fuel (runes.flatMap escapeRune) =
      some (runes.flatMap fun rune => encodeRune rune.value) := by
  induction runes generalizing fuel with
  | nil => cases fuel <;> rfl
  | cons rune runes ih =>
      obtain ⟨hrune, hrest⟩ := List.forall_mem_cons.1 hrunes
      obtain ⟨lead, tail, hpiece, hread⟩ := (escaped_escapeRune hrune).unquoteRune_eq
      rw [List.flatMap_cons, hpiece, List.cons_append] at hfuel ⊢
      cases fuel with
      | zero => simp at hfuel
      | succ fuel =>
          have hshorter : (runes.flatMap escapeRune).length ≤ fuel := by
            simp only [List.length_cons, List.length_append] at hfuel
            omega
          rw [unquoteUpTo, hread, Option.bind_eq_bind, Option.bind_some]
          dsimp only
          rw [ih hrest hshorter]
          rfl

/-- Reading a literal undoes its escapes. -/
theorem unquote_literalOf (text : GoString) : unquote (literalOf text) = some (sanitize text) :=
  unquoteUpTo_flatMap (isRune_of_mem_runes text) le_rfl

theorem yields_parseString (text : GoString) :
    Yields parseString (stringText text) (sanitize text) := by
  intro rest
  have hscanned : scanLiteral (stringText text ++ rest) = some (literalOf text, rest) := by
    rw [stringText, List.append_assoc, ← literalOf, scans_literalOf, List.singleton_append,
      scanLiteral_quote, Option.map_some, List.append_nil]
  rw [parseString, StateT.run_bind]
  change (scanLiteral (stringText text ++ rest)).bind _ = _
  rw [hscanned, Option.bind_some]
  dsimp only
  rw [unquote_literalOf]
  rfl

theorem extends_scanLiteral : Extends scanLiteral scanLiteral := by
  intro text value rest hrun more
  change scanLiteral text = some (value, rest) at hrun
  change scanLiteral (text ++ more) = some (value, rest ++ more)
  fun_induction scanLiteral text generalizing value with
  | case2 =>
      cases hrun
      exact scanLiteral_quote _
  | case5 escaped after hescaped _ _ ih =>
      obtain ⟨⟨literal, left⟩, hfound, heq⟩ := Option.map_eq_some_iff.1 hrun
      cases heq
      have hmore := scans_escape hescaped (after ++ more)
      rw [ih literal hfound] at hmore
      exact hmore
  | case7 byte after hquote hcontrol hescape ih =>
      obtain ⟨⟨literal, left⟩, hfound, heq⟩ := Option.map_eq_some_iff.1 hrun
      cases heq
      have hmore := scans_byte hquote (not_lt.1 hcontrol) hescape (after ++ more)
      rw [ih literal hfound] at hmore
      exact hmore
  | _ => cases hrun

theorem extends_parseString : Extends parseString parseString := by
  refine extends_scanLiteral.bind fun literal => ?_
  cases unquote literal with
  | none => exact extends_failure
  | some text => exact extends_pure text

/-! ## Values -/

mutual

/-- The value with U+FFFD in place of each invalid byte of its strings. -/
def Value.sanitize : Value → Value
  | .bool value => .bool value
  | .string text => .string (Utf8.sanitize text)
  | .object members => .object (sanitizeMembers members)

def sanitizeMembers : List (GoString × Value) → List (GoString × Value)
  | [] => []
  | (key, value) :: members => (Utf8.sanitize key, value.sanitize) :: sanitizeMembers members

end

/-- What follows the quote that opens the first key of an object. -/
def membersText (key : GoString) (value : Value) (members : List (GoString × Value)) : GoString :=
  stringText key ++ 58 :: (encode value ++ encodeMembers members)

/-- The first token of a value decides how it is read. -/
theorem yields_token_bind {α : Type} {byte : Byte} (hspace : isJsonSpace byte = false)
    {next : Byte → Parser Byte α} {text : GoString} {value : α}
    (hnext : Yields (next byte) text value) :
    Yields (token isJsonSpace >>= next) (byte :: text) value :=
  (yields_token hspace).bind hnext

theorem length_encode_pos (value : Value) : 0 < (encode value).length := by
  match value with
  | .bool true | .bool false =>
      rw [encode]
      decide
  | .string _ | .object [] | .object ((_, _) :: _) =>
      rw [encode]
      exact Nat.succ_pos _

mutual

/-- The text of a value is read to its end, and to the sanitized value. -/
theorem yields_parseValue (value : Value) {fuel : ℕ} (hfuel : (encode value).length ≤ fuel) :
    Yields (parseValue fuel) (encode value) value.sanitize := by
  cases fuel with
  | zero => exact absurd hfuel (not_le.2 (length_encode_pos value))
  | succ fuel =>
      rw [parseValue]
      match value with
      | .bool true =>
          rw [encode, show str "true" = 116 :: str "rue" by decide]
          refine yields_token_bind rfl ?_
          rw [if_neg (by decide), if_pos rfl]
          exact (yields_literal (str "rue")).bind_pure fun _ => Value.bool true
      | .bool false =>
          rw [encode, show str "false" = 102 :: str "alse" by decide]
          refine yields_token_bind rfl ?_
          rw [if_neg (by decide), if_neg (by decide), if_pos rfl]
          exact (yields_literal (str "alse")).bind_pure fun _ => Value.bool false
      | .string text =>
          rw [encode]
          exact yields_token_bind rfl ((yields_parseString text).bind_pure Value.string)
      | .object [] =>
          rw [encode]
          exact yields_token_bind rfl (yields_token_bind rfl (yields_pure (Value.object [])))
      | .object ((key, value) :: members) =>
          rw [encode] at hfuel ⊢
          have hmembers : (membersText key value members).length ≤ fuel := by
            simp only [List.length_cons] at hfuel
            rw [membersText]
            omega
          exact yields_token_bind rfl (yields_token_bind rfl
            ((yields_parseMembers key value members hmembers (yields_parseValue value)).bind_pure
              Value.object))

theorem yields_parseMembers (key : GoString) (value : Value) (members : List (GoString × Value))
    {fuel : ℕ} (hfuel : (membersText key value members).length ≤ fuel)
    (hvalue : ∀ {fuel : ℕ}, (encode value).length ≤ fuel →
      Yields (parseValue fuel) (encode value) value.sanitize) :
    Yields (parseMembers fuel) (membersText key value members)
      ((Utf8.sanitize key, value.sanitize) :: sanitizeMembers members) := by
  cases fuel with
  | zero => simp [membersText] at hfuel
  | succ fuel =>
      simp only [membersText, List.length_append, List.length_cons] at hfuel
      rw [parseMembers, membersText]
      refine (yields_parseString key).bind (yields_token_bind rfl ?_)
      rw [if_pos rfl]
      refine (hvalue (by omega)).bind ?_
      match members with
      | [] =>
          rw [encodeMembers]
          exact yields_token_bind rfl (yields_pure _)
      | (nextKey, nextValue) :: members =>
          rw [encodeMembers] at hfuel ⊢
          have hmembers : (membersText nextKey nextValue members).length ≤ fuel := by
            simp only [List.length_cons] at hfuel
            rw [membersText]
            omega
          refine yields_token_bind rfl ?_
          rw [if_neg (by decide), if_pos rfl]
          exact yields_token_bind rfl ((yields_parseMembers nextKey nextValue members hmembers
            (yields_parseValue nextValue)).bind_pure _)

end

theorem extends_parse {fuel fuel' : ℕ} (hfuel : fuel ≤ fuel') :
    Extends (parseValue fuel) (parseValue fuel') ∧
      Extends (parseMembers fuel) (parseMembers fuel') := by
  induction fuel generalizing fuel' with
  | zero =>
      constructor
      · intro text value rest hrun
        cases hrun
      · intro text value rest hrun
        cases hrun
  | succ fuel ih =>
      cases fuel' with
      | zero => simp at hfuel
      | succ fuel' =>
          obtain ⟨hvalue, hmembers⟩ := ih (Nat.le_of_succ_le_succ hfuel)
          rw [parseValue, parseValue, parseMembers, parseMembers]
          constructor
          · refine extends_token.bind fun byte => (extends_parseString.bind_pure _).ite
              (((extends_literal _).bind_pure _).ite (((extends_literal _).bind_pure _).ite
                (Extends.ite (extends_token.bind fun byte => ?_) extends_failure)))
            exact (extends_pure _).ite ((hmembers.bind_pure _).ite extends_failure)
          · refine extends_parseString.bind fun key => extends_token.bind fun colon =>
              Extends.ite (hvalue.bind fun value => extends_token.bind fun byte => ?_)
                extends_failure
            refine (extends_pure _).ite (Extends.ite (extends_token.bind fun quote => ?_)
              extends_failure)
            exact (hmembers.bind_pure _).ite extends_failure

/-- A value is decoded as soon as its text is complete. -/
theorem decode_encode (value : Value) (rest : GoString) :
    decode (encode value ++ rest) = some value.sanitize := by
  have hyields := yields_parseValue value (List.length_append ▸ Nat.le_add_right _ rest.length)
  rw [decode, hyields]
  rfl

/-- Text that is cut off is not decoded. -/
theorem decode_take {value : Value} {length : ℕ} (hlength : length < (encode value).length) :
    decode ((encode value).take length) = none := by
  have hextends := (extends_parse (List.length_take_le' length (encode value))).1
  have hrest : (encode value).drop length ≠ [] := by
    rw [Ne, List.drop_eq_nil_iff]
    omega
  rw [decode, hextends.none_of_lt (yields_parseValue value le_rfl)
    (List.take_append_drop length _) hrest]
  rfl

end KernelSeal.Json

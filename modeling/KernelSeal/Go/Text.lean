import Mathlib.Data.Finmap
import Mathlib.Data.Nat.Digits.Defs
import Mathlib.Data.List.Sort
import Mathlib.Data.List.DropRight
import Mathlib.Order.Fin.Basic
import Mathlib.Order.Lex

/-!
# Go strings and the standard library's text functions

A Go string is a sequence of bytes that need not be valid UTF-8.  This file
models the functions of `strings`, `strconv`, `fmt`, `sort` and
`path/filepath` that the agent applies to such strings.  Everything below
`0x80` is spelled out; the case and printability tables for the remaining
runes are data of the Go distribution and are a parameter (`Unicode`), so every
result holds whatever version of those tables the agent was built with.
-/

namespace KernelSeal.Text

abbrev Byte := Fin 256
abbrev GoString := List Byte

/-- There are bytes, so numerals denote some. -/
instance byteCount_neZero : NeZero 256 := ⟨by decide⟩

/-- Whether a string holds a byte is decided by a search. -/
instance decidableHolds (byte : Byte) (text : GoString) : Decidable (byte ∈ text) :=
  decidable_of_iff (text.contains byte = true) List.contains_iff_mem

/-- The bytes of a string literal in the source. -/
def str (text : String) : GoString :=
  (text.toList.flatMap String.utf8EncodeChar).map fun byte => Fin.ofNat 256 byte.toNat

/-- `map[string]string`.  Two maps with the same entries are equal. -/
abbrev StringMap := Finmap fun _ : GoString => GoString

/-- `m[key]`, which is the empty string when `key` is absent. -/
def StringMap.index (entries : StringMap) (key : GoString) : GoString :=
  (entries.lookup key).getD []

/-! ## Runes -/

/-- Go's rune tables beyond ASCII: `unicode.ToLower` and `strconv.IsPrint`. -/
structure Unicode where
  toLower : ℕ → ℕ
  isPrint : ℕ → Bool

/-- Tables in which every rune beyond ASCII is caseless and unprintable. -/
def Unicode.ascii : Unicode where
  toLower := id
  isPrint _ := false

/-- A decoded rune and the bytes it was decoded from. -/
structure Rune where
  value : ℕ
  raw : GoString

/-- `utf8.RuneError`. -/
def runeError : ℕ := 0xFFFD

/-- The width announced by a leading byte and the range its second byte must
lie in, as in the `first` and `acceptRanges` tables of `unicode/utf8`. -/
def leadByte (lead : Byte) : Option (ℕ × Byte × Byte) :=
  if 0xC2 ≤ lead ∧ lead ≤ 0xDF then some (2, 0x80, 0xBF)
  else if lead = 0xE0 then some (3, 0xA0, 0xBF)
  else if lead = 0xED then some (3, 0x80, 0x9F)
  else if 0xE1 ≤ lead ∧ lead ≤ 0xEF then some (3, 0x80, 0xBF)
  else if lead = 0xF0 then some (4, 0x90, 0xBF)
  else if 0xF1 ≤ lead ∧ lead ≤ 0xF3 then some (4, 0x80, 0xBF)
  else if lead = 0xF4 then some (4, 0x80, 0x8F)
  else none

def continues (byte : Byte) : Bool := 0x80 ≤ byte ∧ byte ≤ 0xBF

/-- `utf8.DecodeRune`: an invalid encoding consumes one byte and decodes to
`runeError`. -/
def decodeRune (lead : Byte) (rest : GoString) : Rune :=
  if lead < 0x80 then ⟨lead, [lead]⟩
  else
    match leadByte lead, rest with
    | some (2, low, high), second :: _ =>
        if low ≤ second ∧ second ≤ high then
          ⟨(lead.val % 32) * 64 + second.val % 64, [lead, second]⟩
        else ⟨runeError, [lead]⟩
    | some (3, low, high), second :: third :: _ =>
        if low ≤ second ∧ second ≤ high ∧ continues third then
          ⟨((lead.val % 16) * 64 + second.val % 64) * 64 + third.val % 64,
            [lead, second, third]⟩
        else ⟨runeError, [lead]⟩
    | some (4, low, high), second :: third :: fourth :: _ =>
        if low ≤ second ∧ second ≤ high ∧ continues third ∧ continues fourth then
          ⟨(((lead.val % 8) * 64 + second.val % 64) * 64 + third.val % 64) * 64 +
            fourth.val % 64, [lead, second, third, fourth]⟩
        else ⟨runeError, [lead]⟩
    | _, _ => ⟨runeError, [lead]⟩

/-- Decode at most `fuel` runes; every rune consumes at least one byte. -/
def decodeUpTo : ℕ → GoString → List Rune
  | 0, _ => []
  | _ + 1, [] => []
  | fuel + 1, lead :: rest =>
      let first := decodeRune lead rest
      first :: decodeUpTo fuel ((lead :: rest).drop first.raw.length)

/-- The runes a `range` loop over the string visits. -/
def runes (text : GoString) : List Rune := decodeUpTo text.length text

/-- `utf8.AppendRune`; a surrogate or a value out of range is written as
`runeError`. -/
def encodeRune (value : ℕ) : GoString :=
  if value < 0x80 then [Fin.ofNat 256 value]
  else if value < 0x800 then
    [Fin.ofNat 256 (0xC0 + value / 64), Fin.ofNat 256 (0x80 + value % 64)]
  else if (0xD800 ≤ value ∧ value ≤ 0xDFFF) ∨ 0x10FFFF < value then
    [0xEF, 0xBF, 0xBD]
  else if value < 0x10000 then
    [Fin.ofNat 256 (0xE0 + value / 4096), Fin.ofNat 256 (0x80 + value / 64 % 64),
      Fin.ofNat 256 (0x80 + value % 64)]
  else
    [Fin.ofNat 256 (0xF0 + value / 262144), Fin.ofNat 256 (0x80 + value / 4096 % 64),
      Fin.ofNat 256 (0x80 + value / 64 % 64), Fin.ofNat 256 (0x80 + value % 64)]

/-! ## `strings` -/

/-- `unicode.IsSpace`. -/
def isSpace (value : ℕ) : Bool :=
  value ∈ [9, 10, 11, 12, 13, 32, 0x85, 0xA0, 0x1680, 0x2028, 0x2029, 0x202F,
    0x205F, 0x3000] ∨ (0x2000 ≤ value ∧ value ≤ 0x200A)

/-- `strings.TrimSpace`. -/
def trimSpace (text : GoString) : GoString :=
  (((runes text).dropWhile fun rune => isSpace rune.value).rdropWhile
    fun rune => isSpace rune.value).flatMap Rune.raw

/-- `unicode.ToLower`. -/
def lowerRune (unicode : Unicode) (value : ℕ) : ℕ :=
  if 65 ≤ value ∧ value ≤ 90 then value + 32
  else if value < 0x80 then value
  else unicode.toLower value

/-- `strings.ToLower`. -/
def toLower (unicode : Unicode) (text : GoString) : GoString :=
  (runes text).flatMap fun rune => encodeRune (lowerRune unicode rune.value)

/-- `unicode.ToLower` on one byte of ASCII text. -/
def lowerByte (byte : Byte) : Byte :=
  if 65 ≤ byte ∧ byte ≤ 90 then byte + 32 else byte

/-- Text below `0x80` is decoded byte by byte. -/
theorem runes_of_ascii {text : GoString} (htext : ∀ byte ∈ text, byte < 0x80) :
    runes text = text.map fun byte => ⟨byte, [byte]⟩ := by
  rw [runes]
  induction text with
  | nil => rfl
  | cons lead rest ih =>
      obtain ⟨hlead, hrest⟩ := List.forall_mem_cons.1 htext
      have hfirst : decodeRune lead rest = ⟨lead, [lead]⟩ := if_pos hlead
      rw [List.length_cons, decodeUpTo, hfirst]
      simp [ih hrest]

theorem encodeRune_lowerRune (unicode : Unicode) {byte : Byte} (hbyte : byte < 0x80) :
    encodeRune (lowerRune unicode byte) = [lowerByte byte] := by
  have hval : byte.val < 0x80 := hbyte
  by_cases hupper : 65 ≤ byte ∧ byte ≤ 90
  · have hrange : 65 ≤ byte.val ∧ byte.val ≤ 90 := hupper
    rw [lowerRune, if_pos hrange, lowerByte, if_pos hupper, encodeRune, if_pos (by omega)]
    rfl
  · have hrange : ¬ (65 ≤ byte.val ∧ byte.val ≤ 90) := hupper
    rw [lowerRune, if_neg hrange, if_pos hval, lowerByte, if_neg hupper, encodeRune, if_pos hval]
    exact congrArg (fun byte => [byte]) (Fin.ofNat_val_eq_self byte)

/-- Lowering ASCII text needs no table. -/
theorem toLower_of_ascii (unicode : Unicode) {text : GoString}
    (htext : ∀ byte ∈ text, byte < 0x80) : toLower unicode text = text.map lowerByte := by
  rw [toLower, runes_of_ascii htext, List.flatMap_map]
  induction text with
  | nil => rfl
  | cons byte rest ih =>
      obtain ⟨hbyte, hrest⟩ := List.forall_mem_cons.1 htext
      rw [List.flatMap_cons, encodeRune_lowerRune unicode hbyte, ih hrest]
      rfl

/-- `strings.Split` at a separator of one byte. -/
def split (text : GoString) (separator : Byte) : List GoString := text.splitOn separator

/-- `strings.SplitN` at a separator of one byte. -/
def splitN (text : GoString) (separator : Byte) : ℕ → List GoString
  | 0 => []
  | 1 => [text]
  | count + 2 =>
      if separator ∈ text then
        text.takeWhile (· ≠ separator) ::
          splitN ((text.dropWhile (· ≠ separator)).drop 1) separator (count + 1)
      else [text]

/-- `strings.Cut` at a separator of one byte: what stands before and after its first
occurrence, and whether there is one. -/
def cut (text : GoString) (separator : Byte) : GoString × GoString × Bool :=
  if separator ∈ text then
    (text.takeWhile (· ≠ separator), (text.dropWhile (· ≠ separator)).drop 1, true)
  else (text, [], false)

theorem cut_append {before : GoString} {separator : Byte} (hbefore : separator ∉ before)
    (after : GoString) : cut (before ++ separator :: after) separator = (before, after, true) := by
  have hother : ∀ byte ∈ before, decide (byte ≠ separator) = true := fun byte hbyte =>
    decide_eq_true (ne_of_mem_of_not_mem hbyte hbefore)
  rw [cut, if_pos (by simp), List.takeWhile_append_of_pos hother,
    List.dropWhile_append_of_pos hother]
  simp

/-- `strings.Index`, absent where Go returns -1. -/
def index (text part : GoString) : Option ℕ :=
  (List.range (text.length + 1)).find? fun position => part <+: text.drop position

theorem index_eq_none {text part : GoString} (hpart : ¬ part <:+: text) :
    index text part = none := by
  rw [index, List.find?_eq_none]
  intro position _ hfound
  exact hpart ((of_decide_eq_true hfound).isInfix.trans (List.drop_suffix _ _).isInfix)

/-- The first occurrence is found. -/
theorem index_eq_some {front part rest : GoString}
    (hfirst : ∀ position < front.length, ¬ part <+: (front ++ (part ++ rest)).drop position) :
    index (front ++ (part ++ rest)) part = some front.length := by
  rw [index, List.find?_range_eq_some]
  refine ⟨?_, ?_, fun position hposition => ?_⟩
  · rw [List.drop_left]
    exact decide_eq_true (List.prefix_append _ _)
  · rw [List.mem_range, List.length_append]
    omega
  · simpa using hfirst position hposition

/-- `strings.ReplaceAll` of one byte by another. -/
def replaceAll (text : GoString) (old new : Byte) : GoString :=
  text.map fun byte => if byte = old then new else byte

/-- `strings.TrimSuffix`. -/
def trimSuffix (text suffix : GoString) : GoString :=
  if suffix <:+ text then text.take (text.length - suffix.length) else text

/-- `strings.Join`. -/
def join (parts : List GoString) (separator : GoString) : GoString :=
  separator.intercalate parts

theorem length_join_add {parts : List GoString} (hparts : parts ≠ []) (separator : GoString) :
    (join parts separator).length + separator.length =
      (parts.map fun part => part.length + separator.length).sum := by
  induction parts with
  | nil => exact absurd rfl hparts
  | cons part parts ih =>
      cases parts with
      | nil => simp [join]
      | cons next rest =>
          have hrest := ih (List.cons_ne_nil next rest)
          rw [List.map_cons, List.sum_cons, ← hrest, join, List.intercalate_cons_cons]
          simp only [List.length_append, join]
          omega

/-- Inserting a part lengthens a join by the part and one separator. -/
theorem length_join_insert {front back : List GoString} (hparts : front ++ back ≠ [])
    (part separator : GoString) :
    (join (front ++ part :: back) separator).length =
      (join (front ++ back) separator).length + part.length + separator.length := by
  have hlonger := length_join_add (show front ++ part :: back ≠ [] by simp) separator
  have hshorter := length_join_add hparts separator
  simp only [List.map_append, List.map_cons, List.sum_append, List.sum_cons] at hlonger hshorter
  omega

theorem length_join_lt_snoc (parts : List GoString) {part : GoString} (hpart : part ≠ [])
    (separator : GoString) :
    (join parts separator).length < (join (parts ++ [part]) separator).length := by
  have hlength : 0 < part.length := List.length_pos_iff.2 hpart
  cases parts with
  | nil => simpa [join] using hlength
  | cons first rest =>
      have hinsert := length_join_insert (show (first :: rest) ++ [] ≠ [] by simp)
        part separator
      rw [List.append_nil] at hinsert
      omega

theorem length_join_snoc_lt (parts : List GoString) {shorter longer : GoString}
    (hlength : shorter.length < longer.length) (separator : GoString) :
    (join (parts ++ [shorter]) separator).length <
      (join (parts ++ [longer]) separator).length := by
  have hshorter := length_join_add (show parts ++ [shorter] ≠ [] by simp) separator
  have hlonger := length_join_add (show parts ++ [longer] ≠ [] by simp) separator
  simp only [List.map_append, List.map_cons, List.map_nil, List.sum_append, List.sum_cons,
    List.sum_nil] at hshorter hlonger
  omega

/-! ## `strconv` and `fmt` -/

def hexDigit (digit : ℕ) : Byte :=
  if digit < 10 then Fin.ofNat 256 (48 + digit) else Fin.ofNat 256 (87 + digit)

/-- The low `digits` hexadecimal digits of a value, most significant first. -/
def hex : ℕ → ℕ → GoString
  | 0, _ => []
  | digits + 1, value => hex digits (value / 16) ++ [hexDigit (value % 16)]

/-- One rune of `strconv.Quote`. -/
def quoteRune (unicode : Unicode) (rune : Rune) : GoString :=
  if rune.value = runeError ∧ rune.raw.length = 1 then
    str "\\x" ++ hex 2 (rune.raw.headD 0).val
  else if rune.value = 34 ∨ rune.value = 92 then [92, Fin.ofNat 256 rune.value]
  else if 32 ≤ rune.value ∧ rune.value < 127 then [Fin.ofNat 256 rune.value]
  else if 0x80 ≤ rune.value ∧ unicode.isPrint rune.value then encodeRune rune.value
  else if rune.value = 7 then str "\\a"
  else if rune.value = 8 then str "\\b"
  else if rune.value = 12 then str "\\f"
  else if rune.value = 10 then str "\\n"
  else if rune.value = 13 then str "\\r"
  else if rune.value = 9 then str "\\t"
  else if rune.value = 11 then str "\\v"
  else if rune.value < 32 ∨ rune.value = 127 then str "\\x" ++ hex 2 rune.value
  else if rune.value < 0x10000 then str "\\u" ++ hex 4 rune.value
  else str "\\U" ++ hex 8 rune.value

/-- The `%q` verb applied to a string. -/
def quote (unicode : Unicode) (text : GoString) : GoString :=
  [34] ++ (runes text).flatMap (quoteRune unicode) ++ [34]

/-- The `%d` verb applied to a non-negative integer. -/
def decimal (value : ℕ) : GoString :=
  if value = 0 then [48]
  else ((Nat.digits 10 value).reverse).map fun digit => Fin.ofNat 256 (48 + digit)

/-- The `%v` verb applied to a `[]string`. -/
def listText (names : List GoString) : GoString :=
  [91] ++ join names [32] ++ [93]

theorem length_listText_insert {front back : List GoString} (hnames : front ++ back ≠ [])
    (name : GoString) :
    (listText (front ++ name :: back)).length =
      (listText (front ++ back)).length + name.length + 1 := by
  simp only [listText, List.length_append, length_join_insert hnames, List.length_singleton]
  omega

/-! ## `sort` and `path/filepath` -/

/-- `sort.Strings`: byte-wise lexicographic order. -/
def sortStrings (names : List GoString) : List GoString :=
  names.insertionSort (· ≤ ·)

theorem perm_sortStrings (names : List GoString) : (sortStrings names).Perm names :=
  List.perm_insertionSort _ names

theorem sortStrings_ascending (names : List GoString) : (sortStrings names).Pairwise (· ≤ ·) :=
  List.pairwise_insertionSort _ names

/-- Sorting forgets the order. -/
theorem sortStrings_eq_of_perm {left right : List GoString} (hperm : left.Perm right) :
    sortStrings left = sortStrings right := by
  refine List.Perm.eq_of_pairwise (fun first second _ _ => Std.Antisymm.antisymm first second)
    (sortStrings_ascending left) (sortStrings_ascending right) ?_
  exact (perm_sortStrings left).trans (hperm.trans (perm_sortStrings right).symm)

/-- Sorted names ascend strictly when no name is there twice. -/
theorem sortStrings_strict_iff (names : List GoString) :
    (sortStrings names).Pairwise (· < ·) ↔ names.Nodup := by
  rw [← (perm_sortStrings names).nodup_iff]
  constructor
  · exact fun hstrict => hstrict.imp fun hlt => ne_of_lt hlt
  · intro hnodup
    refine (sortStrings_ascending names).and hnodup |>.imp fun {first second} hboth => ?_
    exact lt_of_le_of_ne hboth.1 hboth.2

/-- `os.PathSeparator`. -/
def slash : Byte := 47

/-- `filepath.Base`. -/
def base (path : GoString) : GoString :=
  if path = [] then str "."
  else
    let last := (path.rdropWhile (· = slash)).rtakeWhile (· ≠ slash)
    if last = [] then str "/" else last

/-- One element of a path for `filepath.Clean`, after those that are kept. -/
def cleanElement (rooted : Bool) (kept : List GoString) (element : GoString) : List GoString :=
  if element = [] ∨ element = str "." then kept
  else if element = str ".." then
    match kept.getLast? with
    | none => if rooted then [] else [element]
    | some last => if last = str ".." then kept ++ [element] else kept.dropLast
  else kept ++ [element]

/-- `filepath.Clean`. -/
def clean (path : GoString) : GoString :=
  let rooted := path.head? = some slash
  let kept := (split path slash).foldl (cleanElement rooted) []
  if rooted then slash :: join kept [slash]
  else if kept = [] then str "."
  else join kept [slash]

/-- `filepath.Join`. -/
def joinPath (elements : List GoString) : GoString :=
  match elements.filter (· ≠ []) with
  | [] => []
  | nonempty => clean (join nonempty [slash])

/-- A name without a slash is its own base. -/
theorem base_of_notMem {path : GoString} (hpath : path ≠ []) (hslash : slash ∉ path) :
    base path = path := by
  have hdrop : path.rdropWhile (· = slash) = path := by
    rw [List.rdropWhile_eq_self_iff]
    intro hne hlast
    exact hslash (of_decide_eq_true hlast ▸ List.getLast_mem hne)
  have htake : path.rtakeWhile (· ≠ slash) = path := by
    rw [List.rtakeWhile_eq_self_iff]
    exact fun byte hbyte => decide_eq_true (ne_of_mem_of_not_mem hbyte hslash)
  simp only [base, hdrop, htake]
  rw [if_neg hpath, if_neg hpath]

/-- Only the base of the root contains a slash. -/
theorem slash_notMem_base {path : GoString} (hroot : base path ≠ str "/") :
    slash ∉ base path := by
  simp only [base] at hroot ⊢
  split_ifs at hroot ⊢ with hpath hlast
  · decide
  · exact absurd rfl hroot
  · intro hslash
    have hother := List.mem_rtakeWhile_imp hslash
    exact of_decide_eq_true hother rfl

end KernelSeal.Text

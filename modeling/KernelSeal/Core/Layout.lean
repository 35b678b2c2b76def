import Mathlib.Data.Nat.Digits.Lemmas

/-!
# Structures as bytes

A C compiler places every member of a structure at the next offset that its
alignment allows, so the bytes between members and after the last one are
whatever was in memory before.  A packed reader knows nothing of alignment: it
takes its fields one directly after the other and ignores what is left.
-/

namespace KernelSeal.Layout

abbrev Octet := Fin 256

/-! ## Integers -/

/-- The lowest bytes of a number, least significant first. -/
def leBytes : ℕ → ℕ → List Octet
  | 0, _ => []
  | width + 1, value => ⟨value % 256, Nat.mod_lt value (by decide)⟩ :: leBytes width (value / 256)

def leValue (bytes : List Octet) : ℕ := Nat.ofDigits 256 (bytes.map Fin.val)

@[simp]
theorem length_leBytes (width value : ℕ) : (leBytes width value).length = width := by
  induction width generalizing value with
  | zero => rfl
  | succ width ih => rw [leBytes, List.length_cons, ih]

theorem leValue_leBytes {width value : ℕ} (hvalue : value < 256 ^ width) :
    leValue (leBytes width value) = value := by
  induction width generalizing value with
  | zero => exact (Nat.lt_one_iff.1 hvalue).symm
  | succ width ih =>
      have hrest : value / 256 < 256 ^ width := by
        rw [Nat.div_lt_iff_lt_mul (by decide)]
        exact hvalue
      have htail : Nat.ofDigits 256 ((leBytes width (value / 256)).map Fin.val) = value / 256 :=
        ih hrest
      rw [leValue, leBytes, List.map_cons, Nat.ofDigits_cons, htail]
      exact Nat.mod_add_div value 256

/-! ## Aligned structures -/

/-- A member of a structure. -/
structure Member where
  align : ℕ
  bytes : List Octet

def Member.u64 (value : UInt64) : Member := ⟨8, leBytes 8 value.toNat⟩

def Member.u32 (value : UInt32) : Member := ⟨4, leBytes 4 value.toNat⟩

def Member.u8 (value : UInt8) : Member := ⟨1, leBytes 1 value.toNat⟩

def Member.array {length : ℕ} (content : Fin length → Octet) : Member := ⟨1, List.ofFn content⟩

/-- The distance to the next multiple of the alignment. -/
def padding (align offset : ℕ) : ℕ := (align - offset % align) % align

/-- Bytes that no member covers keep what the memory held. -/
def gap (stale : ℕ → Octet) (offset count : ℕ) : List Octet :=
  (List.range' offset count).map stale

/-- The members from an offset on. -/
def place (stale : ℕ → Octet) : ℕ → List Member → List Octet
  | _, [] => []
  | offset, member :: rest =>
      let before := padding member.align offset
      gap stale offset before ++ (member.bytes ++
        place stale (offset + before + member.bytes.length) rest)

/-- A structure is as aligned as its most aligned member. -/
def structAlign (members : List Member) : ℕ := (members.map Member.align).foldr max 1

/-- The bytes of a structure, padded to a multiple of its alignment. -/
def structBytes (stale : ℕ → Octet) (members : List Member) : List Octet :=
  let placed := place stale 0 members
  placed ++ gap stale placed.length (padding (structAlign members) placed.length)

@[simp]
theorem length_gap (stale : ℕ → Octet) (offset count : ℕ) :
    (gap stale offset count).length = count := by
  rw [gap, List.length_map, List.length_range']

@[simp]
theorem gap_zero (stale : ℕ → Octet) (offset : ℕ) : gap stale offset 0 = [] := rfl

section Place

variable (stale : ℕ → Octet) (offset : ℕ) (rest : List Member)

theorem place_nil : place stale offset [] = [] := rfl

theorem place_u64 (value : UInt64) :
    place stale offset (.u64 value :: rest) =
      gap stale offset (padding 8 offset) ++ (leBytes 8 value.toNat ++
        place stale (offset + padding 8 offset + 8) rest) := rfl

theorem place_u32 (value : UInt32) :
    place stale offset (.u32 value :: rest) =
      gap stale offset (padding 4 offset) ++ (leBytes 4 value.toNat ++
        place stale (offset + padding 4 offset + 4) rest) := rfl

/-- Bytes need no alignment. -/
theorem place_u8 (value : UInt8) :
    place stale offset (.u8 value :: rest) =
      leBytes 1 value.toNat ++ place stale (offset + 1) rest := by
  rw [place, Member.u8, padding, Nat.mod_one]
  rfl

theorem place_array {length : ℕ} (content : Fin length → Octet) :
    place stale offset (.array content :: rest) =
      List.ofFn content ++ place stale (offset + length) rest := by
  rw [place, Member.array, padding, Nat.mod_one, List.length_ofFn]
  rfl

end Place

/-! ## Packed reading -/

/-- A reader of the fields at the front of the input. -/
def Decoder (α : Type) := List Octet → α × List Octet

instance : Monad Decoder where
  pure value := fun bytes => (value, bytes)
  bind first next := fun bytes => next (first bytes).1 (first bytes).2

def uint (width : ℕ) : Decoder ℕ := fun bytes => (leValue (bytes.take width), bytes.drop width)

def uint64 : Decoder UInt64 := do
  let value ← uint 8
  pure (UInt64.ofNat value)

def uint32 : Decoder UInt32 := do
  let value ← uint 4
  pure (UInt32.ofNat value)

def uint8 : Decoder UInt8 := do
  let value ← uint 1
  pure (UInt8.ofNat value)

def array (length : ℕ) : Decoder (Fin length → Octet) := fun bytes =>
  (fun index => bytes.getD index ⟨0, by decide⟩, bytes.drop length)

def skip (length : ℕ) : Decoder Unit := fun bytes => ((), bytes.drop length)

inductive ReadError where
  | eof
  | unexpectedEOF
  deriving DecidableEq

/-- Read `size` bytes of the input and decode them. -/
def read {α : Type} (size : ℕ) (decoder : Decoder α) (input : List Octet) : Except ReadError α :=
  if input.length < size then
    .error (if input = [] then .eof else .unexpectedEOF)
  else .ok (decoder (input.take size)).1

section Decode

variable {α β : Type} (rest : List Octet)

@[simp]
theorem pure_apply (value : α) (bytes : List Octet) :
    (pure value : Decoder α) bytes = (value, bytes) := rfl

@[simp]
theorem bind_apply (first : Decoder α) (next : α → Decoder β) (bytes : List Octet) :
    (first >>= next) bytes = next (first bytes).1 (first bytes).2 := rfl

theorem uint_append {width : ℕ} {front : List Octet} (hfront : front.length = width) :
    uint width (front ++ rest) = (leValue front, rest) := by
  rw [uint, List.take_left' hfront, List.drop_left' hfront]

theorem uint_leBytes {width value : ℕ} (hvalue : value < 256 ^ width) :
    uint width (leBytes width value ++ rest) = (value, rest) := by
  rw [uint_append rest (length_leBytes width value), leValue_leBytes hvalue]

@[simp]
theorem uint64_leBytes (value : UInt64) :
    uint64 (leBytes 8 value.toNat ++ rest) = (value, rest) := by
  rw [uint64, bind_apply, uint_leBytes rest value.toNat_lt, pure_apply, UInt64.ofNat_toNat]

@[simp]
theorem uint32_leBytes (value : UInt32) :
    uint32 (leBytes 4 value.toNat ++ rest) = (value, rest) := by
  rw [uint32, bind_apply, uint_leBytes rest value.toNat_lt, pure_apply, UInt32.ofNat_toNat]

@[simp]
theorem uint8_leBytes (value : UInt8) :
    uint8 (leBytes 1 value.toNat ++ rest) = (value, rest) := by
  rw [uint8, bind_apply, uint_leBytes rest value.toNat_lt, pure_apply, UInt8.ofNat_toNat]

/-- Padding that the reader declares as an integer is read and means nothing. -/
@[simp]
theorem uint32_gap (stale : ℕ → Octet) (offset : ℕ) :
    uint32 (gap stale offset 4 ++ rest) =
      (UInt32.ofNat (leValue (gap stale offset 4)), rest) := by
  rw [uint32, bind_apply, uint_append rest (length_gap stale offset 4), pure_apply]

@[simp]
theorem array_ofFn {length : ℕ} (content : Fin length → Octet) :
    array length (List.ofFn content ++ rest) = (content, rest) := by
  have hlength : (List.ofFn content).length = length := List.length_ofFn
  rw [array, List.drop_left' hlength]
  congr 1
  funext index
  rw [List.getD_eq_getElem?_getD, List.getElem?_append_left (by rw [hlength]; exact index.isLt),
    List.getElem?_ofFn, dif_pos index.isLt]
  rfl

@[simp]
theorem skip_ofFn {length : ℕ} (content : Fin length → Octet) :
    skip length (List.ofFn content ++ rest) = ((), rest) := by
  rw [skip, List.drop_left' List.length_ofFn]

/-- What follows the bytes read is ignored. -/
theorem read_append {size : ℕ} {front : List Octet} (decoder : Decoder α)
    (hfront : front.length = size) :
    read size decoder (front ++ rest) = .ok (decoder front).1 := by
  have hlong : ¬ (front ++ rest).length < size := by
    rw [List.length_append]
    omega
  rw [read, if_neg hlong, List.take_left' hfront]

end Decode

end KernelSeal.Layout

import Mathlib.Data.List.Induction
import Mathlib.Logic.Function.Basic
import Mathlib.Order.Basic

/-!
# Replicas of a log

A log of keyed writes determines what every key holds at every version.  A
replica follows the log by applying its writes in order from some position, and
may start over from an earlier one.  Two facts about a replica are kept apart:
that it is up to date for the keys that are not written beyond its position, and
which version of each key it shows.
-/

namespace KernelSeal.Replica

universe u v

/-- A write sets a key or, without a value, removes it. -/
structure Write (Key : Type u) (Value : Type v) where
  key : Key
  value : Option Value

variable {Key : Type u} {Value : Type v} [DecidableEq Key]

/-- What a key holds after the writes. -/
def holds (log : List (Write Key Value)) (key : Key) : Option Value :=
  log.foldl (fun held write => if write.key = key then write.value else held) none

variable {log : List (Write Key Value)} {write : Write Key Value} {key : Key} {position : ℕ}
  {tracked : Key → Prop} {replica : Key → Option Value} {shown : Key → ℕ}

theorem holds_snoc (log : List (Write Key Value)) (write : Write Key Value) (key : Key) :
    holds (log ++ [write]) key = if write.key = key then write.value else holds log key := by
  rw [holds, List.foldl_append]
  rfl

theorem holds_snoc_self (log : List (Write Key Value)) (write : Write Key Value) :
    holds (log ++ [write]) write.key = write.value := by
  rw [holds_snoc, if_pos rfl]

/-- Values may be translated before or after. -/
theorem holds_map {Other : Type*} (convert : Value → Other) (log : List (Write Key Value))
    (key : Key) :
    holds (log.map fun write => ⟨write.key, write.value.map convert⟩) key =
      (holds log key).map convert := by
  induction log using List.reverseRecOn with
  | nil => rfl
  | append_singleton log write ih =>
      rw [List.map_append, List.map_singleton, holds_snoc, holds_snoc, ih]
      split
      · rfl
      · rfl

/-- What a key holds was written to it. -/
theorem exists_of_holds {value : Value} (hvalue : holds log key = some value) :
    ∃ write ∈ log, write.key = key ∧ write.value = some value := by
  induction log using List.reverseRecOn with
  | nil => cases hvalue
  | append_singleton log write ih =>
      rw [holds_snoc] at hvalue
      by_cases hkey : write.key = key
      · rw [if_pos hkey] at hvalue
        exact ⟨write, List.mem_append_right _ (List.mem_singleton_self write), hkey, hvalue⟩
      · rw [if_neg hkey] at hvalue
        obtain ⟨other, hother, hsame⟩ := ih hvalue
        exact ⟨other, List.mem_append_left _ hother, hsame⟩

omit [DecidableEq Key] in
theorem take_succ_eq (hwrite : log[position]? = some write) :
    log.take (position + 1) = log.take position ++ [write] := by
  rw [List.take_add_one, hwrite]
  rfl

/-- The key is not written from the position on. -/
def Quiet (log : List (Write Key Value)) (position : ℕ) (key : Key) : Prop :=
  ∀ write ∈ log.drop position, write.key ≠ key

omit [DecidableEq Key] in
theorem Quiet.of_snoc (hposition : position ≤ log.length)
    (hquiet : Quiet (log ++ [write]) position key) :
    Quiet log position key ∧ write.key ≠ key := by
  rw [Quiet, List.drop_append_of_le_length hposition] at hquiet
  exact ⟨fun other hother => hquiet other (List.mem_append_left _ hother),
    hquiet write (List.mem_append_right _ (List.mem_singleton_self write))⟩

omit [DecidableEq Key] in
theorem Quiet.mono {later : ℕ} (hquiet : Quiet log position key) (hlater : position ≤ later) :
    Quiet log later key := by
  intro write hwrite
  refine hquiet write ?_
  rw [← Nat.add_sub_cancel' hlater, ← List.drop_drop] at hwrite
  exact List.mem_of_mem_drop hwrite

omit [DecidableEq Key] in
theorem Quiet.of_succ (hwrite : log[position]? = some write)
    (hquiet : Quiet log (position + 1) key) (hkey : write.key ≠ key) :
    Quiet log position key := by
  obtain ⟨hlength, hget⟩ := List.getElem?_eq_some_iff.1 hwrite
  intro other hother
  rw [List.drop_eq_getElem_cons hlength, hget] at hother
  rcases List.mem_cons.1 hother with rfl | hother
  · exact hkey
  · exact hquiet other hother

/-- What a key holds is decided by the last write to it. -/
theorem holds_take_of_quiet (hquiet : Quiet log position key) :
    holds (log.take position) key = holds log key := by
  have hfold (writes : List (Write Key Value)) (hwrites : ∀ write ∈ writes, write.key ≠ key)
      (held : Option Value) :
      writes.foldl (fun held write => if write.key = key then write.value else held) held =
        held := by
    induction writes with
    | nil => rfl
    | cons write writes ih =>
        obtain ⟨hwrite, hrest⟩ := List.forall_mem_cons.1 hwrites
        rw [List.foldl_cons, if_neg hwrite]
        exact ih hrest
  calc
    holds (log.take position) key
        = (log.drop position).foldl
            (fun held write => if write.key = key then write.value else held)
            (holds (log.take position) key) := (hfold _ hquiet _).symm
    _ = holds log key := by
        rw [holds, ← List.foldl_append, List.take_append_drop]
        rfl

/-- A key holds the same at any two versions between which it is not written. -/
theorem holds_take_eq {later : ℕ} (hquiet : Quiet log position key) (hlater : position ≤ later) :
    holds (log.take later) key = holds (log.take position) key := by
  have hbetween : Quiet (log.take later) position key := by
    intro write hwrite
    rw [List.drop_take] at hwrite
    exact hquiet write (List.mem_of_mem_take hwrite)
  rw [← holds_take_of_quiet hbetween, List.take_take, Nat.min_eq_left hlater]

/-! ## Up to date -/

/-- The replica has the current value of every tracked key that is not written from
the position on. -/
def CurrentFrom (tracked : Key → Prop) (log : List (Write Key Value)) (position : ℕ)
    (replica : Key → Option Value) : Prop :=
  ∀ key, tracked key → Quiet log position key → replica key = holds log key

/-- A snapshot is current from anywhere on. -/
theorem currentFrom_snapshot (hreplica : ∀ key, tracked key → replica key = holds log key) :
    CurrentFrom tracked log position replica :=
  fun key hkey _ => hreplica key hkey

theorem CurrentFrom.snoc (hcurrent : CurrentFrom tracked log position replica)
    (hposition : position ≤ log.length) (write : Write Key Value) :
    CurrentFrom tracked (log ++ [write]) position replica := by
  intro key hkey hquiet
  obtain ⟨hbefore, hwrite⟩ := hquiet.of_snoc hposition
  rw [hcurrent key hkey hbefore, holds_snoc, if_neg hwrite]

/-- Starting over from an earlier position loses nothing. -/
theorem CurrentFrom.rewind {earlier : ℕ} (hcurrent : CurrentFrom tracked log position replica)
    (hearlier : earlier ≤ position) : CurrentFrom tracked log earlier replica :=
  fun key hkey hquiet => hcurrent key hkey (hquiet.mono hearlier)

/-- Applying the next write. -/
theorem CurrentFrom.deliver {next : Key → Option Value}
    (hcurrent : CurrentFrom tracked log position replica)
    (hwrite : log[position]? = some write)
    (hself : tracked write.key → next write.key = write.value)
    (hother : ∀ key, key ≠ write.key → next key = replica key) :
    CurrentFrom tracked log (position + 1) next := by
  intro key hkey hquiet
  by_cases hsame : key = write.key
  · subst hsame
    rw [hself hkey, ← holds_take_of_quiet hquiet, take_succ_eq hwrite, holds_snoc_self]
  · rw [hother key hsame]
    exact hcurrent key hkey (hquiet.of_succ hwrite (Ne.symm hsame))

/-- A replica that is current from the end on is current. -/
theorem CurrentFrom.eq_holds (hcurrent : CurrentFrom tracked log log.length replica)
    (hkey : tracked key) : replica key = holds log key := by
  refine hcurrent key hkey fun write hwrite => ?_
  rw [List.drop_length] at hwrite
  exact absurd hwrite List.not_mem_nil

/-! ## Versions shown -/

/-- The replica shows each tracked key as it was at some version. -/
def ShowsAt (tracked : Key → Prop) (log : List (Write Key Value)) (shown : Key → ℕ)
    (replica : Key → Option Value) : Prop :=
  ∀ key, tracked key → replica key = holds (log.take (shown key)) key

theorem ShowsAt.snoc (hshows : ShowsAt tracked log shown replica)
    (hshown : ∀ key, shown key ≤ log.length) (write : Write Key Value) :
    ShowsAt tracked (log ++ [write]) shown replica := by
  intro key hkey
  rw [List.take_append_of_le_length (hshown key)]
  exact hshows key hkey

theorem showsAt_snapshot (hreplica : ∀ key, tracked key → replica key = holds log key) :
    ShowsAt tracked log (fun _ => log.length) replica := by
  intro key hkey
  rw [List.take_length]
  exact hreplica key hkey

theorem ShowsAt.deliver {next : Key → Option Value} (hshows : ShowsAt tracked log shown replica)
    (hwrite : log[position]? = some write)
    (hself : tracked write.key → next write.key = write.value)
    (hother : ∀ key, key ≠ write.key → next key = replica key) :
    ShowsAt tracked log (Function.update shown write.key (position + 1)) next := by
  intro key hkey
  by_cases hsame : key = write.key
  · subst hsame
    rw [Function.update_self, hself hkey, take_succ_eq hwrite, holds_snoc_self]
  · rw [Function.update_of_ne hsame, hother key hsame]
    exact hshows key hkey

end KernelSeal.Replica

import Mathlib.Logic.Basic
import Mathlib.Data.List.Basic
import Mathlib.Data.Nat.Find

/-!
# Resumptions

Effectful code is represented by the calls it makes.  A program either returns
a value or calls an operation and continues with the answer it receives.  The
answers are not fixed here: one program is run sequentially against an oracle,
or interleaved with other programs over a shared state, and both readings
share the paths defined below.
-/

namespace KernelSeal.Resumption

universe u v w

/-- A program over operations `Op`, where calling `op` yields an `Ans op`. -/
inductive Prog (Op : Type u) (Ans : Op → Type v) (α : Type w) where
  | ret (value : α)
  | call (op : Op) (next : Ans op → Prog Op Ans α)

/-- One call together with the answer it received. -/
structure Call (Op : Type u) (Ans : Op → Type v) where
  op : Op
  answer : Ans op

variable {Op : Type u} {Ans : Op → Type v}

namespace Prog

def bind {α β : Type w} (program : Prog Op Ans α)
    (next : α → Prog Op Ans β) : Prog Op Ans β :=
  match program with
  | ret value => next value
  | call op rest => call op fun answer => (rest answer).bind next

/-- The program that makes a single call and returns its answer. -/
def perform (op : Op) : Prog Op Ans (Ans op) :=
  call op ret

instance : Monad (Prog Op Ans) where
  pure := ret
  bind := bind

@[simp]
theorem pure_eq_ret {α : Type w} (value : α) :
    (pure value : Prog Op Ans α) = ret value := rfl

@[simp]
theorem ret_bind {α β : Type w} (value : α) (next : α → Prog Op Ans β) :
    (ret value : Prog Op Ans α) >>= next = next value := rfl

@[simp]
theorem call_bind {α β : Type w} (op : Op) (rest : Ans op → Prog Op Ans α)
    (next : α → Prog Op Ans β) :
    call op rest >>= next = call op fun answer => rest answer >>= next := rfl

@[simp]
theorem perform_bind {β : Type v} (op : Op) (next : Ans op → Prog Op Ans β) :
    perform op >>= next = call op next := rfl

/-- The operation a program is about to call. -/
def pending {α : Type w} : Prog Op Ans α → Option Op
  | ret _ => none
  | call op _ => some op

theorem pending_eq_some_iff {α : Type w} {program : Prog Op Ans α} {op : Op} :
    program.pending = some op ↔ ∃ next, program = call op next := by
  cases program with
  | ret value => simp [pending]
  | call other next =>
      constructor
      · intro hop
        cases hop
        exact ⟨next, rfl⟩
      · rintro ⟨rest, hrest⟩
        cases hrest
        rfl

end Prog

open Prog

variable {α β : Type w}

/-- `Path program calls final` holds when `program`, answered as `calls`
records, has become `final`. -/
inductive Path : Prog Op Ans α → List (Call Op Ans) → Prog Op Ans α → Prop
  | nil (program : Prog Op Ans α) : Path program [] program
  | cons {op : Op} {next : Ans op → Prog Op Ans α} (answer : Ans op)
      {calls : List (Call Op Ans)} {final : Prog Op Ans α}
      (rest : Path (next answer) calls final) :
      Path (call op next) (⟨op, answer⟩ :: calls) final

@[simp]
theorem path_ret_iff {value : α} {calls : List (Call Op Ans)}
    {final : Prog Op Ans α} :
    Path (ret value) calls final ↔ calls = [] ∧ final = ret value := by
  constructor
  · rintro ⟨⟩
    exact ⟨rfl, rfl⟩
  · rintro ⟨rfl, rfl⟩
    exact Path.nil _

theorem path_call_iff {op : Op} {next : Ans op → Prog Op Ans α}
    {calls : List (Call Op Ans)} {final : Prog Op Ans α} :
    Path (call op next) calls final ↔
      (calls = [] ∧ final = call op next) ∨
        ∃ answer rest, calls = ⟨op, answer⟩ :: rest ∧
          Path (next answer) rest final := by
  constructor
  · intro hpath
    cases hpath with
    | nil => exact Or.inl ⟨rfl, rfl⟩
    | cons answer rest => exact Or.inr ⟨answer, _, rfl, rest⟩
  · rintro (⟨rfl, rfl⟩ | ⟨answer, rest, rfl, hrest⟩)
    · exact Path.nil _
    · exact Path.cons answer hrest

/-- A program that has returned has received an answer to its first call. -/
theorem path_call_ret_iff {op : Op} {next : Ans op → Prog Op Ans α}
    {calls : List (Call Op Ans)} {value : α} :
    Path (call op next) calls (ret value) ↔
      ∃ answer rest, calls = ⟨op, answer⟩ :: rest ∧
        Path (next answer) rest (ret value) := by
  simp [path_call_iff]

/-- A single call whose answer is ignored. -/
theorem path_perform_pure_iff {β : Type v} {op : Op} {result value : β}
    {calls : List (Call Op Ans)} :
    Path (perform op >>= fun _ => pure result) calls (ret value) ↔
      (∃ answer, calls = [⟨op, answer⟩]) ∧ value = result := by
  simp only [perform_bind, path_call_ret_iff, pure_eq_ret, path_ret_iff]
  constructor
  · rintro ⟨answer, rest, rfl, rfl, hvalue⟩
    exact ⟨⟨answer, rfl⟩, ret.inj hvalue⟩
  · rintro ⟨⟨answer, rfl⟩, rfl⟩
    exact ⟨answer, [], rfl, rfl, rfl⟩

/-- Answering the pending call extends a path by one call. -/
theorem Path.snoc {program : Prog Op Ans α} {calls : List (Call Op Ans)}
    {op : Op} {next : Ans op → Prog Op Ans α}
    (hpath : Path program calls (call op next)) (answer : Ans op) :
    Path program (calls ++ [⟨op, answer⟩]) (next answer) := by
  generalize hfinal : call op next = final at hpath
  induction hpath with
  | nil program =>
      subst hfinal
      exact Path.cons answer (Path.nil _)
  | cons first _ ih => exact Path.cons first (ih hfinal)

/-- A call that was answered was pending before. -/
theorem Path.before_call {program final : Prog Op Ans α} {before after : List (Call Op Ans)}
    {op : Op} {answer : Ans op} (hpath : Path program (before ++ ⟨op, answer⟩ :: after) final) :
    ∃ next, Path program before (call op next) := by
  induction before generalizing program with
  | nil =>
      cases hpath with
      | cons answer rest => exact ⟨_, Path.nil _⟩
  | cons first before ih =>
      cases hpath with
      | cons answer rest =>
          obtain ⟨next, hnext⟩ := ih rest
          exact ⟨next, Path.cons answer hnext⟩

/-- A path through a sequential composition is either still inside the first
program, or has completed it and continues in the second. -/
theorem path_bind_iff {program : Prog Op Ans α} {next : α → Prog Op Ans β}
    {calls : List (Call Op Ans)} {final : Prog Op Ans β} :
    Path (program >>= next) calls final ↔
      (∃ middle, Path program calls middle ∧ final = middle >>= next) ∨
        ∃ first value rest, calls = first ++ rest ∧
          Path program first (ret value) ∧ Path (next value) rest final := by
  induction program generalizing calls with
  | ret value =>
      constructor
      · intro hpath
        exact Or.inr ⟨[], value, calls, rfl, Path.nil _, hpath⟩
      · rintro (⟨middle, hmiddle, rfl⟩ | ⟨first, value', rest, rfl, hfirst, hrest⟩)
        · obtain ⟨rfl, rfl⟩ := path_ret_iff.1 hmiddle
          exact Path.nil _
        · obtain ⟨rfl, hvalue⟩ := path_ret_iff.1 hfirst
          cases hvalue
          exact hrest
  | call op rest ih =>
      constructor
      · intro hpath
        rw [call_bind, path_call_iff] at hpath
        rcases hpath with ⟨rfl, rfl⟩ | ⟨answer, tail, rfl, htail⟩
        · exact Or.inl ⟨call op rest, Path.nil _, rfl⟩
        · rcases (ih answer).1 htail with
            ⟨middle, hmiddle, rfl⟩ | ⟨first, value, after, rfl, hfirst, hafter⟩
          · exact Or.inl ⟨middle, Path.cons answer hmiddle, rfl⟩
          · exact Or.inr ⟨⟨op, answer⟩ :: first, value, after, rfl,
              Path.cons answer hfirst, hafter⟩
      · rintro (⟨middle, hmiddle, rfl⟩ | ⟨first, value, after, rfl, hfirst, hafter⟩)
        · cases hmiddle with
          | nil => exact Path.nil _
          | cons answer htail =>
              exact Path.cons answer ((ih answer).2 (Or.inl ⟨middle, htail, rfl⟩))
        · cases hfirst with
          | cons answer htail =>
              exact Path.cons answer
                ((ih answer).2 (Or.inr ⟨_, value, after, rfl, htail, hafter⟩))

/-- A composition that only converts the result makes the calls of its first
program. -/
theorem path_map_iff {program : Prog Op Ans α} {convert : α → β}
    {calls : List (Call Op Ans)} {final : Prog Op Ans β} :
    Path (program >>= fun value => pure (convert value)) calls final ↔
      ∃ middle, Path program calls middle ∧
        final = middle >>= fun value => pure (convert value) := by
  rw [path_bind_iff]
  constructor
  · rintro (hinside | ⟨first, value, rest, rfl, hfirst, hrest⟩)
    · exact hinside
    · obtain ⟨rfl, rfl⟩ := path_ret_iff.1 hrest
      exact ⟨ret value, by rwa [List.append_nil], rfl⟩
  · exact Or.inl

@[simp]
theorem pending_map (program : Prog Op Ans α) (convert : α → β) :
    (program >>= fun value => pure (convert value)).pending = program.pending := by
  cases program with
  | ret value => rfl
  | call op rest => rfl

theorem path_map_call {program : Prog Op Ans α} {convert : α → β}
    {calls : List (Call Op Ans)} {op : Op} {next : Ans op → Prog Op Ans β}
    (hpath : Path (program >>= fun value => pure (convert value)) calls (call op next)) :
    ∃ rest, Path program calls (call op rest) := by
  obtain ⟨middle, hmiddle, hfinal⟩ := path_map_iff.1 hpath
  have hpending : middle.pending = some op := by
    rw [← pending_map middle convert, ← hfinal]
    rfl
  obtain ⟨rest, rfl⟩ := pending_eq_some_iff.1 hpending
  exact ⟨rest, hmiddle⟩

/-- A composition that has returned completed its first program first. -/
theorem path_bind_ret_iff {program : Prog Op Ans α} {next : α → Prog Op Ans β}
    {calls : List (Call Op Ans)} {value : β} :
    Path (program >>= next) calls (ret value) ↔
      ∃ first middle rest, calls = first ++ rest ∧
        Path program first (ret middle) ∧
          Path (next middle) rest (ret value) := by
  rw [path_bind_iff]
  constructor
  · rintro (⟨middle, hmiddle, hfinal⟩ | hdone)
    · cases middle with
      | ret result =>
          exact ⟨calls, result, [], by simp, hmiddle,
            hfinal ▸ Path.nil _⟩
      | call op rest => simp at hfinal
    · exact hdone
  · exact Or.inr

/-! ## Programs restricted to some operations -/

/-- Every operation the program can ever call satisfies the predicate. -/
def Prog.OpsIn (allowed : Op → Prop) : Prog Op Ans α → Prop
  | ret _ => True
  | call op next => allowed op ∧ ∀ answer, (next answer).OpsIn allowed

section OpsIn

variable {allowed : Op → Prop}

theorem Prog.OpsIn.mono {allowed' : Op → Prop} (hmono : ∀ op, allowed op → allowed' op)
    {program : Prog Op Ans α} (hprogram : program.OpsIn allowed) : program.OpsIn allowed' := by
  induction program with
  | ret value => trivial
  | call op rest ih =>
      exact ⟨hmono op hprogram.1, fun answer => ih answer (hprogram.2 answer)⟩

theorem opsIn_bind {program : Prog Op Ans α} {next : α → Prog Op Ans β}
    (hprogram : program.OpsIn allowed) (hnext : ∀ value, (next value).OpsIn allowed) :
    (program >>= next).OpsIn allowed := by
  induction program with
  | ret value => exact hnext value
  | call op rest ih => exact ⟨hprogram.1, fun answer => ih answer (hprogram.2 answer)⟩

theorem opsIn_ite {condition : Prop} [Decidable condition] {program other : Prog Op Ans α}
    (hprogram : program.OpsIn allowed) (hother : other.OpsIn allowed) :
    (if condition then program else other).OpsIn allowed := by
  split
  · exact hprogram
  · exact hother

theorem Path.opsIn {program final : Prog Op Ans α} {calls : List (Call Op Ans)}
    (hpath : Path program calls final) (hprogram : program.OpsIn allowed) :
    (∀ call ∈ calls, allowed call.op) ∧ final.OpsIn allowed := by
  induction hpath with
  | nil program => exact ⟨fun call hcall => absurd hcall List.not_mem_nil, hprogram⟩
  | cons answer rest ih =>
      obtain ⟨hcalls, hfinal⟩ := ih (hprogram.2 answer)
      exact ⟨List.forall_mem_cons.2 ⟨hprogram.1, hcalls⟩, hfinal⟩

/-- A composition that waits for a call its first program never makes has completed that
program. -/
theorem Path.of_bind_call {program : Prog Op Ans α} {next : α → Prog Op Ans β}
    {calls : List (Call Op Ans)} {op : Op} {rest : Ans op → Prog Op Ans β}
    (hpath : Path (program >>= next) calls (call op rest)) (hprogram : program.OpsIn allowed)
    (hop : ¬ allowed op) :
    ∃ first value following, calls = first ++ following ∧ Path program first (ret value) ∧
      Path (next value) following (call op rest) := by
  rcases path_bind_iff.1 hpath with ⟨middle, hmiddle, hfinal⟩ | hdone
  · cases middle with
    | ret value =>
        refine ⟨calls, value, [], (List.append_nil _).symm, hmiddle, ?_⟩
        rw [ret_bind] at hfinal
        exact hfinal ▸ Path.nil _
    | call other following =>
        obtain ⟨rfl, _⟩ := call.inj hfinal
        exact absurd (hmiddle.opsIn hprogram).2.1 hop
  · exact hdone

/-- The program makes an `earlier` call before any `later` one. -/
def Prog.Precedes (earlier later : Op → Prop) : Prog Op Ans α → Prop
  | ret _ => True
  | call op next => earlier op ∨ (¬ later op ∧ ∀ answer, (next answer).Precedes earlier later)

variable {earlier later : Op → Prop}

theorem Prog.OpsIn.precedes {program : Prog Op Ans α}
    (hprogram : program.OpsIn fun op => ¬ later op) : program.Precedes earlier later := by
  induction program with
  | ret value => trivial
  | call op next ih =>
      exact Or.inr ⟨hprogram.1, fun answer => ih answer (hprogram.2 answer)⟩

theorem precedes_bind {program : Prog Op Ans α} {next : α → Prog Op Ans β}
    (hprogram : program.OpsIn fun op => ¬ later op)
    (hnext : ∀ value, (next value).Precedes earlier later) :
    (program >>= next).Precedes earlier later := by
  induction program with
  | ret value => exact hnext value
  | call op rest ih =>
      exact Or.inr ⟨hprogram.1, fun answer => ih answer (hprogram.2 answer)⟩

theorem Path.precedes {program final : Prog Op Ans α} {calls : List (Call Op Ans)}
    (hpath : Path program calls final) (hprogram : program.Precedes earlier later)
    {call : Call Op Ans} (hcall : call ∈ calls) (hlater : later call.op) :
    ∃ first ∈ calls, earlier first.op := by
  induction hpath with
  | nil program => exact absurd hcall List.not_mem_nil
  | cons answer rest ih =>
      rcases hprogram with hearlier | ⟨hop, hnext⟩
      · exact ⟨_, List.mem_cons_self, hearlier⟩
      · rcases List.mem_cons.1 hcall with rfl | hcall
        · exact absurd hlater hop
        · obtain ⟨first, hfirst, hearlier⟩ := ih (hnext answer) hcall
          exact ⟨first, List.mem_cons_of_mem _ hfirst, hearlier⟩

end OpsIn

/-- Whatever fitting answers the program receives, it can return such values only. -/
def Prog.Ensures (fits : (op : Op) → Ans op → Prop) (post : α → Prop) : Prog Op Ans α → Prop
  | ret value => post value
  | call op next => ∀ answer, fits op answer → (next answer).Ensures fits post

/-! ## Programs with a bounded number of calls -/

/-- The program makes at most this many calls, whatever is answered. -/
def Prog.Within : ℕ → Prog Op Ans α → Prop
  | _, ret _ => True
  | 0, call _ _ => False
  | bound + 1, call _ next => ∀ answer, (next answer).Within bound

section Within

theorem Prog.Within.mono {bound larger : ℕ} (hbound : bound ≤ larger) {program : Prog Op Ans α}
    (hprogram : program.Within bound) : program.Within larger := by
  induction program generalizing bound larger with
  | ret value => cases larger <;> trivial
  | call op next ih =>
      cases bound with
      | zero => exact hprogram.elim
      | succ bound =>
          obtain ⟨larger, rfl⟩ := Nat.exists_eq_add_of_le' (Nat.one_le_of_lt hbound)
          exact fun answer => ih answer (Nat.le_of_succ_le_succ hbound) (hprogram answer)

theorem within_bind {first second : ℕ} {program : Prog Op Ans α} {next : α → Prog Op Ans β}
    (hprogram : program.Within first) (hnext : ∀ value, (next value).Within second) :
    (program >>= next).Within (first + second) := by
  induction program generalizing first with
  | ret value => exact (hnext value).mono (Nat.le_add_left _ _)
  | call op rest ih =>
      cases first with
      | zero => exact hprogram.elim
      | succ first =>
          rw [call_bind, Nat.add_right_comm]
          exact fun answer => ih answer (hprogram answer)

theorem within_ite {condition : Prop} [Decidable condition] {bound : ℕ}
    {program other : Prog Op Ans α} (hprogram : program.Within bound)
    (hother : other.Within bound) : (if condition then program else other).Within bound := by
  split
  · exact hprogram
  · exact hother

open Classical in
/-- The calls that the program can still make, if there is a bound on them. -/
noncomputable def Prog.remaining (program : Prog Op Ans α) : ℕ :=
  if hbounded : ∃ bound, program.Within bound then Nat.find hbounded else 0

theorem Prog.Within.remaining_le {bound : ℕ} {program : Prog Op Ans α}
    (hprogram : program.Within bound) : program.remaining ≤ bound := by
  classical
  rw [Prog.remaining, dif_pos ⟨bound, hprogram⟩]
  exact Nat.find_min' _ hprogram

theorem Prog.Within.within_remaining {bound : ℕ} {program : Prog Op Ans α}
    (hprogram : program.Within bound) : program.Within program.remaining := by
  classical
  have hbounded : ∃ bound, program.Within bound := ⟨bound, hprogram⟩
  rw [Prog.remaining, dif_pos hbounded]
  exact Nat.find_spec hbounded

/-- Every answer leaves fewer calls. -/
theorem Prog.Within.remaining_lt {bound : ℕ} {op : Op} {next : Ans op → Prog Op Ans α}
    (hprogram : (call op next).Within bound) (answer : Ans op) :
    (next answer).remaining < (call op next).remaining := by
  have hleast := hprogram.within_remaining
  generalize (call op next).remaining = least at hleast
  cases least with
  | zero => exact hleast.elim
  | succ least => exact Nat.lt_succ_of_le (hleast answer).remaining_le

end Within

/-! ## Sequential runs -/

/-- An oracle answers each call knowing the calls made before it. -/
abbrev Oracle (Op : Type u) (Ans : Op → Type v) :=
  List (Call Op Ans) → (op : Op) → Ans op

/-- Run a program to completion, returning its value and the calls it made
after those in `past`. -/
def run (oracle : Oracle Op Ans) (past : List (Call Op Ans)) :
    Prog Op Ans α → α × List (Call Op Ans)
  | ret value => (value, [])
  | call op next =>
      let first : Call Op Ans := ⟨op, oracle past op⟩
      let rest := run oracle (past ++ [first]) (next first.answer)
      (rest.1, first :: rest.2)

@[simp]
theorem run_ret (oracle : Oracle Op Ans) (past : List (Call Op Ans)) (value : α) :
    run oracle past (ret value : Prog Op Ans α) = (value, []) := rfl

theorem run_call (oracle : Oracle Op Ans) (past : List (Call Op Ans)) (op : Op)
    (next : Ans op → Prog Op Ans α) :
    run oracle past (call op next) =
      ((run oracle (past ++ [⟨op, oracle past op⟩]) (next (oracle past op))).1,
        ⟨op, oracle past op⟩ ::
          (run oracle (past ++ [⟨op, oracle past op⟩]) (next (oracle past op))).2) :=
  rfl

theorem run_bind (oracle : Oracle Op Ans) (past : List (Call Op Ans))
    (program : Prog Op Ans α) (next : α → Prog Op Ans β) :
    run oracle past (program >>= next) =
      ((run oracle (past ++ (run oracle past program).2)
          (next (run oracle past program).1)).1,
        (run oracle past program).2 ++
          (run oracle (past ++ (run oracle past program).2)
            (next (run oracle past program).1)).2) := by
  induction program generalizing past with
  | ret value => simp
  | call op rest ih => simp [run_call, ih]

/-- An oracle that does not look at the past answers every call of a run alike. -/
theorem answer_of_mem_run {answers : (op : Op) → Ans op} {past : List (Call Op Ans)}
    {program : Prog Op Ans α} {step : Call Op Ans}
    (hstep : step ∈ (run (fun _ => answers) past program).2) : step.answer = answers step.op := by
  induction program generalizing past with
  | ret value => exact absurd hstep List.not_mem_nil
  | call op next ih =>
      rcases List.mem_cons.1 hstep with rfl | hrest
      · rfl
      · exact ih _ hrest

/-- Every sequential run is a path to its returned value. -/
theorem path_run (oracle : Oracle Op Ans) (past : List (Call Op Ans))
    (program : Prog Op Ans α) :
    Path program (run oracle past program).2
      (ret (run oracle past program).1) := by
  induction program generalizing past with
  | ret value => exact Path.nil _
  | call op next ih => exact Path.cons _ (ih _ _)

end KernelSeal.Resumption

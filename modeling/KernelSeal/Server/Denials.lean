import KernelSeal.Agent.System
import KernelSeal.Server.Serving

/-!
# Denied requests and the protected set

`handle` protects the caller before it decides to release, and takes the protection
back when the caller turns out to be gone.  Taking it back deletes the caller's PID
from the protected set, whoever put it there.  So a denied request never leaves
anything behind, but it can remove what an earlier request installed.
-/

namespace KernelSeal.Denials

open KernelSeal.Text
open KernelSeal.Registry
open KernelSeal.Resumption
open KernelSeal.Delivery
open KernelSeal.Release
open KernelSeal.Serving
open KernelSeal.Agent

/-! ## Effects on the protected set -/

/-- What one call does to the protected set. -/
def effect (before : Finset UInt32) (call : Step) : Finset UInt32 :=
  (Kernel.apply { protectedPids := before } call).protectedPids

/-- The protected set after some calls. -/
def protectedAfter (before : Finset UInt32) (calls : List Step) : Finset UInt32 :=
  calls.foldl effect before

section Effect

variable (before : Finset UInt32) {call : Step} {calls : List Step}

theorem protectedAfter_cons (call : Step) (calls : List Step) :
    protectedAfter before (call :: calls) = protectedAfter (effect before call) calls := rfl

/-- The effect is that of the system. -/
theorem effect_eq (kernel : Kernel) (call : Step) :
    (kernel.apply call).protectedPids = effect kernel.protectedPids call := by
  rw [effect, Kernel.apply.eq_def, Kernel.apply.eq_def]
  split <;> rfl

theorem protectedAfter_eq (kernel : Kernel) (calls : List Step) :
    (calls.foldl Kernel.apply kernel).protectedPids =
      protectedAfter kernel.protectedPids calls := by
  induction calls generalizing kernel with
  | nil => rfl
  | cons call calls ih =>
      rw [List.foldl_cons, ih, effect_eq]
      rfl

theorem effect_of_not_protector (hcall : isProtector call.op = false) :
    effect before call = before := by
  obtain ⟨op, answer⟩ := call
  cases op with
  | protectPID pid => cases hcall
  | unprotectPID pid => cases hcall
  | _ => rfl

/-- Only calls to the protector matter. -/
theorem protectedAfter_of_no_protector (hcalls : protectorCalls calls = []) :
    protectedAfter before calls = before := by
  induction calls generalizing before with
  | nil => rfl
  | cons call calls ih =>
      rw [protectorCalls_cons] at hcalls
      split_ifs at hcalls with hcall
      rw [protectedAfter_cons,
        effect_of_not_protector before (Bool.eq_false_of_not_eq_true hcall)]
      exact ih before hcalls

theorem protectedAfter_append (first second : List Step) :
    protectedAfter before (first ++ second) =
      protectedAfter (protectedAfter before first) second :=
  List.foldl_append

end Effect

/-! ## Denials -/

section Denials

variable {unicode : Unicode} {server : Server} {outcomes : Outcomes} {pid : UInt32}
  {matched : Match} (before : Finset UInt32)

theorem protectorCalls_identifyCalls :
    protectorCalls (identifyCalls server outcomes pid) = [] := by
  rw [identifyCalls]
  split_ifs <;> rfl

/-- Without a secret to release, the protector is not called. -/
theorem protectorCalls_of_no_secrets {binaryName : GoString} (hsecrets : matched.secrets = []) :
    protectorCalls (answerCalls server outcomes pid (judge unicode server binaryName matched)) =
      [] := by
  simp only [judge, hsecrets, true_and, if_true]
  split_ifs
  · rfl
  · exact observe_deniedCalls.1
  · exact observe_deniedCalls.1
  · exact observe_deniedCalls.1
  · rfl

variable (server outcomes) in
/-- The caller was protected and then found to be gone. -/
def RolledBack (req : Request) : Prop :=
  Judged server outcomes req ∧ (found server outcomes req).secrets ≠ [] ∧
    ∃ start, outcomes.startBefore = .ok start ∧ outcomes.startAfter ≠ .ok start

/-- A rollback leaves the set without the caller. -/
theorem protectedAfter_rollback {start : UInt64} (hbefore : outcomes.startBefore = .ok start)
    (hafter : outcomes.startAfter ≠ .ok start) (hunprotect : outcomes.unprotectPID = none) :
    protectedAfter before (settleCalls server outcomes pid matched) = before.erase pid := by
  have hagrees : ¬ agrees start outcomes.startAfter = true := fun hagrees =>
    hafter (agrees_iff.1 hagrees)
  have herase : (effect before ⟨Op.protectPID pid, outcomes.protectPID⟩).erase pid =
      before.erase pid := by
    cases outcomes.protectPID with
    | none => exact Finset.erase_insert_eq_erase before pid
    | some err => rfl
  simp only [settleCalls, hbefore]
  rw [if_pos hagrees, hunprotect, protectedAfter_append, protectedAfter_cons,
    protectedAfter_of_no_protector _ observe_deniedCalls.1]
  exact herase

/-- Any other denial of a release leaves the set as it was. -/
theorem protectedAfter_of_agreement
    (hagree : ∀ start, outcomes.startBefore = .ok start → outcomes.startAfter = .ok start)
    (hdenied : (settle server outcomes matched).ok = false) :
    protectedAfter before (settleCalls server outcomes pid matched) = before := by
  cases hbefore : outcomes.startBefore with
  | error err =>
      simp only [settleCalls, hbefore]
      exact protectedAfter_of_no_protector before observe_deniedCalls.1
  | ok start =>
      have hagrees : agrees start outcomes.startAfter = true := agrees_iff.2 (hagree start hbefore)
      simp only [settle, hbefore] at hdenied
      rw [if_neg (not_not.2 hagrees)] at hdenied
      split_ifs at hdenied with hrequired
      obtain ⟨err, herr⟩ := Option.isSome_iff_exists.1 hrequired.1
      simp only [settleCalls, hbefore]
      rw [if_neg (not_not.2 hagrees), if_pos hrequired, herr, protectedAfter_append,
        protectedAfter_of_no_protector _ observe_deniedCalls.1]
      rfl

/-- What a denied request does to the set: nothing, unless it was rolled back. -/
theorem protectedAfter_serve {cred : Ucred} {req : Request}
    (hunprotect : outcomes.unprotectPID = none)
    (hdenied : (serve unicode server outcomes cred req).1.ok = false) :
    (RolledBack server outcomes req ∧
      protectedAfter before (serve unicode server outcomes cred req).2 =
        before.erase cred.pid.toUInt32) ∨
    (¬ RolledBack server outcomes req ∧
      protectedAfter before (serve unicode server outcomes cred req).2 = before) := by
  rw [serve_calls]
  by_cases hunnamed : Unnamed req
  · rw [if_pos hunnamed]
    exact Or.inr ⟨fun hrolled => hrolled.1.1 hunnamed,
      protectedAfter_of_no_protector before observe_deniedCalls.1⟩
  · rw [if_neg hunnamed, protectedAfter_append,
      protectedAfter_of_no_protector before protectorCalls_identifyCalls]
    by_cases hunattributed : Unattributed server (identified server outcomes)
    · rw [verdict, if_pos hunattributed]
      exact Or.inr ⟨fun hrolled => hrolled.1.2 hunattributed,
        protectedAfter_of_no_protector before observe_deniedCalls.1⟩
    · have hjudged : Judged server outcomes req := ⟨hunnamed, hunattributed⟩
      rw [serve_of_judged unicode cred hjudged] at hdenied
      rw [verdict_of_judged unicode hjudged]
      by_cases hsecrets : (found server outcomes req).secrets = []
      · exact Or.inr ⟨fun hrolled => hrolled.2.1 hsecrets,
          protectedAfter_of_no_protector before (protectorCalls_of_no_secrets hsecrets)⟩
      · rw [judge_of_secrets unicode hsecrets] at hdenied ⊢
        by_cases hrolled : ∃ start, outcomes.startBefore = .ok start ∧
            outcomes.startAfter ≠ .ok start
        · obtain ⟨start, hbefore, hafter⟩ := hrolled
          exact Or.inl ⟨⟨hjudged, hsecrets, start, hbefore, hafter⟩,
            protectedAfter_rollback before hbefore hafter hunprotect⟩
        · push Not at hrolled
          refine Or.inr ⟨fun hback => ?_, protectedAfter_of_agreement before hrolled hdenied⟩
          obtain ⟨start, hbefore, hafter⟩ := hback.2.2
          exact hafter (hrolled start hbefore)

end Denials

/-- Where removing an entry succeeds, a denied request leaves no protection behind
and touches no other process.  It leaves the protected set as it found it exactly
unless it rolls back and the caller had been protected before. -/
theorem denied_request_keeps_set_iff (unicode : Unicode) (server : Server) (outcomes : Outcomes)
    (cred : Ucred) (req : Request) (before : Finset UInt32)
    (hunprotect : outcomes.unprotectPID = none)
    (hdenied : (serve unicode server outcomes cred req).1.ok = false) :
    let after := protectedAfter before (serve unicode server outcomes cred req).2
    after ⊆ before ∧ (∀ pid ≠ cred.pid.toUInt32, pid ∈ after ↔ pid ∈ before) ∧
    (after = before ↔
      ¬ (RolledBack server outcomes req ∧ cred.pid.toUInt32 ∈ before)) := by
  intro after
  rcases protectedAfter_serve before hunprotect hdenied with ⟨hrolled, hafter⟩ | ⟨hrolled, hafter⟩
  · have herase : after = before.erase cred.pid.toUInt32 := hafter
    rw [herase]
    refine ⟨Finset.erase_subset _ _, fun pid hpid => ?_, ?_⟩
    · rw [Finset.mem_erase, and_iff_right hpid]
    · rw [Finset.erase_eq_self, not_and]
      exact ⟨fun hnew _ => hnew, fun hnew => hnew hrolled⟩
  · have hsame : after = before := hafter
    rw [hsame]
    exact ⟨Finset.Subset.refl _, fun _ _ => Iff.rfl,
      iff_of_true rfl fun hback => hrolled hback.1⟩

/-- One binding for everyone, protection required. -/
def tokenServer : Server where
  cfg := { requireProtection := true, identifyCallers := false, requirePodIdentity := false }
  bindings := [{ name := str "app", selector := { binary := str "node" },
                 secrets := [⟨str "TOKEN", str "t"⟩] }]

/-- Every call succeeds. -/
def goodOutcomes : Outcomes where
  identify := ({}, none)
  startBefore := .ok 1
  startAfter := .ok 1
  protectPID := none
  trackPID := none
  unprotectPID := none

/-- The second read of the start time fails. -/
def unreadOutcomes : Outcomes := { goodOutcomes with startAfter := .error (str "interrupted") }

theorem first_request_rolled_back :
    protectedAfter {9} (serve Unicode.ascii tokenServer unreadOutcomes ⟨7⟩ ⟨str "node"⟩).2 =
      {9} :=
  (denied_request_keeps_set_iff Unicode.ascii tokenServer unreadOutcomes ⟨7⟩ ⟨str "node"⟩ {9} rfl
    (by decide)).2.2.2 fun hback => absurd hback.2 (by decide)

/-- A process that was sent its secrets asks again, one read of its start time fails,
and it goes on running without protection. -/
theorem granted_protection_removed :
    (serve Unicode.ascii tokenServer goodOutcomes ⟨7⟩ ⟨str "node"⟩).1.ok = true ∧
      protectedAfter ∅ (serve Unicode.ascii tokenServer goodOutcomes ⟨7⟩ ⟨str "node"⟩).2 = {7} ∧
      (serve Unicode.ascii tokenServer unreadOutcomes ⟨7⟩ ⟨str "node"⟩).1.ok = false ∧
      protectedAfter {7} (serve Unicode.ascii tokenServer unreadOutcomes ⟨7⟩ ⟨str "node"⟩).2 =
        ∅ := by
  decide

end KernelSeal.Denials

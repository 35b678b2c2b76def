import KernelSeal.Server.Authorization
import KernelSeal.Server.Connection

/-!
# What a reply answers

A completed run of `handle` is the one that the outcomes of its calls determine.  This file
recovers the outcomes from the calls of a connection that has replied, and with them the
caller that it identified and the protection that it saw applied.
-/

namespace KernelSeal.Exchange

open KernelSeal.Text
open KernelSeal.Registry
open KernelSeal.Resumption
open KernelSeal.Resumption.Prog
open KernelSeal.Delivery
open KernelSeal.Release
open KernelSeal.Serving
open KernelSeal.Connection (handshake opsIn_handle path_handleConn preamble)

variable {unicode : Unicode} {server : Server} {cred : Ucred} {req : Request}
  {outcomes : Outcomes} {calls handled : List Step} {response : Response}

/-! ## Outcomes of a run -/

/-- A verdict is carried out as some outcomes of its calls determine. -/
theorem exists_outcomes_of_conclude {pid : UInt32} {verdict : Verdict}
    (hrun : Path (conclude server pid verdict) calls (ret response)) (identify : Identified) :
    ∃ outcomes : Outcomes, outcomes.identify = identify ∧
      answer server outcomes verdict = response ∧
      answerCalls server outcomes pid verdict = calls := by
  cases verdict with
  | deny reason error =>
      obtain ⟨rfl, rfl⟩ := path_denied_iff.1 hrun
      exact ⟨⟨identify, .error [], .error [], none, none, none⟩, rfl, rfl, rfl⟩
  | allow warning =>
      obtain ⟨rfl, hresponse⟩ := path_ret_iff.1 hrun
      cases hresponse
      exact ⟨⟨identify, .error [], .error [], none, none, none⟩, rfl, rfl, rfl⟩
  | release matched =>
      cases release_runs hrun with
      | vanished err =>
          exact ⟨⟨identify, .error err, .error [], none, none, none⟩, rfl, rfl, rfl⟩
      | recycled startBefore startAfter protectErr trackErr unprotectErr hdiffers =>
          refine ⟨⟨identify, .ok startBefore, startAfter, protectErr, trackErr, unprotectErr⟩, rfl,
            ?_, ?_⟩
          · simp [answer, settle, hdiffers]
          · simp [answerCalls, settleCalls, hdiffers]
      | unprotected start protectErr trackErr hrequired =>
          refine ⟨⟨identify, .ok start, .ok start, protectErr, trackErr, none⟩, rfl, ?_, ?_⟩
          · simp [answer, settle, agrees, hrequired]
          · simp [answerCalls, settleCalls, agrees, hrequired]
      | released start protectErr trackErr hallowed =>
          refine ⟨⟨identify, .ok start, .ok start, protectErr, trackErr, none⟩, rfl, ?_, ?_⟩
          · simp only [answer, settle, agrees, decide_true, not_true_eq_false, if_false,
              if_neg hallowed]
          · simp only [answerCalls, settleCalls, agrees, decide_true, not_true_eq_false, if_false,
              if_neg hallowed]

/-- Every completed run of `handle` is the one that some outcomes of its calls determine. -/
theorem exists_outcomes (hrun : Path (handle unicode server cred req) calls (ret response)) :
    ∃ outcomes, serve unicode server outcomes cred req = (response, calls) := by
  rw [handle_eq] at hrun
  split_ifs at hrun with hunnamed
  · obtain ⟨outcomes, _, hresponse, hcalls⟩ := exists_outcomes_of_conclude hrun ({}, none)
    refine ⟨outcomes, ?_⟩
    rw [serve_eq, if_pos hunnamed, ← hresponse, ← hcalls]
    rfl
  · obtain ⟨before, caller, after, rfl, hbefore, hafter⟩ := path_bind_ret_iff.1 hrun
    obtain ⟨outcomes, hidentify, hresponse, hcalls⟩ := exists_outcomes_of_conclude hafter caller
    have hidentified : identified server outcomes = caller ∧
        identifyCalls server outcomes cred.pid.toUInt32 = before := by
      rw [identified, identifyCalls, hidentify]
      rw [identify] at hbefore
      split_ifs at hbefore ⊢
      · obtain ⟨caller, rest, rfl, hrest⟩ := path_call_ret_iff.1 hbefore
        obtain ⟨rfl, hcaller⟩ := path_ret_iff.1 hrest
        cases hcaller
        exact ⟨rfl, rfl⟩
      · obtain ⟨rfl, hcaller⟩ := path_ret_iff.1 hbefore
        cases hcaller
        exact ⟨rfl, rfl⟩
      · obtain ⟨rfl, hcaller⟩ := path_ret_iff.1 hbefore
        cases hcaller
        exact ⟨rfl, rfl⟩
    refine ⟨outcomes, ?_⟩
    rw [serve_eq, if_neg hunnamed, hidentified.1, hidentified.2, hresponse, hcalls]

/-! ## The exchange of a connection -/

/-- The connection has decoded a request, handled it with these outcomes, and replied. -/
structure Exchanged (unicode : Unicode) (server : Server) (calls : List Step) (cred : Ucred)
    (req : Request) (outcomes : Outcomes) (response : Response) (handled : List Step) : Prop where
  made : ∃ replyErr, calls = preamble cred req ++ handled ++ [⟨.reply response, replyErr⟩]
  served : serve unicode server outcomes cred req = (response, handled)

/-- A reply that says more than an error ends an exchange. -/
theorem exists_exchanged {final : Program Unit}
    (hpath : Path (handleConn unicode server) calls final) {replyErr : Option GoError}
    (hreply : ⟨Op.reply response, replyErr⟩ ∈ calls)
    (hsaid : ∀ error, response ≠ { error := error }) :
    ∃ cred req outcomes handled,
      Exchanged unicode server calls cred req outcomes response handled := by
  rcases path_handleConn hpath with hearly | ⟨cred, req, rest, rfl, hrest⟩
  · cases hearly.made _ hreply
    exact absurd rfl (hsaid _)
  have hmade : ⟨Op.reply response, replyErr⟩ ∈ rest := by
    simpa [preamble] using hreply
  rcases path_bind_iff.1 hrest with
    ⟨middle, hmiddle, _⟩ | ⟨first, value, after, rfl, hfirst, hafter⟩
  · cases (hmiddle.opsIn (opsIn_handle cred req)).1 _ hmade
  · rcases List.mem_append.1 hmade with hinside | hafterwards
    · cases (hfirst.opsIn (opsIn_handle cred req)).1 _ hinside
    · rw [perform_bind, path_call_iff] at hafter
      rcases hafter with ⟨rfl, _⟩ | ⟨sent, tail, rfl, htail⟩
      · cases hafterwards
      · obtain ⟨rfl, _⟩ := path_ret_iff.1 htail
        cases List.mem_singleton.1 hafterwards
        obtain ⟨outcomes, hserve⟩ := exists_outcomes hfirst
        exact ⟨cred, req, outcomes, first, ⟨replyErr, (List.append_assoc _ _ _).symm⟩, hserve⟩

section Released

variable (hexchanged : Exchanged unicode server calls cred req outcomes response handled)
include hexchanged

theorem Exchanged.delivers (henv : response.env ≠ ∅) :
    Judged server outcomes req ∧ Delivers server outcomes := by
  have hresponse : (serve unicode server outcomes cred req).1 = response :=
    congrArg Prod.fst hexchanged.served
  exact delivers_of_env unicode cred (hresponse ▸ henv)

/-- What was done for a request that is answered with secrets. -/
theorem Exchanged.handled_eq (henv : response.env ≠ ∅) :
    ∃ start, handled = identifyCalls server outcomes cred.pid.toUInt32 ++
      (handshake cred.pid.toUInt32 start (.ok start) outcomes.protectPID outcomes.trackPID ++
        issuedCalls server cred.pid.toUInt32
          (sortStrings ((found server outcomes req).secrets.map Secret.name))) := by
  obtain ⟨hjudged, hdelivers⟩ := hexchanged.delivers henv
  have hhandled : (serve unicode server outcomes cred req).2 = handled :=
    congrArg Prod.snd hexchanged.served
  have hsecrets : (found server outcomes req).secrets ≠ [] := by
    intro hnone
    have hresponse : (serve unicode server outcomes cred req).1 = response :=
      congrArg Prod.fst hexchanged.served
    rw [← hresponse, env_of_delivers unicode cred hjudged hdelivers, hnone] at henv
    exact henv rfl
  rw [serve_calls_of_judged unicode cred hjudged, judge_of_secrets unicode hsecrets] at hhandled
  obtain ⟨⟨start, hbefore, hafter⟩, hallowed⟩ := hdelivers
  refine ⟨start, hhandled.symm.trans ?_⟩
  have hagrees : agrees start (.ok start) = true := agrees_iff.2 rfl
  rw [answerCalls, settleCalls, hbefore, hafter]
  simp only [hagrees, not_true_eq_false, if_false, if_neg hallowed, handshake]

/-- Where protection is required, it did not fail. -/
theorem Exchanged.protectPID_eq_none (henv : response.env ≠ ∅)
    (hrequired : server.cfg.requireProtection = true) : outcomes.protectPID = none := by
  obtain ⟨_, _, hallowed⟩ := hexchanged.delivers henv
  by_contra hfailed
  exact hallowed ⟨Option.isSome_iff_ne_none.2 hfailed, hrequired⟩

/-- It was applied before the secrets were sent. -/
theorem Exchanged.protectPID_mem (henv : response.env ≠ ∅)
    (hrequired : server.cfg.requireProtection = true) :
    ⟨.protectPID cred.pid.toUInt32, none⟩ ∈ handled := by
  obtain ⟨start, hhandled⟩ := hexchanged.handled_eq henv
  simp [hhandled, handshake, hexchanged.protectPID_eq_none henv hrequired]

end Released

end KernelSeal.Exchange

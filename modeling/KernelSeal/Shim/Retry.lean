import KernelSeal.Shim.Environment

/-!
# From the start of the shim to the start of its target

This file models `main` of `kernelseal-exec` after its flags, with `fetchSecrets`, which
asks until the agent answers or time is up, and `requestOnce` by the calls it makes.  What
can be observed of a run are its attempts to connect, each with the time that was left, and
the answers that could be read.
-/

namespace KernelSeal.Retry

open KernelSeal.Text
open KernelSeal.Json
open KernelSeal.Resumption
open KernelSeal.Resumption.Prog
open KernelSeal.Delivery (Response)
open KernelSeal.Shim (Iteration mapMembers maxMessageSize mergeEnv ofJson)

/-! ## Errors -/

/-- What `isConnectError` looks for in the chain of an error, and anything else. -/
inductive Link where
  | opError
  | enoent
  | econnrefused
  | other
  deriving DecidableEq

/-- An error by its text and by the errors it wraps, itself first. -/
structure Err where
  text : GoString
  chain : List Link := [.other]
  deriving DecidableEq

/-- `fmt.Errorf` with `%w`. -/
def Err.wrap (err : Err) (front : GoString) : Err := ⟨front ++ err.text, .other :: err.chain⟩

/-- `isConnectError`. -/
def isConnectError (err : Err) : Bool :=
  .opError ∈ err.chain ∨ .enoent ∈ err.chain ∨ .econnrefused ∈ err.chain

/-! ## The calls -/

/-- What can be read of a response, and the error of `Decode` if it fails. -/
structure Received where
  bytes : GoString
  err : Err

/-- What the shim asks of its surroundings.  Times and durations are in nanoseconds. -/
inductive Op where
  | now
  | dial (timeout : ℤ)
  | setDeadline (deadline : ℤ)
  | send (binary : GoString)
  | receive
  | sleep (duration : ℤ)
  | lookPath (command : GoString)
  | environ
  | range (overlay : StringMap)
  | warn (text : GoString)
  | usage
  | exec (path : GoString) (argv env : List GoString)

/-- `range` answers with an order of the map, and `exec` returns only with an error. -/
@[reducible]
def Op.Ans : Op → Type
  | .now => ℤ
  | .dial _ | .setDeadline _ | .send _ => Option Err
  | .receive => Received
  | .sleep _ | .warn _ | .usage => Unit
  | .lookPath _ => Except Err GoString
  | .environ => List GoString
  | .range overlay => Iteration overlay
  | .exec _ _ _ => Err

abbrev Program := Prog Op Op.Ans

abbrev Step := Call Op Op.Ans

/-- The flags. -/
structure Options where
  socketPath : GoString
  timeout : ℤ
  retryInterval : ℤ
  onError : GoString

/-! ## Fetching -/

/-- What `Decode` makes of the bytes that the limited reader lets through. -/
def readResponse (bytes : GoString) : Option Response :=
  (decode (bytes.take maxMessageSize)).bind ofJson

/-- The error of a response that refuses. -/
def refusal (response : Response) : Err where
  text := if response.error = [] then str "agent refused the request" else response.error

/-- What `requestOnce` makes of a response. -/
def settle (response : Response) : Except Err Response :=
  if ¬ response.ok then .error (refusal response) else .ok response

/-- `requestOnce`. -/
def requestOnce (socketPath binaryPath : GoString) (remaining : ℤ) :
    Program (Except Err Response) :=
  if remaining ≤ 0 then ret (.error { text := str "timed out connecting to " ++ socketPath })
  else call (.dial remaining) fun dialError =>
    match dialError with
    | some err => ret (.error err)
    | none =>
    call .now fun time =>
    call (.setDeadline (time + remaining)) fun deadlineError =>
    match deadlineError with
    | some err => ret (.error err)
    | none =>
    call (.send binaryPath) fun sendError =>
    match sendError with
    | some err => ret (.error (err.wrap (str "sending request: ")))
    | none =>
    call .receive fun received =>
    match readResponse received.bytes with
    | none => ret (.error (received.err.wrap (str "reading response: ")))
    | some response => ret (settle response)

section Fetching

variable (durationText : ℤ → GoString) (options : Options) (binaryPath : GoString)

/-- The error of `fetchSecrets` when its time is up. -/
def unreachable (lastErr : Err) : Err :=
  lastErr.wrap (str "agent unreachable at " ++ options.socketPath ++ str " after " ++
    durationText options.timeout ++ str ": ")

/-- The loop of `fetchSecrets`, for some rounds. -/
def fetchLoop (deadline : ℤ) : ℕ → Program (Option (Except Err Response))
  | 0 => ret none
  | rounds + 1 =>
      call .now fun asked => do
        match ← requestOnce options.socketPath binaryPath (deadline - asked) with
        | .ok response => ret (some (.ok response))
        | .error err =>
            if ¬ isConnectError err then ret (some (.error err))
            else call .now fun failed =>
              if ¬ failed + options.retryInterval < deadline then
                ret (some (.error (unreachable durationText options err)))
              else call (.sleep options.retryInterval) fun _ => fetchLoop deadline rounds

/-- `fetchSecrets`, for some rounds. -/
def fetchSecrets (rounds : ℕ) : Program (Option (Except Err Response)) :=
  call .now fun time => fetchLoop durationText options binaryPath (time + options.timeout) rounds

end Fetching

/-! ## `main` -/

/-- How the shim ends when it does not become its target: with an exit code, or not within
the rounds. -/
inductive Outcome where
  | exited (code : ℕ)
  | waiting
  deriving DecidableEq

/-- `exitUsage`. -/
def exitUsage : ℕ := 2

/-- `exitFailure`. -/
def exitFailure : ℕ := 1

def warnf (text : GoString) : Program Unit :=
  perform (Op.warn (str "kernelseal-exec: " ++ text ++ str "\n"))

/-- `parseOnError`. -/
def parseOnError (unicode : Unicode) (value : GoString) : Except GoString Bool :=
  if value = str "fail" then .ok true
  else if value = str "continue" then .ok false
  else .error (str "invalid -on-error " ++ quote unicode value ++
    str ": want \"fail\" or \"continue\"")

def warnIf (condition : Prop) [Decidable condition] (text : GoString) : Program Unit :=
  if condition then warnf text else ret ()

/-- The end of `main`, with the response it goes on with. -/
def start (binaryPath : GoString) (argv : List GoString) (response : Response) :
    Program Outcome :=
  call .environ fun environ =>
  call (.range response.env) fun order => do
    warnIf (response.warning ≠ []) (str "warning: " ++ response.warning)
    warnIf (response.env ≠ ∅ ∧ ¬ response.isProtected) (str "warning: " ++
      decimal response.env.keys.card ++ str " secrets applied without kernel protection")
    call (.exec binaryPath argv (mergeEnv environ response.env order)) fun err => do
      warnf (str "exec " ++ binaryPath ++ str ": " ++ err.text)
      ret (.exited exitFailure)

/-- `main` after its flags. -/
def main (unicode : Unicode) (durationText : ℤ → GoString) (options : Options)
    (argv : List GoString) (rounds : ℕ) : Program Outcome :=
  match argv with
  | [] => do
      warnf (str "no command given")
      perform Op.usage
      ret (.exited exitUsage)
  | command :: _ =>
      match parseOnError unicode options.onError with
      | .error err => do
          warnf err
          ret (.exited exitUsage)
      | .ok failClosed =>
          call (.lookPath command) fun found =>
            match found with
            | .error err => do
                warnf err.text
                ret (.exited exitFailure)
            | .ok binaryPath => do
                match ← fetchSecrets durationText options binaryPath rounds with
                | none => ret .waiting
                | some (.ok response) => start binaryPath argv response
                | some (.error err) =>
                    if failClosed then do
                      warnf (str "refusing to start " ++ binaryPath ++
                        str " without secrets: " ++ err.text)
                      warnf (str "pass -on-error=continue to exec anyway")
                      ret (.exited exitFailure)
                    else do
                      warnf (str "continuing without secrets: " ++ err.text)
                      start binaryPath argv { ok := true }

/-! ## What is observed -/

inductive Event where
  | dial (remaining : ℤ)
  | answer (response : Response)

def observe : Step → Option Event
  | ⟨.dial remaining, _⟩ => some (.dial remaining)
  | ⟨.receive, received⟩ => (readResponse received.bytes).map .answer
  | _ => none

/-- The attempts and the answers of a run. -/
def trace (calls : List Step) : List Event := calls.filterMap observe

/-- The time after some calls, as far as it is known. -/
def after : ℤ → List Step → ℤ
  | time, [] => time
  | _, ⟨.now, reading⟩ :: calls => after reading calls
  | time, ⟨.sleep duration, _⟩ :: calls => after (time + max duration 0) calls
  | time, _ :: calls => after time calls

/-- The clock does not go back, and no sleep is too short. -/
def WellTimed : ℤ → List Step → Prop
  | _, [] => True
  | time, ⟨.now, reading⟩ :: calls => time ≤ reading ∧ WellTimed reading calls
  | time, ⟨.sleep duration, _⟩ :: calls => WellTimed (time + max duration 0) calls
  | time, _ :: calls => WellTimed time calls

instance WellTimed.decidable : (time : ℤ) → (calls : List Step) → Decidable (WellTimed time calls)
  | _, [] => isTrue trivial
  | time, ⟨.now, reading⟩ :: calls =>
      have := WellTimed.decidable reading calls
      inferInstanceAs (Decidable (time ≤ reading ∧ WellTimed reading calls))
  | time, ⟨.sleep duration, _⟩ :: calls => WellTimed.decidable (time + max duration 0) calls
  | time, ⟨.dial _, _⟩ :: calls => WellTimed.decidable time calls
  | time, ⟨.setDeadline _, _⟩ :: calls => WellTimed.decidable time calls
  | time, ⟨.send _, _⟩ :: calls => WellTimed.decidable time calls
  | time, ⟨.receive, _⟩ :: calls => WellTimed.decidable time calls
  | time, ⟨.lookPath _, _⟩ :: calls => WellTimed.decidable time calls
  | time, ⟨.environ, _⟩ :: calls => WellTimed.decidable time calls
  | time, ⟨.range _, _⟩ :: calls => WellTimed.decidable time calls
  | time, ⟨.warn _, _⟩ :: calls => WellTimed.decidable time calls
  | time, ⟨.usage, _⟩ :: calls => WellTimed.decidable time calls
  | time, ⟨.exec _ _ _, _⟩ :: calls => WellTimed.decidable time calls

section Timing

theorem trace_append (calls rest : List Step) : trace (calls ++ rest) = trace calls ++ trace rest :=
  List.filterMap_append

theorem trace_receive (received : Received) :
    trace [⟨.receive, received⟩] = ((readResponse received.bytes).map Event.answer).toList := by
  cases hread : readResponse received.bytes <;> simp [trace, observe, hread]

theorem wellTimed_append {time : ℤ} {calls rest : List Step} :
    WellTimed time (calls ++ rest) ↔ WellTimed time calls ∧ WellTimed (after time calls) rest := by
  induction calls generalizing time with
  | nil => simp [WellTimed, after]
  | cons step calls ih =>
      obtain ⟨op, answer⟩ := step
      cases op with
      | now => simp [WellTimed, after, ih, and_assoc]
      | _ => simp [WellTimed, after, ih]

theorem le_after {time : ℤ} {calls : List Step} (htimed : WellTimed time calls) :
    time ≤ after time calls := by
  induction calls generalizing time with
  | nil => exact le_refl time
  | cons step calls ih =>
      obtain ⟨op, answer⟩ := step
      cases op with
      | now => exact htimed.1.trans (ih htimed.2)
      | sleep duration =>
          have hlater := ih htimed
          have hpositive : time ≤ time + max duration 0 := by omega
          exact hpositive.trans hlater
      | _ => exact ih htimed

end Timing

/-! ## One attempt -/

/-- The calls that one `requestOnce` makes, and what it returns. -/
inductive Requested (socketPath binaryPath : GoString) (remaining : ℤ) :
    List Step → Except Err Response → Prop
  | late (hlate : remaining ≤ 0) :
      Requested socketPath binaryPath remaining []
        (.error { text := str "timed out connecting to " ++ socketPath })
  | undialed (htime : 0 < remaining) (err : Err) :
      Requested socketPath binaryPath remaining [⟨.dial remaining, some err⟩] (.error err)
  | unlimited (htime : 0 < remaining) (time : ℤ) (err : Err) :
      Requested socketPath binaryPath remaining
        [⟨.dial remaining, none⟩, ⟨.now, time⟩, ⟨.setDeadline (time + remaining), some err⟩]
        (.error err)
  | unsent (htime : 0 < remaining) (time : ℤ) (err : Err) :
      Requested socketPath binaryPath remaining
        [⟨.dial remaining, none⟩, ⟨.now, time⟩, ⟨.setDeadline (time + remaining), none⟩,
          ⟨.send binaryPath, some err⟩]
        (.error (err.wrap (str "sending request: ")))
  | unread (htime : 0 < remaining) (time : ℤ) (received : Received)
      (hread : readResponse received.bytes = none) :
      Requested socketPath binaryPath remaining
        [⟨.dial remaining, none⟩, ⟨.now, time⟩, ⟨.setDeadline (time + remaining), none⟩,
          ⟨.send binaryPath, none⟩, ⟨.receive, received⟩]
        (.error (received.err.wrap (str "reading response: ")))
  | answered (htime : 0 < remaining) (time : ℤ) (received : Received) (response : Response)
      (hread : readResponse received.bytes = some response) :
      Requested socketPath binaryPath remaining
        [⟨.dial remaining, none⟩, ⟨.now, time⟩, ⟨.setDeadline (time + remaining), none⟩,
          ⟨.send binaryPath, none⟩, ⟨.receive, received⟩]
        (settle response)

theorem requested_of_path {socketPath binaryPath : GoString} {remaining : ℤ} {calls : List Step}
    {result : Except Err Response}
    (hpath : Path (requestOnce socketPath binaryPath remaining) calls (ret result)) :
    Requested socketPath binaryPath remaining calls result := by
  rw [requestOnce] at hpath
  split_ifs at hpath with hlate
  · obtain ⟨rfl, hresult⟩ := path_ret_iff.1 hpath
    cases hresult
    exact .late hlate
  have htime : 0 < remaining := not_le.1 hlate
  obtain ⟨dialError, rest, rfl, hdialed⟩ := path_call_ret_iff.1 hpath
  cases dialError with
  | some err =>
      obtain ⟨rfl, hresult⟩ := path_ret_iff.1 hdialed
      cases hresult
      exact .undialed htime err
  | none =>
  obtain ⟨time, rest, rfl, htimed⟩ := path_call_ret_iff.1 hdialed
  obtain ⟨deadlineError, rest, rfl, hlimited⟩ := path_call_ret_iff.1 htimed
  cases deadlineError with
  | some err =>
      obtain ⟨rfl, hresult⟩ := path_ret_iff.1 hlimited
      cases hresult
      exact .unlimited htime time err
  | none =>
  obtain ⟨sendError, rest, rfl, hsent⟩ := path_call_ret_iff.1 hlimited
  cases sendError with
  | some err =>
      obtain ⟨rfl, hresult⟩ := path_ret_iff.1 hsent
      cases hresult
      exact .unsent htime time err
  | none =>
  obtain ⟨received, rest, rfl, hreceived⟩ := path_call_ret_iff.1 hsent
  cases hread : readResponse received.bytes with
  | none =>
      simp only [hread, path_ret_iff] at hreceived
      obtain ⟨rfl, hresult⟩ := hreceived
      cases hresult
      exact .unread htime time received hread
  | some response =>
      simp only [hread, path_ret_iff] at hreceived
      obtain ⟨rfl, hresult⟩ := hreceived
      cases hresult
      exact .answered htime time received response hread

/-- What one call of `requestOnce` is observed to do, and what it returns. -/
inductive Attempted (remaining : ℤ) : List Event → Except Err Response → Prop
  | late (hlate : remaining ≤ 0) (err : Err) (hfinal : isConnectError err = false) :
      Attempted remaining [] (.error err)
  | failed (htime : 0 < remaining) (err : Err) : Attempted remaining [.dial remaining] (.error err)
  | answered (htime : 0 < remaining) (response : Response) :
      Attempted remaining [.dial remaining, .answer response] (settle response)

theorem attempted_of_path {socketPath binaryPath : GoString} {remaining : ℤ} {calls : List Step}
    {result : Except Err Response}
    (hpath : Path (requestOnce socketPath binaryPath remaining) calls (ret result)) :
    Attempted remaining (trace calls) result := by
  cases requested_of_path hpath with
  | late hlate => exact .late hlate _ rfl
  | undialed htime err => exact .failed htime err
  | unlimited htime time err => exact .failed htime err
  | unsent htime time err => exact .failed htime _
  | unread htime time received hread =>
      change Attempted remaining (.dial remaining :: trace [⟨.receive, received⟩]) _
      rw [trace_receive, hread]
      exact .failed htime _
  | answered htime time received response hread =>
      change Attempted remaining (.dial remaining :: trace [⟨.receive, received⟩]) _
      rw [trace_receive, hread]
      exact .answered htime response

/-- What an attempt has met, for the `requestOnce` that is a function of it. -/
def meet (exchange : Shim.Exchange) : Step → Shim.Exchange
  | ⟨.dial _, err⟩ => { exchange with dialError := err.map Err.text }
  | ⟨.setDeadline _, err⟩ => { exchange with deadlineError := err.map Err.text }
  | ⟨.send _, err⟩ => { exchange with sendError := err.map Err.text }
  | ⟨.receive, received⟩ =>
      { exchange with received := received.bytes, decodeError := received.err.text }
  | _ => exchange

/-- An attempt returns what that function makes of what it has met, but for the errors that
its own are made from.  So what is known of the function is known of every attempt. -/
theorem mapError_text_of_path {socketPath binaryPath : GoString} {remaining : ℤ}
    {calls : List Step} {result : Except Err Response}
    (hpath : Path (requestOnce socketPath binaryPath remaining) calls (ret result)) :
    result.mapError Err.text =
      Shim.requestOnce socketPath remaining (calls.foldl meet { received := [] }) := by
  rw [Shim.requestOnce]
  cases requested_of_path hpath with
  | late hlate =>
      rw [if_pos hlate]
      rfl
  | undialed htime err | unlimited htime time err | unsent htime time err =>
      rw [if_neg (not_le.2 htime)]
      rfl
  | unread htime time received hread =>
      have hdecode : (decode (received.bytes.take maxMessageSize)).bind ofJson = none := hread
      rw [if_neg (not_le.2 htime)]
      simp only [List.foldl_cons, List.foldl_nil, meet, Option.map_none, hdecode]
      rfl
  | answered htime time received response hread =>
      have hdecode : (decode (received.bytes.take maxMessageSize)).bind ofJson = some response :=
        hread
      rw [if_neg (not_le.2 htime)]
      simp only [List.foldl_cons, List.foldl_nil, meet, Option.map_none, hdecode]
      rw [settle, apply_ite (Except.mapError Err.text)]
      rfl

/-! ## All attempts -/

/-- What is observed of fetching and what it returns: some attempts, and after the last one
an answer or none. -/
structure Fetch (events : List Event) (result : Option (Except Err Response))
    (remainings : List ℤ) (answer : Option Response) : Prop where
  events_eq : events = remainings.map .dial ++ answer.toList.map .answer
  answered : ∀ response, answer = some response → result = some (settle response)
  unanswered : answer = none → ∀ response, result ≠ some (.ok response)

/-- The attempts are at least the retry interval apart, and all of them are made in time. -/
structure Paced (retryInterval window : ℤ) (remainings : List ℤ) : Prop where
  spaced : remainings.Pairwise fun earlier later => later + max retryInterval 0 ≤ earlier
  inTime : ∀ remaining ∈ remainings, 0 < remaining ∧ remaining ≤ window

section Loop

variable {durationText : ℤ → GoString} {options : Options} {binaryPath : GoString}
  {deadline time : ℤ} {calls : List Step} {result : Option (Except Err Response)}

/-- One round of the loop: the attempt settles it, time is up, or the shim sleeps and tries
again. -/
inductive Round (durationText : ℤ → GoString) (options : Options) (binaryPath : GoString)
    (deadline : ℤ) (rounds : ℕ) : List Step → Option (Except Err Response) → Prop
  | settled (asked : ℤ) (attempt : List Step) (value : Except Err Response)
      (hattempt : Path (requestOnce options.socketPath binaryPath (deadline - asked)) attempt
        (ret value))
      (hfinal : ∀ err, value = .error err → isConnectError err = false) :
      Round durationText options binaryPath deadline rounds (⟨.now, asked⟩ :: attempt) (some value)
  | late (asked : ℤ) (attempt : List Step) (err : Err) (failed : ℤ)
      (hattempt : Path (requestOnce options.socketPath binaryPath (deadline - asked)) attempt
        (ret (.error err)))
      (hconnect : isConnectError err = true) :
      Round durationText options binaryPath deadline rounds
        (⟨.now, asked⟩ :: (attempt ++ [⟨.now, failed⟩]))
        (some (.error (unreachable durationText options err)))
  | again (asked : ℤ) (attempt : List Step) (err : Err) (failed : ℤ) (later : List Step)
      (result : Option (Except Err Response))
      (hattempt : Path (requestOnce options.socketPath binaryPath (deadline - asked)) attempt
        (ret (.error err)))
      (hconnect : isConnectError err = true) (hearly : failed + options.retryInterval < deadline)
      (hlater : Path (fetchLoop durationText options binaryPath deadline rounds) later
        (ret result)) :
      Round durationText options binaryPath deadline rounds
        (⟨.now, asked⟩ ::
          (attempt ++ ⟨.now, failed⟩ :: ⟨.sleep options.retryInterval, ()⟩ :: later))
        result

theorem round_of_path {rounds : ℕ}
    (hpath : Path (fetchLoop durationText options binaryPath deadline (rounds + 1)) calls
      (ret result)) :
    Round durationText options binaryPath deadline rounds calls result := by
  rw [fetchLoop] at hpath
  obtain ⟨asked, rest, rfl, hasked⟩ := path_call_ret_iff.1 hpath
  obtain ⟨attempt, value, following, rfl, hattempt, hfollowing⟩ := path_bind_ret_iff.1 hasked
  cases value with
  | ok response =>
      obtain ⟨rfl, hresult⟩ := path_ret_iff.1 hfollowing
      cases hresult
      rw [List.append_nil]
      exact .settled asked attempt _ hattempt nofun
  | error err =>
      dsimp only at hfollowing
      split_ifs at hfollowing with hconnect
      · obtain ⟨failed, after, rfl, hfailed⟩ := path_call_ret_iff.1 hfollowing
        split_ifs at hfailed with hearly
        · obtain ⟨_, later, rfl, hlater⟩ := path_call_ret_iff.1 hfailed
          exact .again asked attempt err failed later result hattempt hconnect hearly hlater
        · obtain ⟨rfl, hresult⟩ := path_ret_iff.1 hfailed
          cases hresult
          exact .late asked attempt err failed hattempt hconnect
      · obtain ⟨rfl, hresult⟩ := path_ret_iff.1 hfollowing
        cases hresult
        rw [List.append_nil]
        refine .settled asked attempt _ hattempt fun other hother => ?_
        cases hother
        exact Bool.eq_false_of_not_eq_true hconnect

/-- An attempt that can be retried was made in time and got no answer. -/
theorem Attempted.of_connectError {remaining : ℤ} {events : List Event} {err : Err}
    (hattempted : Attempted remaining events (.error err)) (hconnect : isConnectError err = true) :
    0 < remaining ∧ events = [.dial remaining] := by
  generalize hvalue : (Except.error err : Except Err Response) = value at hattempted
  cases hattempted with
  | late hlate other hfinal =>
      cases hvalue
      exact absurd (hconnect.symm.trans hfinal) (by decide)
  | failed htime other => exact ⟨htime, rfl⟩
  | answered htime response =>
      rw [settle] at hvalue
      split_ifs at hvalue
      cases hvalue
      cases hconnect

theorem Paced.nil (retryInterval window : ℤ) : Paced retryInterval window [] := ⟨.nil, nofun⟩

theorem Paced.cons {retryInterval window wider earlier : ℤ} {remainings : List ℤ}
    (hpaced : Paced retryInterval window remainings) (htime : 0 < earlier)
    (hspaced : window + max retryInterval 0 ≤ earlier) (hwider : earlier ≤ wider) :
    Paced retryInterval wider (earlier :: remainings) := by
  constructor
  · refine List.pairwise_cons.2 ⟨fun later hlater => ?_, hpaced.spaced⟩
    have hwindow := (hpaced.inTime later hlater).2
    omega
  · refine List.forall_mem_cons.2 ⟨⟨htime, hwider⟩, fun later hlater => ?_⟩
    obtain ⟨hpositive, hwindow⟩ := hpaced.inTime later hlater
    exact ⟨hpositive, by omega⟩

theorem Paced.singleton {retryInterval window remaining : ℤ} (htime : 0 < remaining)
    (hwindow : remaining ≤ window) : Paced retryInterval window [remaining] :=
  (Paced.nil retryInterval (remaining - max retryInterval 0)).cons htime (by omega) hwindow

/-- A last attempt. -/
theorem Attempted.fetch {remaining : ℤ} {events : List Event} {value : Except Err Response}
    (hattempted : Attempted remaining events value) :
    ∃ remainings answer, Fetch events (some value) remainings answer ∧
      ∀ retryInterval window, remaining ≤ window → Paced retryInterval window remainings := by
  cases hattempted with
  | late hlate err hfinal =>
      exact ⟨[], none, ⟨rfl, nofun, fun _ => nofun⟩, fun _ _ _ => Paced.nil _ _⟩
  | failed htime err =>
      exact ⟨[remaining], none, ⟨rfl, nofun, fun _ => nofun⟩, fun _ _ => Paced.singleton htime⟩
  | answered htime response =>
      refine ⟨[remaining], some response, ⟨rfl, ?_, nofun⟩, fun _ _ => Paced.singleton htime⟩
      rintro _ ⟨⟩
      rfl

/-- An earlier attempt. -/
theorem Fetch.cons {events : List Event} {remainings : List ℤ} {answer : Option Response}
    (hfetch : Fetch events result remainings answer) (earlier : ℤ) :
    Fetch (.dial earlier :: events) result (earlier :: remainings) answer := by
  refine ⟨?_, hfetch.answered, hfetch.unanswered⟩
  rw [hfetch.events_eq]
  rfl

theorem fetch_of_path {rounds : ℕ}
    (hpath : Path (fetchLoop durationText options binaryPath deadline rounds) calls (ret result)) :
    ∃ remainings answer, Fetch (trace calls) result remainings answer ∧
      ∀ time, WellTimed time calls → Paced options.retryInterval (deadline - time) remainings := by
  induction rounds generalizing calls with
  | zero =>
      obtain ⟨rfl, hresult⟩ := path_ret_iff.1 hpath
      cases hresult
      exact ⟨[], none, ⟨rfl, nofun, fun _ => nofun⟩, fun _ _ => Paced.nil _ _⟩
  | succ rounds ih =>
      cases round_of_path hpath with
      | settled asked attempt value hattempt hfinal =>
          obtain ⟨remainings, answer, hfetch, hpaced⟩ := (attempted_of_path hattempt).fetch
          refine ⟨remainings, answer, hfetch, fun time htimed => hpaced _ _ ?_⟩
          have hasked : time ≤ asked := htimed.1
          omega
      | late asked attempt err failed hattempt hconnect =>
          obtain ⟨htime, hevents⟩ := (attempted_of_path hattempt).of_connectError hconnect
          have htrace : trace (⟨.now, asked⟩ :: (attempt ++ [⟨.now, failed⟩])) =
              [.dial (deadline - asked)] := by
            change trace (attempt ++ [⟨.now, failed⟩]) = _
            rw [trace_append, hevents]
            rfl
          rw [htrace]
          refine ⟨[deadline - asked], none, ⟨rfl, nofun, fun _ => nofun⟩, fun time htimed => ?_⟩
          have hasked : time ≤ asked := htimed.1
          exact Paced.singleton htime (by omega)
      | again asked attempt err failed later _ hattempt hconnect hearly hlater =>
          obtain ⟨htime, hevents⟩ := (attempted_of_path hattempt).of_connectError hconnect
          obtain ⟨remainings, answer, hfetch, hpaced⟩ := ih hlater
          have htrace : trace (⟨.now, asked⟩ :: (attempt ++ ⟨.now, failed⟩ ::
              ⟨.sleep options.retryInterval, ()⟩ :: later)) =
              .dial (deadline - asked) :: trace later := by
            change trace (attempt ++ _) = _
            rw [trace_append, hevents]
            rfl
          rw [htrace]
          refine ⟨_, answer, hfetch.cons _, fun time htimed => ?_⟩
          obtain ⟨hasked, hrest⟩ : time ≤ asked ∧ WellTimed asked _ := htimed
          obtain ⟨hattempted, hfailed, hslept⟩ := wellTimed_append.1 hrest
          have hduration := le_after hattempted
          exact (hpaced _ hslept).cons htime (by omega) (by omega)

/-- Enough rounds are never used up. -/
theorem returns_of_path {rounds : ℕ} (hrounds : 0 < rounds) (hinterval : 0 < options.retryInterval)
    (henough : deadline - time ≤ rounds * options.retryInterval)
    (hpath : Path (fetchLoop durationText options binaryPath deadline rounds) calls (ret result))
    (htimed : WellTimed time calls) : result ≠ none := by
  induction rounds generalizing time calls with
  | zero => exact absurd hrounds (lt_irrefl 0)
  | succ rounds ih =>
      cases round_of_path hpath with
      | settled asked attempt value hattempt hfinal => nofun
      | late asked attempt err failed hattempt hconnect => nofun
      | again asked attempt err failed later _ hattempt hconnect hearly hlater =>
          obtain ⟨hasked, hrest⟩ : time ≤ asked ∧ WellTimed asked _ := htimed
          obtain ⟨hattempted, hfailed, hslept⟩ := wellTimed_append.1 hrest
          have hduration := le_after hattempted
          rw [Nat.cast_succ, Int.add_mul, Int.one_mul] at henough
          -- a round that sleeps is not the last one: the interval still fits
          have hleft : 0 < rounds := by
            by_contra hnone
            rw [Nat.eq_zero_of_not_pos hnone, Nat.cast_zero, Int.zero_mul] at henough
            omega
          exact ih hleft (by omega) hlater hslept

end Loop

/-- Attempts that are a positive interval apart are not many. -/
theorem Paced.length_le {retryInterval window : ℤ} {remainings : List ℤ} {rounds : ℕ}
    (hpaced : Paced retryInterval window remainings) (hinterval : 0 < retryInterval)
    (henough : window ≤ rounds * retryInterval) : remainings.length ≤ rounds := by
  induction remainings generalizing window rounds with
  | nil => exact Nat.zero_le _
  | cons first remainings ih =>
      obtain ⟨hlater, hspaced⟩ := List.pairwise_cons.1 hpaced.spaced
      obtain ⟨⟨hpositive, hfirst⟩, hrest⟩ := List.forall_mem_cons.1 hpaced.inTime
      cases rounds with
      | zero =>
          rw [Nat.cast_zero, Int.zero_mul] at henough
          omega
      | succ rounds =>
          rw [Nat.cast_succ, Int.add_mul, Int.one_mul] at henough
          have hpacedLater : Paced retryInterval (window - retryInterval) remainings :=
            ⟨hspaced, fun later hmem => ⟨(hrest later hmem).1, by
              have hbefore := hlater later hmem
              omega⟩⟩
          exact Nat.succ_le_succ (ih hpacedLater (by omega))

/-! ## An agent that is late -/

theorem map_fst_mapMembers (overlay : StringMap) :
    (mapMembers overlay).map Prod.fst = overlay.keys.sort (· ≤ ·) := by
  rw [mapMembers, List.map_map]
  exact List.map_id _

/-- The order in which a map is encoded. -/
def sortedOrder (overlay : StringMap) : Iteration overlay where
  names := (mapMembers overlay).map Prod.fst
  nodup := by
    rw [map_fst_mapMembers]
    exact Finset.sort_nodup _ _
  mem_iff name := by rw [map_fst_mapMembers, Finset.mem_sort, Finmap.mem_keys]

/-- A response with one secret. -/
def secretText : GoString :=
  str "\x7b\"ok\":true,\"env\":\x7b\"TOKEN\":\"x\"\x7d,\"protected\":true\x7d"

/-- The first attempt finds no socket; the second one gets a secret. -/
def lateAgent : Oracle Op Op.Ans := fun past op =>
  match op with
  | .now => 300 * (past.length : ℤ)
  | .dial _ =>
      if (trace past).length = 0 then some ⟨str "no such file or directory", [.opError, .enoent]⟩
      else none
  | .setDeadline _ | .send _ => none
  | .receive => ⟨secretText, ⟨[], []⟩⟩
  | .sleep _ | .warn _ | .usage => ()
  | .lookPath _ => .ok (str "/bin/app")
  | .environ => [str "TOKEN=old", str "PATH=/bin"]
  | .range overlay => sortedOrder overlay
  | .exec _ _ _ => ⟨str "permission denied", [.other]⟩

def shortOptions : Options where
  socketPath := str "/run/kernelseal/kernelseal.sock"
  timeout := 15000
  retryInterval := 250
  onError := str "fail"

def fetchedLate : Option (Except Err Response) × List Step :=
  run lateAgent [] (fetchSecrets (fun _ => str "15s") shortOptions (str "/bin/app") 60)

/-- With a clock that does not go back and sleeps that are not too short, `fetchSecrets`
comes to an end.  Its attempts to connect are made in time and at least the retry interval
apart, so they are no more than the intervals that fit into the timeout.  An answer that can
be read is the last thing that happens and decides the result. -/
theorem fetchSecrets_settles (durationText : ℤ → GoString) (options : Options)
    (binaryPath : GoString) {rounds : ℕ} (hrounds : 0 < rounds)
    (hinterval : 0 < options.retryInterval)
    (henough : options.timeout ≤ rounds * options.retryInterval) {time : ℤ} {calls : List Step}
    {result : Option (Except Err Response)}
    (hpath : Path (fetchSecrets durationText options binaryPath rounds) calls (ret result))
    (htimed : WellTimed time calls) :
    ∃ (remainings : List ℤ) (answer : Option Response) (value : Except Err Response),
      result = some value ∧
      trace calls = remainings.map .dial ++ answer.toList.map .answer ∧
      remainings.length ≤ rounds ∧
      (remainings.Pairwise fun earlier later => later + options.retryInterval ≤ earlier) ∧
      (∀ remaining ∈ remainings, 0 < remaining ∧ remaining ≤ options.timeout) ∧
      match answer with
      | some response => value = settle response
      | none => ∀ response, value ≠ .ok response := by
  obtain ⟨begun, rest, rfl, hloop⟩ := path_call_ret_iff.1 hpath
  obtain ⟨_, hrest⟩ : time ≤ begun ∧ WellTimed begun rest := htimed
  have hwindow : begun + options.timeout - begun = options.timeout :=
    add_sub_cancel_left _ _
  obtain ⟨remainings, answer, hfetch, hpaced⟩ := fetch_of_path hloop
  have hspaced : Paced options.retryInterval options.timeout remainings :=
    hwindow ▸ hpaced begun hrest
  obtain ⟨value, rfl⟩ := Option.ne_none_iff_exists'.1
    (returns_of_path hrounds hinterval (by rwa [hwindow]) hloop hrest)
  refine ⟨remainings, answer, value, rfl, hfetch.events_eq, hspaced.length_le hinterval henough, ?_,
    hspaced.inTime, ?_⟩
  · exact hspaced.spaced.imp fun hapart => by omega
  · cases answer with
    | some response => exact Option.some.inj (hfetch.answered response rfl)
    | none => exact fun response hok => hfetch.unanswered rfl response (congrArg some hok)

theorem late_agent_awaited :
    (trace fetchedLate.2).length = 3 ∧
    ∃ (remainings : List ℤ) (answer : Option Response) (value : Except Err Response),
      fetchedLate.1 = some value ∧
      trace fetchedLate.2 = remainings.map .dial ++ answer.toList.map .answer ∧
      remainings.length ≤ 60 := by
  have hrounds : (0 : ℕ) < 60 := by decide
  have hpath : Path (fetchSecrets (fun _ => str "15s") shortOptions (str "/bin/app") 60)
      fetchedLate.2 (ret fetchedLate.1) := path_run lateAgent [] _
  have htimed : WellTimed 0 fetchedLate.2 := by decide +kernel
  obtain ⟨remainings, answer, value, hvalue, htrace, hlength, _⟩ :=
    fetchSecrets_settles (fun _ => str "15s") shortOptions (str "/bin/app") hrounds (by decide)
      (by decide) hpath htimed
  exact ⟨by decide +kernel, remainings, answer, value, hvalue, htrace, hlength⟩

/-! ## Starting the target -/

/-- The call starts the target. -/
def Op.Executes : Op → Prop
  | .exec _ _ _ => True
  | _ => False

/-- The call may be made while the secrets of this binary are fetched. -/
def Op.Asks (binaryPath : GoString) : Op → Prop
  | .send binary => binary = binaryPath
  | .exec _ _ _ => False
  | _ => True

/-- The call is not observed. -/
def Op.Silent : Op → Prop
  | .dial _ | .send _ | .receive => False
  | _ => True

theorem trace_of_silent {calls : List Step} (hsilent : ∀ step ∈ calls, step.op.Silent) :
    trace calls = [] := by
  rw [trace, List.filterMap_eq_nil_iff]
  rintro ⟨op, answer⟩ hstep
  have hop := hsilent _ hstep
  cases op with
  | dial remaining => exact hop.elim
  | send binary => exact hop.elim
  | receive => exact hop.elim
  | _ => rfl

section Starting

variable {unicode : Unicode} {durationText : ℤ → GoString} {options : Options}
  {binaryPath path : GoString} {argv args env : List GoString} {calls : List Step}

theorem opsIn_warnf (text : GoString) {allowed : Op → Prop} (hwarn : ∀ text, allowed (.warn text)) :
    (warnf text).OpsIn allowed :=
  ⟨hwarn _, fun _ => trivial⟩

theorem opsIn_warnIf (condition : Prop) [Decidable condition] (text : GoString)
    {allowed : Op → Prop} (hwarn : ∀ text, allowed (.warn text)) :
    (warnIf condition text).OpsIn allowed :=
  opsIn_ite (opsIn_warnf text hwarn) trivial

/-- What comes before the start of the target is over by then. -/
theorem path_of_bind_exec {α : Type} {program : Program α} {following : α → Program Outcome}
    {next : Err → Program Outcome}
    (hpath : Path (program >>= following) calls (call (.exec path args env) next))
    (hprogram : program.OpsIn fun op => ¬ op.Executes) :
    ∃ first value rest, calls = first ++ rest ∧ Path program first (ret value) ∧
      Path (following value) rest (call (.exec path args env) next) :=
  hpath.of_bind_call hprogram fun hnot => hnot trivial

theorem asks_requestOnce (socketPath : GoString) (remaining : ℤ) :
    (requestOnce socketPath binaryPath remaining).OpsIn (Op.Asks binaryPath) := by
  refine opsIn_ite trivial ⟨trivial, fun dialError => ?_⟩
  cases dialError with
  | some err => trivial
  | none =>
  refine ⟨trivial, fun time => ⟨trivial, fun deadlineError => ?_⟩⟩
  cases deadlineError with
  | some err => trivial
  | none =>
  refine ⟨rfl, fun sendError => ?_⟩
  cases sendError with
  | some err => trivial
  | none =>
  refine ⟨trivial, fun received => ?_⟩
  dsimp only
  split <;> trivial

theorem asks_fetchLoop (deadline : ℤ) (rounds : ℕ) :
    (fetchLoop durationText options binaryPath deadline rounds).OpsIn (Op.Asks binaryPath) := by
  induction rounds with
  | zero => trivial
  | succ rounds ih =>
      refine ⟨trivial, fun asked => opsIn_bind (asks_requestOnce _ _) fun value => ?_⟩
      cases value with
      | ok response => trivial
      | error err =>
          exact opsIn_ite trivial
            ⟨trivial, fun failed => opsIn_ite trivial ⟨trivial, fun _ => ih⟩⟩

theorem asks_fetchSecrets (rounds : ℕ) :
    (fetchSecrets durationText options binaryPath rounds).OpsIn (Op.Asks binaryPath) :=
  ⟨trivial, fun _ => asks_fetchLoop _ _⟩

theorem not_executes_of_asks (op : Op) (hasks : op.Asks binaryPath) : ¬ op.Executes := by
  cases op with
  | exec path args env => exact hasks.elim
  | _ => exact id

theorem silent_start (response : Response) : (start binaryPath argv response).OpsIn Op.Silent := by
  refine ⟨trivial, fun environ => ⟨trivial, fun order => ?_⟩⟩
  refine opsIn_bind (opsIn_warnIf _ _ fun _ => trivial) fun _ => ?_
  refine opsIn_bind (opsIn_warnIf _ _ fun _ => trivial) fun _ => ?_
  exact ⟨trivial, fun err => opsIn_bind (opsIn_warnf _ fun _ => trivial) fun _ => trivial⟩

/-- The target is started with the inherited environment under that of the response. -/
theorem exec_of_start {response : Response} {next : Err → Program Outcome}
    (hpath : Path (start binaryPath argv response) calls (call (.exec path args env) next)) :
    path = binaryPath ∧ args = argv ∧ ∃ environ order, ⟨.environ, environ⟩ ∈ calls ∧
      env = mergeEnv environ response.env order := by
  have hwarn (text : GoString) : ¬ Op.Executes (.warn text) := id
  rcases path_call_iff.1 hpath with ⟨_, hfinal⟩ | ⟨environ, rest, rfl, henviron⟩
  · cases hfinal
  rcases path_call_iff.1 henviron with ⟨_, hfinal⟩ | ⟨order, rest, rfl, horder⟩
  · cases hfinal
  obtain ⟨_, _, rest, rfl, _, hwarned⟩ := path_of_bind_exec horder (opsIn_warnIf _ _ hwarn)
  obtain ⟨_, _, rest, rfl, _, hexec⟩ := path_of_bind_exec hwarned (opsIn_warnIf _ _ hwarn)
  rcases path_call_iff.1 hexec with ⟨_, hfinal⟩ | ⟨err, rest, rfl, hfailed⟩
  · cases hfinal
    exact ⟨rfl, rfl, environ, order, List.mem_cons_self, rfl⟩
  · obtain ⟨_, _, rest, rfl, _, hreturned⟩ := path_of_bind_exec hfailed (opsIn_warnf _ hwarn)
    cases (path_ret_iff.1 hreturned).2

/-- Nothing but warnings comes before an exit. -/
theorem not_exec_of_exits {program : Program Outcome} {next : Err → Program Outcome}
    (hprogram : program.OpsIn fun op => ¬ op.Executes) :
    ¬ Path program calls (call (.exec path args env) next) :=
  fun hpath => (hpath.opsIn hprogram).2.1 trivial

theorem parseOnError_eq_ok_iff {value : GoString} {failClosed : Bool} :
    parseOnError unicode value = .ok failClosed ↔
      value = if failClosed then str "fail" else str "continue" := by
  have hdistinct : str "fail" ≠ str "continue" := by decide
  rw [parseOnError]
  split_ifs with hfail hcontinue hclosed hclosed hclosed <;> simp_all [hdistinct.symm]

theorem settle_eq_ok_iff {response value : Response} :
    settle response = .ok value ↔ response = value ∧ response.ok = true := by
  rw [settle]
  split_ifs with hok <;> simp_all

/-- What fetching has observed when it returns a response, and when it returns an error. -/
theorem Fetch.of_ok {events : List Event} {response : Response} {remainings : List ℤ}
    {answer : Option Response} (hfetch : Fetch events (some (.ok response)) remainings answer) :
    answer = some response ∧ response.ok = true := by
  cases answer with
  | none => exact absurd rfl (hfetch.unanswered rfl response)
  | some other =>
      have hsettled := Option.some.inj (hfetch.answered other rfl)
      obtain ⟨rfl, hok⟩ := settle_eq_ok_iff.1 hsettled.symm
      exact ⟨rfl, hok⟩

theorem Fetch.of_error {events : List Event} {err : Err} {remainings : List ℤ}
    {answer : Option Response} (hfetch : Fetch events (some (.error err)) remainings answer)
    {response : Response} (hanswer : answer = some response) : response.ok = false := by
  have hsettled := Option.some.inj (hfetch.answered response hanswer)
  rw [settle] at hsettled
  split_ifs at hsettled with hok
  exact Bool.eq_false_of_not_eq_true hok

theorem fetch_of_fetchSecrets {rounds : ℕ} {result : Option (Except Err Response)}
    (hpath : Path (fetchSecrets durationText options binaryPath rounds) calls (ret result)) :
    ∃ remainings answer, Fetch (trace calls) result remainings answer := by
  obtain ⟨begun, rest, rfl, hloop⟩ := path_call_ret_iff.1 hpath
  obtain ⟨remainings, answer, hfetch, _⟩ := fetch_of_path hloop
  exact ⟨remainings, answer, hfetch⟩

/-- How a target is started: the agent has been asked for it, and the environment is that of
a response which the agent has answered or which stands for none. -/
structure Started (options : Options) (argv : List GoString) (calls : List Step) (path : GoString)
    (args env : List GoString) (response : Response) (answer : Option Response) : Prop where
  args_eq : args = argv
  asked : ∀ binary sent, ⟨.send binary, sent⟩ ∈ calls → binary = path
  merged : ∃ environ order, ⟨.environ, environ⟩ ∈ calls ∧
    env = mergeEnv environ response.env order
  traced : ∃ remainings : List ℤ,
    trace calls = remainings.map .dial ++ answer.toList.map .answer
  decided : (answer = some response ∧ response.ok = true) ∨
    (options.onError = str "continue" ∧ response = { ok := true } ∧
      ∀ refused, answer = some refused → refused.ok = false)

theorem started_of_main {rounds : ℕ} {next : Err → Program Outcome}
    (hpath : Path (main unicode durationText options argv rounds) calls
      (call (.exec path args env) next)) :
    ∃ response answer, Started options argv calls path args env response answer := by
  have hwarn (text : GoString) : ¬ Op.Executes (.warn text) := id
  cases argv with
  | nil =>
      refine absurd hpath (not_exec_of_exits ?_)
      exact opsIn_bind (opsIn_warnf _ hwarn) fun _ => ⟨id, fun _ => trivial⟩
  | cons command argv =>
  rw [main] at hpath
  cases hparse : parseOnError unicode options.onError with
  | error err =>
      simp only [hparse] at hpath
      exact absurd hpath (not_exec_of_exits (opsIn_bind (opsIn_warnf _ hwarn) fun _ => trivial))
  | ok failClosed =>
  simp only [hparse] at hpath
  rcases path_call_iff.1 hpath with ⟨_, hfinal⟩ | ⟨found, rest, rfl, hfound⟩
  · cases hfinal
  cases found with
  | error err =>
      exact absurd hfound (not_exec_of_exits (opsIn_bind (opsIn_warnf _ hwarn) fun _ => trivial))
  | ok binaryPath =>
  obtain ⟨fetched, result, started, rfl, hfetched, hstarted⟩ :=
    path_of_bind_exec hfound ((asks_fetchSecrets rounds).mono not_executes_of_asks)
  obtain ⟨remainings, answer, hfetch⟩ := fetch_of_fetchSecrets hfetched
  have htrace (hsilent : ∀ step ∈ started, step.op.Silent) :
      trace (⟨.lookPath command, .ok binaryPath⟩ :: (fetched ++ started)) =
        remainings.map .dial ++ answer.toList.map .answer := by
    change trace (fetched ++ started) = _
    rw [trace_append, trace_of_silent hsilent, List.append_nil, hfetch.events_eq]
  have hasked (hsilent : ∀ step ∈ started, step.op.Silent) (binary : GoString)
      (sent : Option Err) (hcall : ⟨.send binary, sent⟩ ∈
        (⟨.lookPath command, .ok binaryPath⟩ :: (fetched ++ started) : List Step)) :
      binary = binaryPath := by
    rcases List.mem_cons.1 hcall with hlookup | hcall
    · cases hlookup
    rcases List.mem_append.1 hcall with hfetch | hstart
    · exact (hfetched.opsIn (asks_fetchSecrets rounds)).1 _ hfetch
    · exact (hsilent _ hstart).elim
  have hmem {step : Step} (hstep : step ∈ started) :
      step ∈ ⟨.lookPath command, .ok binaryPath⟩ :: (fetched ++ started) :=
    List.mem_cons_of_mem _ (List.mem_append_right _ hstep)
  cases result with
  | none => cases (path_ret_iff.1 hstarted).2
  | some value =>
  cases value with
  | ok response =>
      have hsilent := (hstarted.opsIn (silent_start response)).1
      obtain ⟨rfl, rfl, environ, order, henviron, rfl⟩ := exec_of_start hstarted
      exact ⟨response, answer, rfl, hasked hsilent, ⟨environ, order, hmem henviron, rfl⟩,
        ⟨remainings, htrace hsilent⟩, Or.inl hfetch.of_ok⟩
  | error err =>
      cases failClosed with
      | true =>
          refine absurd hstarted (not_exec_of_exits ?_)
          exact opsIn_bind (opsIn_warnf _ hwarn) fun _ =>
            opsIn_bind (opsIn_warnf _ hwarn) fun _ => trivial
      | false =>
          have hsilent := (hstarted.opsIn (opsIn_bind
            (opsIn_warnf _ fun _ => trivial) fun _ => silent_start _)).1
          obtain ⟨_, _, rest, rfl, _, hstart⟩ := path_of_bind_exec hstarted (opsIn_warnf _ hwarn)
          obtain ⟨rfl, rfl, environ, order, henviron, henv⟩ := exec_of_start hstart
          exact ⟨{ ok := true }, answer, rfl, hasked hsilent,
            ⟨environ, order, hmem (List.mem_append_right _ henviron), henv⟩,
            ⟨remainings, htrace hsilent⟩,
            Or.inr ⟨parseOnError_eq_ok_iff.1 hparse, rfl, fun refused => hfetch.of_error⟩⟩

end Starting

/-! ## A target that is started with its secret -/

def executedPath : Step → Option GoString
  | ⟨.exec path _ _, _⟩ => some path
  | _ => none

def receivedBytes : Step → Option GoString
  | ⟨.receive, received⟩ => some received.bytes
  | _ => none

/-- The late agent is waited for, and what it sends is all that is received before the target
is started. -/
theorem exists_started_app :
    ∃ calls args env next,
      Path (main Unicode.ascii (fun _ => str "15s") shortOptions [str "app"] 60) calls
        (call (.exec (str "/bin/app") args env) next) ∧
      ∀ received, ⟨.receive, received⟩ ∈ calls → received.bytes = secretText := by
  let program := main Unicode.ascii (fun _ => str "15s") shortOptions [str "app"] 60
  have hexecuted : (run lateAgent [] program).2.filterMap executedPath = [str "/bin/app"] := by
    decide +kernel
  have hreceived : (run lateAgent [] program).2.filterMap receivedBytes = [secretText] := by
    decide +kernel
  obtain ⟨⟨op, answer⟩, hstep, hpath⟩ :=
    List.mem_filterMap.1 (hexecuted ▸ List.mem_singleton.2 rfl)
  cases op with
  | exec path args env =>
      cases hpath
      obtain ⟨before, after, hcalls⟩ := List.append_of_mem hstep
      obtain ⟨next, hbefore⟩ := (hcalls ▸ path_run lateAgent [] program).before_call
      refine ⟨before, args, env, next, hbefore, fun received hmem => ?_⟩
      have hbytes : received.bytes ∈ (run lateAgent [] program).2.filterMap receivedBytes :=
        List.mem_filterMap.2 ⟨_, hcalls ▸ List.mem_append_left _ hmem, rfl⟩
      rw [hreceived] at hbytes
      exact List.mem_singleton.1 hbytes
  | _ => cases hpath

/-- Whenever the shim starts its target, it has asked for that binary only and starts it
with the inherited environment under that of a response.  Either the agent has answered with
this response and serves the request, or the shim was told to continue without, nothing was
served and the environment is the inherited one.  An answer is the last thing that the shim
waits for, and before it there are only attempts to connect: a refusal is never asked
again. -/
theorem target_started (unicode : Unicode) (durationText : ℤ → GoString) (options : Options)
    (argv : List GoString) (rounds : ℕ) {calls : List Step} {path : GoString}
    {args env : List GoString} {next : Err → Program Outcome}
    (hpath : Path (main unicode durationText options argv rounds) calls
      (call (.exec path args env) next)) :
    args = argv ∧ (∀ binary sent, ⟨.send binary, sent⟩ ∈ calls → binary = path) ∧
    ∃ (environ : List GoString) (remainings : List ℤ) (answer : Option Response),
      ⟨.environ, environ⟩ ∈ calls ∧
      trace calls = remainings.map .dial ++ answer.toList.map .answer ∧
      ((∃ response order, answer = some response ∧ response.ok = true ∧
          env = mergeEnv environ response.env order) ∨
        (options.onError = str "continue" ∧ env = environ ∧
          ∀ refused, answer = some refused → refused.ok = false)) := by
  obtain ⟨response, answer, hstarted⟩ := started_of_main hpath
  obtain ⟨environ, order, henviron, henv⟩ := hstarted.merged
  obtain ⟨remainings, htrace⟩ := hstarted.traced
  refine ⟨hstarted.args_eq, hstarted.asked, environ, remainings, answer, henviron, htrace, ?_⟩
  rcases hstarted.decided with ⟨hanswer, hok⟩ | ⟨hcontinue, rfl, hrefused⟩
  · exact Or.inl ⟨response, order, hanswer, hok, henv⟩
  · exact Or.inr ⟨hcontinue, henv.trans (if_pos rfl), hrefused⟩

theorem served_target_started :
    ∃ calls path args env next,
      Path (main Unicode.ascii (fun _ => str "15s") shortOptions [str "app"] 60) calls
        (call (.exec path args env) next) ∧
      ∃ (environ : List GoString) (response : Response) (order : Iteration response.env),
        response.ok = true ∧ env = mergeEnv environ response.env order := by
  obtain ⟨calls, args, env, next, hpath, _⟩ := exists_started_app
  obtain ⟨_, _, environ, _, _, _, _, ⟨response, order, _, hok, henv⟩ | hcontinued⟩ :=
    target_started Unicode.ascii (fun _ => str "15s") shortOptions [str "app"] 60 hpath
  · exact ⟨calls, _, args, env, next, hpath, environ, response, order, hok, henv⟩
  · exact absurd hcontinued.1 (by decide)

end KernelSeal.Retry

import KernelSeal.Core.Resumption
import KernelSeal.Kube.Watch

/-!
# The pace of the watch loop

This file models `watchLoop` and `watchOnce` of `internal/kube` by the requests and
waits they make.  The API server answers as it likes: it refuses a watch, streams any
events, and ends the stream cleanly, in the middle of an event or with an error.  A
watch that ends without an error is followed by the next one at once, and the reader
takes a truncated stream for such an end.
-/

namespace KernelSeal.Backoff

open KernelSeal.Text
open KernelSeal.Kube
open KernelSeal.Watch (WatchError isExpired)
open KernelSeal.Resumption
open KernelSeal.Resumption.Prog

/-! ## The loop -/

/-- How the body of a watch ends: with `io.EOF`, with `io.ErrUnexpectedEOF`, or with
anything else that is no event. -/
inductive Ending where
  | eof
  | unexpectedEOF
  | undecodable
  deriving DecidableEq

/-- The error that `watchOnce` makes of it. -/
def Ending.error : Ending → Option WatchError
  | .eof | .unexpectedEOF => none
  | .undecodable => some .other

/-- The body of an accepted watch. -/
structure Body where
  events : List WatchEvent
  ending : Ending
  deriving DecidableEq

/-- What the loop asks of its surroundings.  Waits are in seconds. -/
inductive Op where
  | ctxErr
  | watch (resourceVersion : GoString)
  | sleepCtx (seconds : ℕ)
  | relist

/-- Whether the context has ended; the response to a watch; whether the wait was
completed; the version and the items of a list. -/
@[reducible]
def Op.Ans : Op → Type
  | .ctxErr => Bool
  | .watch _ => Except WatchError Body
  | .sleepCtx _ => Bool
  | .relist => Except GoString (GoString × List PodObject)

abbrev Program := Prog Op Op.Ans Unit

abbrev Step := Call Op Op.Ans

/-- `minBackoff`. -/
def minBackoff : ℕ := 1

/-- `maxBackoff`. -/
def maxBackoff : ℕ := 30

/-- What `watchOnce` leaves and returns. -/
structure Watched where
  watcher : Watcher
  next : GoString
  err : Option WatchError

/-- The variables of `watchLoop`. -/
structure Loop where
  watcher : Watcher
  resourceVersion : GoString
  backoff : ℕ

section Loop

variable (unicode : Unicode) {α : Type}

/-- The loop of `watchOnce` over the events of a body. -/
def readBody (ending : Ending) : List WatchEvent → GoString → Watcher → Watched
  | [], resourceVersion, watcher => ⟨watcher, resourceVersion, ending.error⟩
  | event :: events, resourceVersion, watcher =>
      let seen :=
        if event.object.resourceVersion ≠ [] then event.object.resourceVersion
        else resourceVersion
      if event.type = .error then ⟨watcher, seen, some .watchExpired⟩
      else readBody ending events seen (watcher.handle unicode event)

/-- `watchOnce`, given the response. -/
def watchOnce (watcher : Watcher) (resourceVersion : GoString) :
    Except WatchError Body → Watched
  | .error err => ⟨watcher, resourceVersion, some err⟩
  | .ok body => readBody unicode body.ending body.events resourceVersion watcher

/-- The end of a round after the wait, before the `next` one. -/
def relistIfNeeded (next : Loop → Prog Op Op.Ans α) (watcher : Watcher)
    (resourceVersion : GoString) (backoff : ℕ) : Prog Op Op.Ans α :=
  if resourceVersion = [] then
    call Op.relist fun listed =>
      match listed with
      | .error _ => next ⟨watcher, resourceVersion, backoff⟩
      | .ok (listedVersion, items) => next ⟨watcher.list unicode items, listedVersion, minBackoff⟩
  else next ⟨watcher, resourceVersion, backoff⟩

/-- The switch of `watchLoop` over the result of `watchOnce`, and what comes after it. -/
def afterWatchOnce (next : Loop → Prog Op Op.Ans α) (stop : α) (loop : Loop)
    (watched : Watched) : Prog Op Op.Ans α :=
  match watched.err with
  | none => next ⟨watched.watcher, watched.next, minBackoff⟩
  | some err =>
      let resourceVersion := if isExpired err then [] else loop.resourceVersion
      call (Op.sleepCtx loop.backoff) fun slept =>
        if slept then
          relistIfNeeded unicode next watched.watcher resourceVersion
            (min (loop.backoff * 2) maxBackoff)
        else ret stop

/-- One round of `watchLoop`, which returns or goes on to the `next` one. -/
def round (next : Loop → Prog Op Op.Ans α) (stop : α) (loop : Loop) : Prog Op Op.Ans α :=
  call Op.ctxErr fun ended =>
    if ended then ret stop
    else call (Op.watch loop.resourceVersion) fun response =>
      call Op.ctxErr fun ended =>
        if ended then ret stop
        else afterWatchOnce unicode next stop loop
          (watchOnce unicode loop.watcher loop.resourceVersion response)

/-- `watchLoop`, for some rounds. -/
def watchLoop : ℕ → Loop → Program
  | 0, _ => ret ()
  | rounds + 1, loop => round unicode (watchLoop rounds) () loop

end Loop

/-! ## What is observed -/

/-- A watch, with the error of `watchOnce`, or a wait. -/
inductive Event where
  | watch (err : Option WatchError)
  | wait (seconds : ℕ) (completed : Bool)
  deriving DecidableEq

/-- The error of `watchOnce`, read off the response. -/
def responseError : Except WatchError Body → Option WatchError
  | .error err => some err
  | .ok body =>
      if ∃ event ∈ body.events, event.type = .error then some .watchExpired else body.ending.error

def observe : Step → Option Event
  | ⟨.watch _, response⟩ => some (.watch (responseError response))
  | ⟨.sleepCtx seconds, completed⟩ => some (.wait seconds completed)
  | ⟨.ctxErr, _⟩ => none
  | ⟨.relist, _⟩ => none

/-- The watches and the waits of a run. -/
def pace (calls : List Step) : List Event := calls.filterMap observe

/-- A wait of at least `minBackoff` is completed before the next watch, if there is
one. -/
def WaitsFirst : List Event → Prop
  | [] => True
  | .watch _ :: _ => False
  | .wait seconds completed :: events =>
      (completed = true ∧ minBackoff ≤ seconds) ∨ WaitsFirst events

/-- Between any watch and the next one there is such a wait. -/
def Spaced : List Event → Prop
  | [] => True
  | .watch _ :: events => WaitsFirst events ∧ Spaced events
  | .wait _ _ :: events => Spaced events

theorem watchOnce_err (unicode : Unicode) (watcher : Watcher) (resourceVersion : GoString)
    (response : Except WatchError Body) :
    (watchOnce unicode watcher resourceVersion response).err = responseError response := by
  cases response with
  | error err => rfl
  | ok body =>
      obtain ⟨events, ending⟩ := body
      rw [watchOnce, responseError]
      induction events generalizing watcher resourceVersion with
      | nil => simp [readBody]
      | cons event events ih =>
          rw [readBody]
          by_cases htype : event.type = .error
          · simp [htype]
          · simp only [List.exists_mem_cons_iff, htype, false_or]
            exact ih _ _

/-! ## Rounds -/

/-- The watches and waits of the loop from a back-off on.  The last round may be
incomplete. -/
inductive Paced : ℕ → List Event → Prop
  | idle (backoff : ℕ) : Paced backoff []
  | watching (backoff : ℕ) (err : Option WatchError) : Paced backoff [.watch err]
  | interrupted (backoff : ℕ) (err : WatchError) :
      Paced backoff [.watch (some err), .wait backoff false]
  | resumed (backoff : ℕ) {events : List Event} (hrest : Paced minBackoff events) :
      Paced backoff (.watch none :: events)
  | waited (backoff : ℕ) (err : WatchError) {later : ℕ} {events : List Event}
      (hlater : later = minBackoff ∨ later = min (backoff * 2) maxBackoff)
      (hrest : Paced later events) :
      Paced backoff (.watch (some err) :: .wait backoff true :: events)

section Paced

variable {backoff : ℕ} {events : List Event}

theorem backoff_bounds {later : ℕ} (hbackoff : minBackoff ≤ backoff ∧ backoff ≤ maxBackoff)
    (hlater : later = minBackoff ∨ later = min (backoff * 2) maxBackoff) :
    minBackoff ≤ later ∧ later ≤ maxBackoff := by
  simp only [minBackoff, maxBackoff] at hbackoff hlater ⊢
  omega

theorem Paced.bounds (hpaced : Paced backoff events)
    (hbackoff : minBackoff ≤ backoff ∧ backoff ≤ maxBackoff) :
    ∀ seconds completed, Event.wait seconds completed ∈ events →
      minBackoff ≤ seconds ∧ seconds ≤ maxBackoff := by
  induction hpaced with
  | idle backoff => simp
  | watching backoff err => simp
  | interrupted backoff err =>
      intro seconds completed hwait
      obtain ⟨rfl, _⟩ : seconds = backoff ∧ completed = false := by simpa using hwait
      exact hbackoff
  | resumed backoff hrest ih =>
      intro seconds completed hwait
      exact ih (by decide) seconds completed (by simpa using hwait)
  | @waited backoff err later events hlater hrest ih =>
      intro seconds completed hwait
      have hcases : (seconds = backoff ∧ completed = true) ∨
          Event.wait seconds completed ∈ events := by simpa using hwait
      rcases hcases with ⟨rfl, _⟩ | hwait
      · exact hbackoff
      · exact ih (backoff_bounds hbackoff hlater) seconds completed hwait

theorem Paced.eq_nil_or_watch (hpaced : Paced backoff events) :
    events = [] ∨ ∃ err rest, events = .watch err :: rest := by
  cases hpaced with
  | idle => exact Or.inl rfl
  | _ => exact Or.inr ⟨_, _, rfl⟩

/-- The loop starts with a watch, so a wait comes first only if nothing comes. -/
theorem Paced.waitsFirst_iff (hpaced : Paced backoff events) :
    WaitsFirst events ↔ ∀ err, Event.watch err ∉ events := by
  rcases hpaced.eq_nil_or_watch with rfl | ⟨err, rest, rfl⟩
  · simp [WaitsFirst]
  · exact iff_of_false id fun hnone => hnone err List.mem_cons_self

/-- Watches are spaced exactly when none of them follows one that ended without an
error. -/
theorem Paced.spaced_iff (hpaced : Paced backoff events)
    (hbackoff : minBackoff ≤ backoff ∧ backoff ≤ maxBackoff) :
    Spaced events ↔
      events.Pairwise fun earlier later =>
        earlier = Event.watch none → ∀ err, later ≠ Event.watch err := by
  induction hpaced with
  | idle backoff => simp [Spaced]
  | watching backoff err => simp [Spaced, WaitsFirst]
  | interrupted backoff err => simp [Spaced, WaitsFirst]
  | @resumed backoff events hrest ih =>
      have hfirst : WaitsFirst events ↔ ∀ later ∈ events, ∀ err, later ≠ Event.watch err := by
        rw [hrest.waitsFirst_iff]
        constructor
        · rintro hnone later hlater err rfl
          exact hnone err hlater
        · exact fun hnone err herr => hnone _ herr err rfl
      rw [Spaced, List.pairwise_cons, hfirst, ih (by decide)]
      simp
  | @waited backoff err later events hlater hrest ih =>
      rw [Spaced, Spaced, List.pairwise_cons, List.pairwise_cons,
        ih (backoff_bounds hbackoff hlater)]
      simp [WaitsFirst, hbackoff.1]

end Paced

/-! ## Runs -/

section Runs

variable {unicode : Unicode} {next : Loop → Program} {calls : List Step} {final : Program}

theorem exists_paced_of_relistIfNeeded
    (hnext : ∀ loop calls final, Path (next loop) calls final → Paced loop.backoff (pace calls))
    {watcher : Watcher} {resourceVersion : GoString} {backoff : ℕ}
    (hpath : Path (relistIfNeeded unicode next watcher resourceVersion backoff) calls final) :
    ∃ later, (later = minBackoff ∨ later = backoff) ∧ Paced later (pace calls) := by
  rw [relistIfNeeded] at hpath
  split at hpath
  · rcases path_call_iff.1 hpath with ⟨rfl, rfl⟩ | ⟨listed, rest, rfl, hrest⟩
    · exact ⟨backoff, Or.inr rfl, .idle backoff⟩
    · cases listed with
      | error err => exact ⟨backoff, Or.inr rfl, hnext _ _ _ hrest⟩
      | ok listed => exact ⟨minBackoff, Or.inl rfl, hnext _ _ _ hrest⟩
  · exact ⟨backoff, Or.inr rfl, hnext _ _ _ hpath⟩

theorem paced_of_afterWatchOnce
    (hnext : ∀ loop calls final, Path (next loop) calls final → Paced loop.backoff (pace calls))
    {loop : Loop} {watched : Watched}
    (hpath : Path (afterWatchOnce unicode next () loop watched) calls final) :
    Paced loop.backoff (.watch watched.err :: pace calls) := by
  rw [afterWatchOnce] at hpath
  cases herr : watched.err with
  | none =>
      rw [herr] at hpath
      exact .resumed _ (hnext _ _ _ hpath)
  | some err =>
      rw [herr] at hpath
      rcases path_call_iff.1 hpath with ⟨rfl, rfl⟩ | ⟨slept, rest, rfl, hrest⟩
      · exact .watching _ _
      · cases slept with
        | true =>
            obtain ⟨later, hlater, hpaced⟩ := exists_paced_of_relistIfNeeded hnext hrest
            exact .waited _ err hlater hpaced
        | false =>
            obtain ⟨rfl, rfl⟩ := path_ret_iff.1 hrest
            exact .interrupted _ err

/-- Every run of the loop, complete or not, has its pace. -/
theorem paced_of_path {rounds : ℕ} {loop : Loop}
    (hpath : Path (watchLoop unicode rounds loop) calls final) :
    Paced loop.backoff (pace calls) := by
  induction rounds generalizing loop calls final with
  | zero =>
      obtain ⟨rfl, rfl⟩ := path_ret_iff.1 hpath
      exact .idle _
  | succ rounds ih =>
      rcases path_call_iff.1 hpath with ⟨rfl, rfl⟩ | ⟨ended, rest, rfl, hwatch⟩
      · exact .idle _
      cases ended with
      | true =>
          obtain ⟨rfl, rfl⟩ := path_ret_iff.1 hwatch
          exact .idle _
      | false =>
          rcases path_call_iff.1 hwatch with ⟨rfl, rfl⟩ | ⟨response, rest, rfl, hcheck⟩
          · exact .idle _
          rcases path_call_iff.1 hcheck with ⟨rfl, rfl⟩ | ⟨ended, rest, rfl, hafter⟩
          · exact .watching _ _
          cases ended with
          | true =>
              obtain ⟨rfl, rfl⟩ := path_ret_iff.1 hafter
              exact .watching _ _
          | false =>
              have hpaced := paced_of_afterWatchOnce (fun _ _ _ => ih) hafter
              rw [watchOnce_err] at hpaced
              exact hpaced

end Runs

/-- In every run of the loop, every wait is between 1 and 30 seconds, and there is a
completed wait between any two watches exactly when no watch follows one that
`watchOnce` took to have ended cleanly. -/
theorem watchLoop_spaced_iff (unicode : Unicode) (rounds : ℕ) (watcher : Watcher)
    (resourceVersion : GoString) {calls : List Step} {final : Program}
    (hpath : Path (watchLoop unicode rounds ⟨watcher, resourceVersion, minBackoff⟩) calls final) :
    (∀ seconds completed, Event.wait seconds completed ∈ pace calls →
      1 ≤ seconds ∧ seconds ≤ 30) ∧
    (Spaced (pace calls) ↔
      (pace calls).Pairwise fun earlier later =>
        earlier = Event.watch none → ∀ err, later ≠ Event.watch err) := by
  have hpaced : Paced minBackoff (pace calls) := paced_of_path hpath
  have hbackoff : minBackoff ≤ minBackoff ∧ minBackoff ≤ maxBackoff := by decide
  exact ⟨hpaced.bounds hbackoff, hpaced.spaced_iff hbackoff⟩

/-- Every call of a kind is answered alike, and the context does not end. -/
def steadily (response : Except WatchError Body) : Oracle Op Op.Ans := fun _ op =>
  match op with
  | .ctxErr => false
  | .watch _ => response
  | .sleepCtx _ => true
  | .relist => .error (str "unavailable")

/-- A server that gives every watch a clean end is asked as often as the loop goes
round, without any wait. -/
theorem pace_of_clean {response : Except WatchError Body} (hclean : responseError response = none)
    (unicode : Unicode) (rounds : ℕ) (loop : Loop) (past : List Step) :
    pace (run (steadily response) past (watchLoop unicode rounds loop)).2 =
      List.replicate rounds (.watch none) := by
  induction rounds generalizing loop past with
  | zero => rfl
  | succ rounds ih =>
      have hresumed :
          (watchOnce unicode loop.watcher loop.resourceVersion response).err = none := by
        rw [watchOnce_err, hclean]
      simp only [watchLoop, round, run_call, steadily, Bool.false_eq_true, if_false, afterWatchOnce,
        hresumed, pace, List.filterMap_cons, observe, hclean, List.replicate_succ]
      exact congrArg _ (ih _ _)

/-- The run of the loop against a server that gives every watch this response. -/
def runAgainst (response : Except WatchError Body) (rounds : ℕ) : List Step :=
  (run (steadily response) [] (watchLoop Unicode.ascii rounds ⟨{}, str "7", minBackoff⟩)).2

/-- A server that refuses every watch is asked less and less often. -/
theorem refusals_spaced :
    pace (runAgainst (.error (.apiError 500)) 3) =
      [.watch (some (.apiError 500)), .wait 1 true, .watch (some (.apiError 500)), .wait 2 true,
        .watch (some (.apiError 500)), .wait 4 true] ∧
    Spaced (pace (runAgainst (.error (.apiError 500)) 3)) := by
  have hpace : pace (runAgainst (.error (.apiError 500)) 3) =
      [.watch (some (.apiError 500)), .wait 1 true, .watch (some (.apiError 500)), .wait 2 true,
        .watch (some (.apiError 500)), .wait 4 true] := by decide +kernel
  refine ⟨hpace, (watchLoop_spaced_iff Unicode.ascii 3 {} (str "7") (path_run _ _ _)).2.2 ?_⟩
  change (pace (runAgainst (.error (.apiError 500)) 3)).Pairwise _
  rw [hpace]
  simp

/-- A server that accepts every watch and breaks it off is asked again at once. -/
theorem closures_not_spaced :
    pace (runAgainst (.ok ⟨[], .unexpectedEOF⟩) 2) = [.watch none, .watch none] ∧
      ¬ Spaced (pace (runAgainst (.ok ⟨[], .unexpectedEOF⟩) 2)) := by
  have hpace : pace (runAgainst (.ok ⟨[], .unexpectedEOF⟩) 2) = [.watch none, .watch none] :=
    pace_of_clean rfl _ _ _ _
  refine ⟨hpace, ?_⟩
  rw [hpace]
  exact fun hspaced => hspaced.1

end KernelSeal.Backoff

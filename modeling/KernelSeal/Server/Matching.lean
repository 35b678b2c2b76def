import KernelSeal.Server.Authorization

/-!
# What one binding does to a response

`handle` decides from the four lists that `Lookup` accumulates over all
candidate bindings.  This file follows single bindings through that decision: a
configured binding for the requested binary is never passed over in silence; a
binding that refuses the caller turns the response of an admitted caller into a
denial exactly when the admitted bindings hold no readable secret; and a
binding without a binary name, which is a candidate for every binary, is not
inert.
-/

namespace KernelSeal.Matching

open KernelSeal.Text
open KernelSeal.Registry
open KernelSeal.Resumption
open KernelSeal.Delivery
open KernelSeal.Release
open KernelSeal.Serving
open KernelSeal.Loader
open KernelSeal.Authorization

/-! ## The answer to a match -/

section Answers

variable (unicode : Unicode) (server : Server) (outcomes : Outcomes)
variable (binaryName : GoString) (matched : Match)

/-- The response to a judged request. -/
def respond : Response :=
  answer server outcomes (judge unicode server binaryName matched)

variable {unicode server outcomes binaryName}

theorem respond_of_empty (hempty : matched.Empty) :
    respond unicode server outcomes binaryName matched = { ok := true } := by
  rw [respond, judge, if_pos hempty]
  rfl

theorem respond_of_secrets (hsecrets : matched.secrets ≠ []) :
    respond unicode server outcomes binaryName matched = settle server outcomes matched := by
  rw [respond, judge_of_secrets unicode hsecrets]
  rfl

theorem respond_of_refused (hsecrets : matched.secrets = []) (hrefused : matched.refused ≠ []) :
    respond unicode server outcomes binaryName matched =
      { error := notAdmittedError unicode binaryName } := by
  have hempty : ¬ matched.Empty := fun hempty => hrefused hempty.2.2.1
  rw [respond, judge, if_neg hempty, if_pos ⟨hsecrets, hrefused⟩]
  rfl

theorem respond_of_rejected (hsecrets : matched.secrets = []) (hrefused : matched.refused = [])
    (hrejected : matched.rejected ≠ []) :
    respond unicode server outcomes binaryName matched =
      { error := rejectedError unicode binaryName matched } := by
  have hempty : ¬ matched.Empty := fun hempty => hrejected hempty.2.2.2
  rw [respond, judge, if_neg hempty, if_neg (fun hboth => hboth.2 hrefused),
    if_pos ⟨hsecrets, hrejected⟩]
  rfl

theorem respond_of_unresolved (hsecrets : matched.secrets = [])
    (hrefused : matched.refused = []) (hrejected : matched.rejected = [])
    (hunresolved : matched.unresolved ≠ []) :
    respond unicode server outcomes binaryName matched =
      if server.cfg.requireProtection then
        { error := unresolvedError unicode binaryName matched }
      else { ok := true, warning := unresolvedWarning matched } := by
  have hempty : ¬ matched.Empty := fun hempty => hunresolved hempty.2.1
  rw [respond, judge, if_neg hempty, if_neg (fun hboth => hboth.2 hrefused),
    if_neg (fun hboth => hboth.2 hrejected), if_pos hsecrets]
  split_ifs <;> rfl

/-- Why a match is answered the way it is. -/
inductive Grounds (matched : Match) : Prop
  | empty (hempty : matched.Empty)
  | secrets (hsecrets : matched.secrets ≠ [])
  | refused (hsecrets : matched.secrets = []) (hrefused : matched.refused ≠ [])
  | rejected (hsecrets : matched.secrets = []) (hrefused : matched.refused = [])
      (hrejected : matched.rejected ≠ [])
  | unresolved (hsecrets : matched.secrets = []) (hrefused : matched.refused = [])
      (hrejected : matched.rejected = []) (hunresolved : matched.unresolved ≠ [])

theorem grounds (matched : Match) : Grounds matched := by
  by_cases hsecrets : matched.secrets = []
  · by_cases hrefused : matched.refused = []
    · by_cases hrejected : matched.rejected = []
      · by_cases hunresolved : matched.unresolved = []
        · exact .empty ⟨hsecrets, hunresolved, hrefused, hrejected⟩
        · exact .unresolved hsecrets hrefused hrejected hunresolved
      · exact .rejected hsecrets hrefused hrejected
    · exact .refused hsecrets hrefused
  · exact .secrets hsecrets

/-! ## Quiet responses -/

/-- The response that starts the process unchanged and says nothing. -/
def Quiet (response : Response) : Prop :=
  response.ok = true ∧ response.env = ∅ ∧ response.warning = []

instance : DecidablePred Quiet := fun _ => inferInstanceAs (Decidable (_ ∧ _ ∧ _))

theorem not_quiet_error (error : GoString) : ¬ Quiet { error := error } :=
  fun hquiet => Bool.noConfusion hquiet.1

/-- A judged request is answered quietly exactly when nothing matched. -/
theorem quiet_respond_iff :
    Quiet (respond unicode server outcomes binaryName matched) ↔ matched.Empty := by
  constructor
  · intro hquiet
    cases grounds matched with
    | empty hempty => exact hempty
    | secrets hsecrets =>
        rw [respond_of_secrets matched hsecrets] at hquiet
        by_cases hdelivers : Delivers server outcomes
        · rw [settle_of_delivers hdelivers] at hquiet
          exact absurd hquiet.2.1 (environment_ne_empty hsecrets)
        · obtain ⟨error, _, hsettle⟩ := settle_of_not_delivers hdelivers
          rw [hsettle] at hquiet
          exact absurd hquiet (not_quiet_error error)
    | refused hsecrets hrefused =>
        rw [respond_of_refused matched hsecrets hrefused] at hquiet
        exact absurd hquiet (not_quiet_error _)
    | rejected hsecrets hrefused hrejected =>
        rw [respond_of_rejected matched hsecrets hrefused hrejected] at hquiet
        exact absurd hquiet (not_quiet_error _)
    | unresolved hsecrets hrefused hrejected hunresolved =>
        rw [respond_of_unresolved matched hsecrets hrefused hrejected hunresolved] at hquiet
        split_ifs at hquiet
        · exact absurd hquiet (not_quiet_error _)
        · exact absurd hquiet.2.2 (by simp [unresolvedWarning, str])
  · intro hempty
    rw [respond_of_empty matched hempty]
    exact ⟨rfl, rfl, rfl⟩

end Answers

section Downgrade

variable {unicode : Unicode} {server : Server} {outcomes : Outcomes}
variable {cred : Ucred} {req : Request}

theorem serve_eq_respond (hjudged : Judged server outcomes req) :
    (serve unicode server outcomes cred req).1 =
      respond unicode server outcomes (base req.binary) (found server outcomes req) :=
  serve_of_judged unicode cred hjudged

/-- Replacing the registry replaces what is found, and nothing else. -/
theorem serve_with_bindings (unicode : Unicode) (cred : Ucred)
    (hjudged : Judged server outcomes req) (bindings : List Binding) :
    (serve unicode { server with bindings := bindings } outcomes cred req).1 =
      respond unicode server outcomes (base req.binary)
        (lookup bindings (base req.binary) (caller server outcomes)) := by
  have hsame : Judged { server with bindings := bindings } outcomes req := hjudged
  exact serve_of_judged unicode cred hsame

/-- A quiet response means that nothing was found. -/
theorem found_empty_of_quiet (hquiet : Quiet (serve unicode server outcomes cred req).1) :
    (found server outcomes req).Empty := by
  by_cases hjudged : Judged server outcomes req
  · rw [serve_eq_respond hjudged] at hquiet
    exact (quiet_respond_iff _).1 hquiet
  · obtain ⟨error, _, hserve⟩ := serve_of_not_judged unicode cred hjudged
    exact absurd (hserve server.bindings ▸ hquiet) (not_quiet_error error)

/-- A candidate binding leaves a trace in what `Lookup` finds, unless it is
servable and holds nothing. -/
theorem holds_nothing_of_lookup_empty {bindings : List Binding} {binaryName : GoString}
    {caller : Caller} (hempty : (lookup bindings binaryName caller).Empty)
    {binding : Binding} (hbinding : binding ∈ bindings)
    (hcandidate : binding.Candidate binaryName) :
    binding.rejected = [] ∧ binding.secrets = [] ∧ binding.unresolved = [] := by
  obtain ⟨hsecrets, hunresolved, hrefused, hrejected⟩ := hempty
  rw [lookup_secrets_eq_nil_iff] at hsecrets
  rw [lookup_unresolved_eq_nil_iff] at hunresolved
  rw [lookup_refused_eq_nil_iff] at hrefused
  rw [lookup_rejected_eq_nil_iff] at hrejected
  rcases standing_of_candidate binaryName caller hcandidate with hadmits | hrefuse | hreject
  · exact ⟨hadmits.2.1, hsecrets binding hbinding hadmits, hunresolved binding hbinding hadmits⟩
  · exact absurd hrefuse (hrefused binding hbinding)
  · exact absurd hreject (hrejected binding hbinding)

end Downgrade

/-- No silent downgrade: if some configured binding is for the requested binary
and has a secret to deliver, or is rejected, the response is a denial, a
release, or carries a warning. -/
theorem no_silent_downgrade (unicode : Unicode) (host : Host) (config : KernelSealConfig)
    (server : Server) (outcomes : Outcomes) (cred : Ucred) (req : Request)
    (hloaded : server.bindings = loadSecrets unicode host config)
    (hconfigured : ∃ configured ∈ config.secrets,
      configured.selector.binary = base req.binary ∧
        (configured.secretRefs ≠ [] ∨
          rejectionFor configured.selector.toSelector (podIdentityMode unicode config) ≠ [])) :
    ¬ ((serve unicode server outcomes cred req).1.ok = true ∧
      (serve unicode server outcomes cred req).1.env = ∅ ∧
      (serve unicode server outcomes cred req).1.warning = []) := by
  intro hquiet
  have hempty : (lookup server.bindings (base req.binary) (caller server outcomes)).Empty :=
    found_empty_of_quiet hquiet
  obtain ⟨configured, hmem, hbinary, hserves⟩ := hconfigured
  obtain ⟨index, hbinding⟩ := exists_mem_loadSecrets unicode host hmem
  rw [← hloaded] at hbinding
  have hcandidate : (loadBinding host (podIdentityMode unicode config) index
      configured).Candidate (base req.binary) := by
    rw [Binding.Candidate, loadBinding_selector]
    exact Or.inr hbinary
  obtain ⟨hservable, hsecrets, hunresolved⟩ :=
    holds_nothing_of_lookup_empty hempty hbinding hcandidate
  rcases hserves with hrefs | hrejected
  · have hcount := loadBinding_count host (podIdentityMode unicode config) index configured
    rw [hsecrets, hunresolved] at hcount
    exact hrefs (List.length_eq_zero_iff.1 hcount.symm)
  · exact hrejected hservable

/-- A binding for `node` whose only source is a file that cannot be read. -/
def unreadableConfig : KernelSealConfig where
  policy := { mode := str "audit" }
  secrets :=
    [{ selector := { binary := str "node" }
       secretRefs := [⟨str "TOKEN", { fileRef := str "/missing" }⟩] }]

theorem unreadable_not_silent :
    ¬ ((serve Unicode.ascii (mainServer Unicode.ascii bareHost unreadableConfig)
          unlabelledOutcomes ⟨7⟩ ⟨str "node"⟩).1.ok = true ∧
      (serve Unicode.ascii (mainServer Unicode.ascii bareHost unreadableConfig)
          unlabelledOutcomes ⟨7⟩ ⟨str "node"⟩).1.env = ∅ ∧
      (serve Unicode.ascii (mainServer Unicode.ascii bareHost unreadableConfig)
          unlabelledOutcomes ⟨7⟩ ⟨str "node"⟩).1.warning = []) :=
  no_silent_downgrade Unicode.ascii bareHost unreadableConfig _ unlabelledOutcomes ⟨7⟩
    ⟨str "node"⟩ rfl ⟨_, List.mem_singleton_self _, by decide, Or.inl (by simp)⟩

/-! ## Bindings that refuse the caller -/

section Refusing

variable {unicode : Unicode} {server : Server} {outcomes : Outcomes}
variable {cred : Ucred} {req : Request}

/-- The registry without the bindings that refuse the caller. -/
def withoutRefusing (binaryName : GoString) (caller : Caller) (bindings : List Binding) :
    List Binding :=
  bindings.filter (¬ ·.Refused binaryName caller)

theorem lookup_withoutRefusing (bindings : List Binding) (binaryName : GoString)
    (caller : Caller) :
    lookup (withoutRefusing binaryName caller bindings) binaryName caller =
      { lookup bindings binaryName caller with refused := [] } := by
  have hadmitted : admitted binaryName caller (withoutRefusing binaryName caller bindings) =
      admitted binaryName caller bindings := by
    rw [admitted, withoutRefusing, List.filter_filter]
    apply List.filter_congr
    intro binding _
    simpa using fun hadmitted => Binding.Admitted.not_refused hadmitted
  have hrejected : rejected binaryName (withoutRefusing binaryName caller bindings) =
      rejected binaryName bindings := by
    rw [rejected, withoutRefusing, List.filter_filter]
    apply List.filter_congr
    intro binding _
    simpa using fun hrejected => Binding.Rejected.not_refused hrejected
  have hrefused : refused binaryName caller (withoutRefusing binaryName caller bindings) = [] := by
    simp [refused, withoutRefusing, List.filter_filter]
  rw [lookup_eq, lookup_eq, hadmitted, hrejected, hrefused]
  rfl

/-- The refusal text begins like no other error of the server. -/
theorem ne_notAdmittedError {text : GoString} {binaryName : GoString} (first : Option Byte)
    (htext : text.head? = first) (hfirst : first ≠ some 110) :
    text ≠ notAdmittedError unicode binaryName := by
  intro hequal
  apply hfirst
  rw [← htext, hequal]
  rfl

theorem settle_error_ne (matched : Match) (binaryName : GoString) :
    (settle server outcomes matched).error ≠ notAdmittedError unicode binaryName := by
  by_cases hdelivers : Delivers server outcomes
  · rw [settle_of_delivers hdelivers]
    exact ne_notAdmittedError none rfl (by decide)
  · obtain ⟨error, herror, hsettle⟩ := settle_of_not_delivers hdelivers
    have hfirst : ∀ error ∈ [str "caller no longer exists",
        str "kernel protection unavailable and policy requires it"],
        error.head? ≠ some 110 := by decide
    rw [hsettle]
    exact ne_notAdmittedError error.head? rfl (hfirst error herror)

/-- A judged request is refused on identity exactly when some candidate
refuses the caller and no admitted binding holds a secret. -/
theorem respond_error_iff {binaryName : GoString} {matched : Match} :
    (respond unicode server outcomes binaryName matched).error =
        notAdmittedError unicode binaryName ↔
      matched.secrets = [] ∧ matched.refused ≠ [] := by
  cases grounds matched with
  | empty hempty =>
      rw [respond_of_empty matched hempty]
      exact iff_of_false (ne_notAdmittedError none rfl (by decide)) fun hboth =>
        hboth.2 hempty.2.2.1
  | secrets hsecrets =>
      rw [respond_of_secrets matched hsecrets]
      exact iff_of_false (settle_error_ne matched binaryName) fun hboth => hsecrets hboth.1
  | refused hsecrets hrefused =>
      rw [respond_of_refused matched hsecrets hrefused]
      exact iff_of_true rfl ⟨hsecrets, hrefused⟩
  | rejected hsecrets hrefused hrejected =>
      rw [respond_of_rejected matched hsecrets hrefused hrejected]
      exact iff_of_false (ne_notAdmittedError (some 115) rfl (by decide)) fun hboth =>
        hboth.2 hrefused
  | unresolved hsecrets hrefused hrejected hunresolved =>
      rw [respond_of_unresolved matched hsecrets hrefused hrejected hunresolved]
      refine iff_of_false ?_ fun hboth => hboth.2 hrefused
      split_ifs
      · exact ne_notAdmittedError (some 97) rfl (by decide)
      · exact ne_notAdmittedError none rfl (by decide)

variable (server outcomes req)

/-- Some binding that admits the caller holds a secret that could be read. -/
def HoldsSecret : Prop :=
  ∃ binding ∈ server.bindings,
    binding.Admitted (base req.binary) (caller server outcomes) ∧ binding.secrets ≠ []

/-- Some candidate binding refuses the caller. -/
def MeetsRefusal : Prop :=
  ∃ binding ∈ server.bindings, binding.Refused (base req.binary) (caller server outcomes)

variable {server outcomes req}

theorem holdsSecret_iff :
    HoldsSecret server outcomes req ↔ (found server outcomes req).secrets ≠ [] := by
  rw [found, Ne, lookup_secrets_eq_nil_iff]
  push Not
  rfl

theorem meetsRefusal_iff :
    MeetsRefusal server outcomes req ↔ (found server outcomes req).refused ≠ [] := by
  rw [found, Ne, lookup_refused_eq_nil_iff]
  push Not
  rfl

/-- Dropping the refusals changes the response to a match, or the match is
refused on identity, exactly when nothing but refusals decide it. -/
theorem respond_without_refused_iff {binaryName : GoString} {matched : Match} :
    (respond unicode server outcomes binaryName { matched with refused := [] } =
          respond unicode server outcomes binaryName matched ∧
        (respond unicode server outcomes binaryName matched).error ≠
          notAdmittedError unicode binaryName) ↔
      matched.secrets ≠ [] ∨ matched.refused = [] := by
  rw [Ne, respond_error_iff]
  constructor
  · intro hboth
    by_contra hneither
    push Not at hneither
    exact hboth.2 hneither
  · intro heither
    refine ⟨?_, fun hboth => heither.elim (fun hsecrets => hsecrets hboth.1) hboth.2⟩
    rcases heither with hsecrets | hrefused
    · rw [respond_of_secrets { matched with refused := [] } hsecrets,
        respond_of_secrets matched hsecrets]
      rfl
    · rw [← hrefused]

end Refusing

/-- Another pod's binding turns the response to an admitted caller into a
denial exactly when the request is judged, some binding refuses the caller, and
no admitted binding holds a secret that could be read. -/
theorem refusing_bindings_inert_iff (unicode : Unicode) (server : Server)
    (outcomes : Outcomes) (cred : Ucred) (req : Request) :
    ((∃ binding ∈ server.bindings,
          binding.Admitted (base req.binary) (caller server outcomes)) →
        (serve unicode
            { server with
              bindings := withoutRefusing (base req.binary) (caller server outcomes)
                server.bindings }
            outcomes cred req).1 =
          (serve unicode server outcomes cred req).1 ∧
        (serve unicode server outcomes cred req).1.error ≠
          notAdmittedError unicode (base req.binary)) ↔
      ((∃ binding ∈ server.bindings,
          binding.Admitted (base req.binary) (caller server outcomes)) →
        ¬ Judged server outcomes req ∨ HoldsSecret server outcomes req ∨
          ¬ MeetsRefusal server outcomes req) := by
  apply imp_congr_right
  intro _
  by_cases hjudged : Judged server outcomes req
  · rw [serve_with_bindings unicode cred hjudged, serve_eq_respond hjudged,
      lookup_withoutRefusing, holdsSecret_iff, meetsRefusal_iff]
    exact respond_without_refused_iff.trans (by simp [hjudged, found])
  · obtain ⟨error, herror, hserve⟩ := serve_of_not_judged unicode cred hjudged
    have hfirst : ∀ error ∈ [str "request did not name a binary",
        str "caller could not be attributed to a pod"], error.head? ≠ some 110 := by decide
    have hserved : (serve unicode server outcomes cred req).1 = { error := error } :=
      hserve server.bindings
    rw [hserve, hserved]
    exact iff_of_true ⟨rfl, ne_notAdmittedError error.head? rfl (hfirst error herror)⟩
      (Or.inl hjudged)

/-- The caller's own binding, whose secret could not be read. -/
def unreadableBinding : Binding where
  name := str "web"
  selector := { binary := str "node", namespaceName := str "default" }
  unresolved := [str "TOKEN"]

/-- The registry holds the caller's own binding and one of another pod. -/
def sharedServer : Server :=
  { canaryServer with
    bindings := [unreadableBinding, tenantBinding [⟨str "TOKEN", str "theirs"⟩]] }

/-- The caller is admitted by its own binding and is told that no binding
admits it, because of the other pod's. -/
theorem admitted_caller_refused :
    unreadableBinding ∈ sharedServer.bindings ∧
      unreadableBinding.Admitted (str "node") (caller sharedServer unlabelledOutcomes) ∧
      (serve Unicode.ascii sharedServer unlabelledOutcomes ⟨7⟩ ⟨str "node"⟩).1.error =
        notAdmittedError Unicode.ascii (str "node") ∧
      (serve Unicode.ascii
          { sharedServer with
            bindings := withoutRefusing (str "node") (caller sharedServer unlabelledOutcomes)
              sharedServer.bindings }
          unlabelledOutcomes ⟨7⟩ ⟨str "node"⟩).1 ≠
        (serve Unicode.ascii sharedServer unlabelledOutcomes ⟨7⟩ ⟨str "node"⟩).1 := by
  decide +kernel

/-! ## Bindings without a binary -/

/-- A binding that should not concern the caller: it names no binary, and it
either names no pod and is rejected for that, or its pod constraints do not
admit the caller. -/
def Irrelevant (caller : Caller) (binding : Binding) : Prop :=
  binding.selector.binary = [] ∧
    ((¬ binding.selector.IsPodScoped ∧ binding.rejected ≠ []) ∨
      (binding.selector.IsPodScoped ∧ (binding.selector.admits caller).1 = false))

instance (caller : Caller) : DecidablePred (Irrelevant caller) := fun _ =>
  inferInstanceAs (Decidable (_ ∧ (_ ∨ _)))

section Irrelevant

variable {unicode : Unicode} {server : Server} {outcomes : Outcomes}
variable {binaryName : GoString} {matched : Match} {front back : List GoString}

theorem length_rejectedError_insert (hrejected : matched.rejected = front ++ back)
    (hnames : front ++ back ≠ []) (name : GoString) :
    (rejectedError unicode binaryName matched).length <
      (rejectedError unicode binaryName
        { matched with rejected := front ++ name :: back }).length := by
  simp only [rejectedError, hrejected, List.length_append, length_listText_insert hnames]
  omega

/-- One more rejected binding lengthens the warning of a release. -/
theorem length_warnings_insert (hrejected : matched.rejected = front ++ back)
    (name : GoString) :
    (join (warnings matched) (str "; ")).length <
      (join (warnings { matched with rejected := front ++ name :: back }) (str "; ")).length := by
  have hinserted : front ++ name :: back ≠ [] := by simp
  simp only [warnings, if_neg hinserted]
  by_cases hnames : front ++ back = []
  · rw [if_pos (hrejected.trans hnames), List.append_nil]
    exact length_join_lt_snoc _ (by simp [str]) _
  · rw [hrejected, if_neg hnames]
    apply length_join_snoc_lt
    simp only [List.length_append, length_listText_insert hnames]
    omega

/-- An additional refusal leaves the response alone exactly when the match
already holds a secret or a refusal. -/
theorem respond_refuse_iff (entry : GoString) :
    respond unicode server outcomes binaryName
          { matched with refused := front ++ entry :: back } =
        respond unicode server outcomes binaryName matched ↔
      matched.secrets ≠ [] ∨ matched.refused ≠ [] := by
  set more : Match := { matched with refused := front ++ entry :: back } with hmore
  have hentry : more.refused ≠ [] := by simp [hmore]
  by_cases hsecrets : matched.secrets = []
  · rw [respond_of_refused more hsecrets hentry]
    constructor
    · intro hsame
      have herror := respond_error_iff.1 (congrArg Response.error hsame).symm
      exact Or.inr herror.2
    · intro heither
      have hrefused := heither.resolve_left (not_not.2 hsecrets)
      exact (respond_of_refused matched hsecrets hrefused).symm
  · rw [respond_of_secrets more hsecrets, respond_of_secrets matched hsecrets]
    exact iff_of_true rfl (Or.inl hsecrets)

/-- An additional rejection leaves the response alone exactly when the match is
refused anyway or its release does not go through. -/
theorem respond_reject_iff (hrejected : matched.rejected = front ++ back) (name : GoString) :
    respond unicode server outcomes binaryName
          { matched with rejected := front ++ name :: back } =
        respond unicode server outcomes binaryName matched ↔
      (matched.secrets = [] ∧ matched.refused ≠ []) ∨
        (matched.secrets ≠ [] ∧ ¬ Delivers server outcomes) := by
  set more : Match := { matched with rejected := front ++ name :: back } with hmore
  have hentry : more.rejected ≠ [] := by simp [hmore]
  cases grounds matched with
  | empty hempty =>
      rw [respond_of_empty matched hempty, respond_of_rejected more hempty.1 hempty.2.2.1 hentry]
      exact iff_of_false (by simp) (by simp [hempty.1, hempty.2.2.1])
  | secrets hsecrets =>
      rw [respond_of_secrets more hsecrets, respond_of_secrets matched hsecrets]
      by_cases hdelivers : Delivers server outcomes
      · rw [settle_of_delivers hdelivers, settle_of_delivers hdelivers]
        refine iff_of_false ?_ (by simp [hsecrets, hdelivers])
        intro hsame
        have hwarning := congrArg (fun response => response.warning.length) hsame
        exact absurd hwarning (length_warnings_insert hrejected name).ne'
      · obtain ⟨error, _, hsettle⟩ := settle_of_not_delivers hdelivers
        rw [hsettle, hsettle]
        exact iff_of_true rfl (Or.inr ⟨hsecrets, hdelivers⟩)
  | refused hsecrets hrefused =>
      rw [respond_of_refused more hsecrets hrefused, respond_of_refused matched hsecrets hrefused]
      exact iff_of_true rfl (Or.inl ⟨hsecrets, hrefused⟩)
  | rejected hsecrets hrefused hreject =>
      rw [respond_of_rejected more hsecrets hrefused hentry,
        respond_of_rejected matched hsecrets hrefused hreject]
      refine iff_of_false ?_ (by simp [hsecrets, hrefused])
      intro hsame
      have hlength := congrArg (fun response => response.error.length) hsame
      exact absurd hlength (length_rejectedError_insert hrejected (hrejected ▸ hreject) name).ne'
  | unresolved hsecrets hrefused hreject hunresolved =>
      rw [respond_of_rejected more hsecrets hrefused hentry,
        respond_of_unresolved matched hsecrets hrefused hreject hunresolved]
      refine iff_of_false ?_ (by simp [hsecrets, hrefused])
      split_ifs
      · intro hsame
        have hfirst := congrArg (fun response => response.error.head?) hsame
        exact absurd hfirst (show some (115 : Byte) ≠ some 97 by decide)
      · simp

theorem lookup_insert_rejected {binding : Binding} {caller : Caller}
    (hrejected : binding.Rejected binaryName) (front back : List Binding) :
    lookup (front ++ binding :: back) binaryName caller =
      { lookup (front ++ back) binaryName caller with
        rejected := (rejected binaryName front).map Binding.name ++
          binding.name :: (rejected binaryName back).map Binding.name } := by
  simp [lookup_eq, admitted, refused, rejected, hrejected, hrejected.not_admitted,
    hrejected.not_refused]

theorem lookup_insert_refused {binding : Binding} {caller : Caller}
    (hrefused : binding.Refused binaryName caller) (front back : List Binding) :
    lookup (front ++ binding :: back) binaryName caller =
      { lookup (front ++ back) binaryName caller with
        refused := (refused binaryName caller front).map (refusal · caller) ++
          refusal binding caller :: (refused binaryName caller back).map (refusal · caller) } := by
  have hadmitted : ¬ binding.Admitted binaryName caller := fun hadmitted =>
    hadmitted.not_refused hrefused
  have hrejected : ¬ binding.Rejected binaryName := fun hrejected =>
    hrejected.not_refused hrefused
  simp [lookup_eq, admitted, refused, rejected, hrefused, hadmitted, hrejected]

/-- An irrelevant binding is a candidate for every binary all the same: it
counts as rejected or as refusing the caller. -/
theorem Irrelevant.standing {caller : Caller} {binding : Binding}
    (hirrelevant : Irrelevant caller binding) (binaryName : GoString) :
    (binding.rejected ≠ [] ∧ binding.Rejected binaryName) ∨
      (binding.rejected = [] ∧ binding.Refused binaryName caller) := by
  obtain ⟨hbinary, hkind⟩ := hirrelevant
  by_cases hrejected : binding.rejected = []
  · rcases hkind with hunscoped | hscoped
    · exact absurd hrejected hunscoped.2
    · exact Or.inr ⟨hrejected, Or.inl hbinary, hrejected, hscoped.2⟩
  · exact Or.inl ⟨hrejected, Or.inl hbinary, hrejected⟩

end Irrelevant

/-- Adding an irrelevant binding anywhere in the registry leaves the response
alone exactly when the request is not judged on its match, when it is refused
on identity anyway, or when a secret is found for it and the binding is a
servable one or the release does not go through. -/
theorem irrelevant_binding_inert_iff (unicode : Unicode) (server : Server)
    (outcomes : Outcomes) (cred : Ucred) (req : Request) (front back : List Binding)
    (binding : Binding) (hbindings : server.bindings = front ++ back)
    (hirrelevant : Irrelevant (caller server outcomes) binding) :
    (serve unicode { server with bindings := front ++ binding :: back } outcomes cred req).1 =
        (serve unicode server outcomes cred req).1 ↔
      ¬ Judged server outcomes req ∨
        (¬ HoldsSecret server outcomes req ∧ MeetsRefusal server outcomes req) ∨
        (HoldsSecret server outcomes req ∧
          (binding.rejected = [] ∨ ¬ Delivers server outcomes)) := by
  by_cases hjudged : Judged server outcomes req
  · rw [serve_with_bindings unicode cred hjudged, serve_eq_respond hjudged, holdsSecret_iff,
      meetsRefusal_iff, found, hbindings]
    rcases hirrelevant.standing (base req.binary) with
      ⟨hreason, hrejected⟩ | ⟨hreason, hrefused⟩
    · rw [lookup_insert_rejected hrejected, respond_reject_iff (by simp [lookup_eq, rejected])]
      simp [hjudged, hreason]
    · rw [lookup_insert_refused hrefused, respond_refuse_iff]
      simp only [hjudged, hreason, not_true_eq_false, false_or, true_or, and_true, not_not]
      tauto
  · obtain ⟨error, _, hserve⟩ := serve_of_not_judged unicode cred hjudged
    have hserved : (serve unicode server outcomes cred req).1 = { error := error } :=
      hserve server.bindings
    rw [hserve, hserved]
    exact iff_of_true rfl (Or.inl hjudged)

/-- The loader's image of a binding with an empty selector. -/
def emptySelectorBinding : Binding :=
  loadBinding bareHost .preferred 0 { selector := {} }

/-- A pod-scoped binding of another namespace that names no binary. -/
def namespaceBinding : Binding where
  name := str "tenant"
  selector := { namespaceName := str "tenant" }
  secrets := [⟨str "TOKEN", str "theirs"⟩]

theorem namespace_binding_inert :
    (serve Unicode.ascii { canaryServer with bindings := [canaryBinding, namespaceBinding] }
        unlabelledOutcomes ⟨7⟩ ⟨str "node"⟩).1 =
      (serve Unicode.ascii canaryServer unlabelledOutcomes ⟨7⟩ ⟨str "node"⟩).1 :=
  (irrelevant_binding_inert_iff Unicode.ascii canaryServer unlabelledOutcomes ⟨7⟩
    ⟨str "node"⟩ [canaryBinding] [] namespaceBinding rfl (by decide)).2
    (Or.inr (Or.inr ⟨⟨canaryBinding, by decide, by decide, by decide⟩, Or.inl rfl⟩))

/-- A server without bindings. -/
def idleServer : Server := { canaryServer with bindings := [] }

/-- A request for a binary nobody configured is answered quietly, and denied as
soon as the registry holds a binding with an empty selector or a binding for
another namespace that names no binary. -/
theorem unconfigured_binary_denied :
    Quiet (serve Unicode.ascii idleServer unlabelledOutcomes ⟨7⟩ ⟨str "node"⟩).1 ∧
      ∀ binding ∈ [emptySelectorBinding, namespaceBinding],
        Irrelevant (caller idleServer unlabelledOutcomes) binding ∧
          (serve Unicode.ascii { idleServer with bindings := [binding] }
            unlabelledOutcomes ⟨7⟩ ⟨str "node"⟩).1.ok = false := by
  decide +kernel

end KernelSeal.Matching

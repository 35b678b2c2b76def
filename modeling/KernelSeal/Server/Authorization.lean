import KernelSeal.Policy.Loader
import KernelSeal.Server.Serving

/-!
# Who receives which secret

Every value in a response is traced back to the binding it came from.  The
binding is the last admitted one, in configuration order, that supplies the
name.  From this follow what a release says about the caller, what required pod
identity guarantees for a whole configuration, and that bindings which do not
admit the caller influence nothing the caller can observe.
-/

namespace KernelSeal.Authorization

open KernelSeal.Text
open KernelSeal.Registry
open KernelSeal.Resumption
open KernelSeal.Delivery
open KernelSeal.Release
open KernelSeal.Serving
open KernelSeal.Loader

/-! ## Provenance -/

/-- The binding supplies a secret of this name. -/
def Supplies (name : GoString) (binding : Binding) : Prop :=
  ∃ secret ∈ binding.secrets, secret.name = name

instance (name : GoString) : DecidablePred (Supplies name) := fun binding =>
  inferInstanceAs (Decidable (∃ secret ∈ binding.secrets, secret.name = name))

/-- The binding a delivered name comes from: the last admitted one that
supplies it. -/
def source (bindings : List Binding) (binaryName : GoString) (caller : Caller)
    (name : GoString) : Option Binding :=
  (admitted binaryName caller bindings).reverse.find? (Supplies name ·)

theorem supplies_iff_find {name : GoString} {binding : Binding} :
    Supplies name binding ↔
      (binding.secrets.reverse.find? fun secret => secret.name = name).isSome = true := by
  simp [Supplies, List.find?_isSome]

theorem find_reverse_flatMap (bindings : List Binding) (name : GoString) :
    ((bindings.flatMap Binding.secrets).reverse.find? fun secret => secret.name = name) =
      (bindings.reverse.find? (Supplies name ·)).bind fun binding =>
        binding.secrets.reverse.find? fun secret => secret.name = name := by
  induction bindings using List.reverseRecOn with
  | nil => rfl
  | append_singleton bindings binding ih =>
      rw [List.flatMap_append, List.reverse_append, List.find?_append, ih,
        List.reverse_append, List.find?_append]
      simp only [List.flatMap_singleton, List.reverse_singleton, List.find?_singleton]
      by_cases hsupplies : Supplies name binding
      · obtain ⟨secret, hsecret⟩ := Option.isSome_iff_exists.1 (supplies_iff_find.1 hsupplies)
        simp [hsupplies, hsecret]
      · have hnone : (binding.secrets.reverse.find? fun secret => secret.name = name) = none := by
          simpa using mt supplies_iff_find.2 hsupplies
        rw [hnone]
        simp [hsupplies]

theorem source_admitted {bindings : List Binding} {binaryName name : GoString}
    {caller : Caller} {binding : Binding}
    (hsource : source bindings binaryName caller name = some binding) :
    binding ∈ bindings ∧ binding.Admitted binaryName caller := by
  have hmem := List.mem_reverse.1 (List.mem_of_find?_eq_some hsource)
  simpa [admitted] using hmem

/-- A delivered value is one its source holds under the delivered name. -/
theorem exists_source {bindings : List Binding} {binaryName name value : GoString}
    {caller : Caller}
    (hlookup : (environment (lookup bindings binaryName caller).secrets).lookup name =
      some value) :
    ∃ binding, source bindings binaryName caller name = some binding ∧
      ⟨name, value⟩ ∈ binding.secrets := by
  rw [lookup_environment, lookup_eq, find_reverse_flatMap, Option.map_eq_some_iff] at hlookup
  obtain ⟨secret, hfind, hvalue⟩ := hlookup
  obtain ⟨binding, hsource, hsecret⟩ := Option.bind_eq_some_iff.1 hfind
  have hname : secret.name = name := by simpa using List.find?_some hsecret
  have hmem : secret ∈ binding.secrets := List.mem_reverse.1 (List.mem_of_find?_eq_some hsecret)
  subst hname hvalue
  exact ⟨binding, hsource, hmem⟩

/-- A name that has a source is delivered. -/
theorem exists_value {bindings : List Binding} {binaryName name : GoString} {caller : Caller}
    {binding : Binding} (hsource : source bindings binaryName caller name = some binding) :
    ∃ value, (environment (lookup bindings binaryName caller).secrets).lookup name =
      some value := by
  have hsupplies : Supplies name binding := by simpa using List.find?_some hsource
  obtain ⟨secret, hsecret⟩ := Option.isSome_iff_exists.1 (supplies_iff_find.1 hsupplies)
  refine ⟨secret.value, ?_⟩
  rw [lookup_environment, lookup_eq, find_reverse_flatMap]
  rw [source] at hsource
  rw [hsource, Option.bind_some, hsecret]
  rfl

section Soundness

variable {unicode : Unicode} {server : Server} {outcomes : Outcomes}
variable {cred : Ucred} {req : Request}

/-- Every entry of a response has a source, which is admitted and holds it. -/
theorem exists_source_of_served {name value : GoString}
    (hentry : (serve unicode server outcomes cred req).1.env.lookup name = some value) :
    Judged server outcomes req ∧ Delivers server outcomes ∧
      ∃ binding, source server.bindings (base req.binary) (caller server outcomes) name =
          some binding ∧ ⟨name, value⟩ ∈ binding.secrets := by
  obtain ⟨hjudged, hdelivers, hfound⟩ := delivers_of_entry unicode cred hentry
  exact ⟨hjudged, hdelivers, exists_source hfound⟩

end Soundness

/-- What a release asserts about the source of one delivered entry: it is a
configured binding that is not rejected, it is a candidate for the binary, and
every constraint it names really holds of the caller. -/
structure Entitled (server : Server) (outcomes : Outcomes) (req : Request)
    (name value : GoString) (binding : Binding) : Prop where
  configured : binding ∈ server.bindings
  supplies : ⟨name, value⟩ ∈ binding.secrets
  servable : binding.rejected = []
  candidate : binding.Candidate (base req.binary)
  satisfied : binding.selector.Satisfied (caller server outcomes)

/-- A release is sound exactly when, unless it is withheld altogether, no source
of a name selects on a label with an empty value that the caller's pod does not
carry. -/
theorem release_sound_iff (unicode : Unicode) (server : Server) (outcomes : Outcomes)
    (cred : Ucred) (req : Request) :
    (∀ name value,
        (serve unicode server outcomes cred req).1.env.lookup name = some value →
        ∃ binding,
          source server.bindings (base req.binary) (caller server outcomes) name =
            some binding ∧
          Entitled server outcomes req name value binding) ↔
      (Judged server outcomes req → Delivers server outcomes →
        ∀ name binding,
          source server.bindings (base req.binary) (caller server outcomes) name =
            some binding →
          ¬ binding.selector.BlankLabelMissing (caller server outcomes)) := by
  constructor
  · intro hsound hjudged hdelivers name binding hsource
    obtain ⟨value, hvalue⟩ := exists_value hsource
    have hentry : (serve unicode server outcomes cred req).1.env.lookup name = some value := by
      rw [env_of_delivers unicode cred hjudged hdelivers]
      exact hvalue
    obtain ⟨binding', hsource', hentitled⟩ := hsound name value hentry
    obtain rfl : binding = binding' := Option.some.inj (hsource.symm.trans hsource')
    exact ((satisfied_iff _ _).1 hentitled.satisfied).2
  · intro hlabels name value hentry
    obtain ⟨hjudged, hdelivers, binding, hsource, hsupplies⟩ := exists_source_of_served hentry
    obtain ⟨hconfigured, hcandidate, hservable, hadmits⟩ := source_admitted hsource
    refine ⟨binding, hsource, hconfigured, hsupplies, hservable, hcandidate, ?_⟩
    exact (satisfied_iff _ _).2 ⟨hadmits, hlabels hjudged hdelivers name binding hsource⟩

/-- A binding that asks for the label `canary` with an empty value. -/
def canaryBinding : Binding where
  name := str "canary"
  selector := { binary := str "node", labels := Finmap.singleton (str "canary") [] }
  secrets := [⟨str "TOKEN", str "s3cr3t"⟩]

/-- A pod without labels. -/
def unlabelledPod : Pod where
  uid := str "u"
  name := str "web"
  namespaceName := str "default"
  labels := ∅
  containers := ∅

def canaryServer : Server where
  cfg := { requireProtection := true, identifyCallers := true, requirePodIdentity := true }
  bindings := [canaryBinding]

/-- Every call succeeds and the caller runs in the unlabelled pod. -/
def unlabelledOutcomes : Outcomes where
  identify := ({ pod := some unlabelledPod }, none)
  startBefore := .ok 1
  startAfter := .ok 1
  protectPID := none
  trackPID := none
  unprotectPID := none

/-- A pod without the label `canary` is served by the binding that requires it. -/
theorem missing_label_served :
    (serve Unicode.ascii canaryServer unlabelledOutcomes ⟨7⟩ ⟨str "node"⟩).1.env.lookup
        (str "TOKEN") = some (str "s3cr3t") ∧
      ∀ binding ∈ canaryServer.bindings,
        ¬ binding.selector.Satisfied (caller canaryServer unlabelledOutcomes) := by
  constructor
  · decide
  · intro binding hbinding hsatisfied
    obtain rfl : binding = canaryBinding := List.mem_singleton.1 hbinding
    apply ((satisfied_iff _ _).1 hsatisfied).2
    exact ⟨str "canary", rfl, unlabelledPod, rfl, rfl⟩

/-! ## Bindings that do not admit the caller -/

/-- Two bindings that are configured alike and, if `Visible`, hold the same
secrets. -/
structure Alike (Visible : Binding → Prop) (left right : Binding) : Prop where
  name : left.name = right.name
  selector : left.selector = right.selector
  rejected : left.rejected = right.rejected
  visible : Visible left →
    left.secrets = right.secrets ∧ left.unresolved = right.unresolved

section Noninterference

variable {binaryName : GoString} {caller : Caller}

theorem Alike.visit {left right : Binding}
    (halike : Alike (Binding.Admitted binaryName caller) left right) (found : Match) :
    found.visit binaryName caller left = found.visit binaryName caller right := by
  obtain ⟨name, selector, secrets, unresolved, rejected⟩ := left
  obtain ⟨name', selector', secrets', unresolved', rejected'⟩ := right
  obtain ⟨rfl, rfl, rfl, hvisible⟩ := halike
  by_cases hadmitted : Binding.Admitted binaryName caller
      ⟨name, selector, secrets, unresolved, rejected⟩
  · obtain ⟨rfl, rfl⟩ := hvisible hadmitted
    rfl
  · simp only [Match.visit, refusal]
    split_ifs with hother hrejected hadmits
    · rfl
    · rfl
    · exact absurd ⟨or_iff_not_and_not.2 hother, not_not.1 hrejected, hadmits⟩ hadmitted
    · rfl

/-- Registries that agree on the bindings that admit the caller answer alike. -/
theorem lookup_congr {left right : List Binding}
    (halike : List.Forall₂ (Alike (Binding.Admitted binaryName caller)) left right) :
    lookup left binaryName caller = lookup right binaryName caller := by
  have hfold (found : Match) :
      left.foldl (Match.visit binaryName caller) found =
        right.foldl (Match.visit binaryName caller) found := by
    induction halike generalizing found with
    | nil => rfl
    | cons hbinding _ ih => rw [List.foldl_cons, List.foldl_cons, hbinding.visit, ih]
  rw [lookup, lookup, hfold]

end Noninterference

/-- `handle` depends on the registry only through what it finds for the
identified caller. -/
theorem serve_congr (unicode : Unicode) (server : Server) (outcomes : Outcomes)
    (cred : Ucred) {req : Request} {bindings : List Binding}
    (hlookup : lookup server.bindings (base req.binary) (caller server outcomes) =
      lookup bindings (base req.binary) (caller server outcomes)) :
    serve unicode server outcomes cred req =
      serve unicode { server with bindings := bindings } outcomes cred req := by
  by_cases hjudged : Judged server outcomes req
  · have hbindings : Judged { server with bindings := bindings } outcomes req := hjudged
    have hfound : found server outcomes req =
        found { server with bindings := bindings } outcomes req := hlookup
    refine Prod.ext ?_ ?_
    · rw [serve_of_judged unicode cred hjudged, serve_of_judged unicode cred hbindings, hfound]
      rfl
    · rw [serve_calls_of_judged unicode cred hjudged, serve_calls_of_judged unicode cred hbindings,
        hfound]
      rfl
  · exact (serve_congr_of_not_judged unicode cred hjudged bindings).symm

/-- Secrets of bindings that are rejected, that do not match the binary or that
do not admit the caller influence neither the response nor any call made on the
way to it. -/
theorem cross_pod_noninterference (unicode : Unicode) (server : Server) (outcomes : Outcomes)
    (cred : Ucred) (req : Request) {left right : List Binding}
    (halike : List.Forall₂
      (Alike (Binding.Admitted (base req.binary) (caller server outcomes))) left right) :
    serve unicode { server with bindings := left } outcomes cred req =
      serve unicode { server with bindings := right } outcomes cred req :=
  serve_congr unicode { server with bindings := left } outcomes cred (lookup_congr halike)

/-- A binding of another namespace for the same binary. -/
def tenantBinding (secrets : List Secret) : Binding where
  name := str "tenant"
  selector := { binary := str "node", namespaceName := str "tenant" }
  secrets := secrets

theorem other_tenant_unobservable :
    tenantBinding [⟨str "TOKEN", str "theirs"⟩] ≠ tenantBinding [] ∧
      serve Unicode.ascii
          { canaryServer with
            bindings := [canaryBinding, tenantBinding [⟨str "TOKEN", str "theirs"⟩]] }
          unlabelledOutcomes ⟨7⟩ ⟨str "node"⟩ =
        serve Unicode.ascii
          { canaryServer with bindings := [canaryBinding, tenantBinding []] }
          unlabelledOutcomes ⟨7⟩ ⟨str "node"⟩ := by
  refine ⟨by decide, cross_pod_noninterference _ canaryServer _ _ _ (.cons ?_ (.cons ?_ .nil))⟩
  · exact ⟨rfl, rfl, rfl, fun _ => ⟨rfl, rfl⟩⟩
  · exact ⟨rfl, rfl, rfl, fun hadmitted => absurd hadmitted (by decide)⟩

/-! ## Required pod identity -/

section Required

variable {unicode : Unicode} {host : Host} {config : KernelSealConfig} {outcomes : Outcomes}

/-- The configured mode is `required` or not recognized at all. -/
def RequiresPod (unicode : Unicode) (config : KernelSealConfig) : Prop :=
  toLower unicode (trimSpace config.policy.podIdentity) ∉
    [[], str "preferred", str "disabled"]

instance : Decidable (RequiresPod unicode config) :=
  inferInstanceAs (Decidable (_ ∉ _))

theorem podIdentityMode_of_requiresPod (hmode : RequiresPod unicode config) :
    podIdentityMode unicode config = .required := by
  simp only [RequiresPod, List.mem_cons, List.not_mem_nil, or_false, not_or] at hmode
  obtain ⟨hempty, hpreferred, hdisabled⟩ := hmode
  simp only [podIdentityMode, parsePodIdentity]
  rw [if_neg (not_or.2 ⟨hempty, hpreferred⟩), if_neg hdisabled]
  split_ifs <;> rfl

/-- In required mode a binding is servable only if its selector names a pod. -/
theorem isPodScoped_of_servable {selector : Selector}
    (hservable : rejectionFor selector .required = []) : selector.IsPodScoped := by
  by_contra hunscoped
  simp only [rejectionFor, hunscoped, not_false_eq_true, and_true, if_true] at hservable
  -- Only the first byte of a rejection needs to be looked at.
  split_ifs at hservable <;> exact absurd (congrArg List.isEmpty hservable) (by decide)

theorem identified_of_requiresPod (hmode : RequiresPod unicode config) :
    identified (mainServer unicode host config) outcomes = outcomes.identify := by
  have hrequired := podIdentityMode_of_requiresPod hmode
  simp [identified, mainServer, hrequired]

/-- In required mode every judged caller was identified with a pod. -/
theorem attributed_of_judged (hmode : RequiresPod unicode config) {req : Request}
    (hjudged : Judged (mainServer unicode host config) outcomes req) :
    outcomes.identify.2 = none ∧ ∃ pod, outcomes.identify.1.pod = some pod := by
  have hattributed := hjudged.2
  rw [identified_of_requiresPod hmode] at hattributed
  have hrequired : (mainServer unicode host config).cfg.requirePodIdentity = true := by
    simp [mainServer, podIdentityMode_of_requiresPod hmode]
  simp only [Unattributed, hrequired, true_and, not_or] at hattributed
  exact ⟨by simpa using hattributed.1, Option.ne_none_iff_exists'.1 hattributed.2⟩

/-- In required mode a loaded binding admits callers only if it is pod-scoped. -/
theorem isPodScoped_of_admitted (hmode : RequiresPod unicode config) {binding : Binding}
    (hloaded : binding ∈ loadSecrets unicode host config) {binaryName : GoString}
    {caller : Caller} (hadmitted : binding.Admitted binaryName caller) :
    binding.selector.IsPodScoped := by
  obtain ⟨index, configured, _, rfl⟩ := exists_of_mem_loadSecrets hloaded
  have hservable := hadmitted.2.1
  rw [loadBinding_rejected, podIdentityMode_of_requiresPod hmode] at hservable
  rw [loadBinding_selector]
  exact isPodScoped_of_servable hservable

end Required

/-- Required mode end to end.  Whatever is released goes to a caller identified
with a pod and comes from a binding that names a pod; what bindings that name
no pod hold changes no response and no call. -/
theorem required_mode_attributes (unicode : Unicode) (host : Host) (config : KernelSealConfig)
    (outcomes : Outcomes) (cred : Ucred) (req : Request) (hmode : RequiresPod unicode config) :
    (∀ name value,
        (serve unicode (mainServer unicode host config) outcomes cred req).1.env.lookup name =
          some value →
        outcomes.identify.2 = none ∧ (∃ pod, outcomes.identify.1.pod = some pod) ∧
          ∃ binding ∈ loadSecrets unicode host config,
            source (loadSecrets unicode host config) (base req.binary)
                outcomes.identify.1 name = some binding ∧
              ⟨name, value⟩ ∈ binding.secrets ∧ binding.selector.IsPodScoped) ∧
      ∀ bindings,
        List.Forall₂ (Alike fun binding => binding.selector.IsPodScoped)
          (loadSecrets unicode host config) bindings →
        serve unicode (mainServer unicode host config) outcomes cred req =
          serve unicode { mainServer unicode host config with bindings := bindings }
            outcomes cred req := by
  have hcaller : caller (mainServer unicode host config) outcomes = outcomes.identify.1 :=
    congrArg Prod.fst (identified_of_requiresPod hmode)
  constructor
  · intro name value hentry
    obtain ⟨hjudged, _, binding, hsource, hsupplies⟩ := exists_source_of_served hentry
    obtain ⟨hnoerror, hpod⟩ := attributed_of_judged hmode hjudged
    obtain ⟨hloaded, hadmitted⟩ := source_admitted hsource
    rw [hcaller] at hsource
    exact ⟨hnoerror, hpod, binding, hloaded, hsource, hsupplies,
      isPodScoped_of_admitted hmode hloaded hadmitted⟩
  · intro bindings halike
    apply serve_congr
    apply lookup_congr
    have hloaded : ∀ binding ∈ loadSecrets unicode host config,
        binding.Admitted (base req.binary) (caller (mainServer unicode host config) outcomes) →
          binding.selector.IsPodScoped :=
      fun binding hbinding hadmitted => isPodScoped_of_admitted hmode hbinding hadmitted
    apply ((List.forall₂_and_left _ _).2 ⟨hloaded, halike⟩).imp
    intro left right hleft
    exact ⟨hleft.2.name, hleft.2.selector, hleft.2.rejected, fun hadmitted =>
      hleft.2.visible (hleft.1 hadmitted)⟩

/-- A configuration whose pod identity mode is mistyped. -/
def mistypedConfig : KernelSealConfig where
  policy := { podIdentity := str " Requird" }
  secrets :=
    [{ selector := { binary := str "node", namespaceName := str "default" }
       secretRefs := [⟨str "TOKEN", { value := str "s3cr3t" }⟩] }]

/-- A host without environment variables and files. -/
def bareHost : Host where
  getenv _ := []
  readFile _ := .error []

theorem mistyped_mode_attributes :
    RequiresPod Unicode.ascii mistypedConfig ∧
      ∃ binding ∈ loadSecrets Unicode.ascii bareHost mistypedConfig,
        ⟨str "TOKEN", str "s3cr3t"⟩ ∈ binding.secrets ∧ binding.selector.IsPodScoped := by
  have hmode : RequiresPod Unicode.ascii mistypedConfig := by decide
  obtain ⟨_, _, binding, hloaded, _, hsupplies, hscoped⟩ :=
    (required_mode_attributes Unicode.ascii bareHost mistypedConfig unlabelledOutcomes ⟨7⟩
      ⟨str "node"⟩ hmode).1 (str "TOKEN") (str "s3cr3t") (by decide)
  exact ⟨hmode, binding, hloaded, hsupplies, hscoped⟩

end KernelSeal.Authorization

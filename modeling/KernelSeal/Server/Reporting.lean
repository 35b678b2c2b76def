import KernelSeal.Server.Authorization

/-!
# How a release is reported

The released environment is a map, while the names given to the issued callback and
the names listed as unresolved are lists over all references of the admitted bindings.
They tell of the same variables, but a variable that is bound twice is counted twice,
and one that is bound twice with one source failing is both delivered and listed as
unresolved.
-/

namespace KernelSeal.Reporting

open KernelSeal.Text
open KernelSeal.Registry
open KernelSeal.Delivery
open KernelSeal.Release
open KernelSeal.Serving
open KernelSeal.Authorization

/-- The names of each call of the issued callback. -/
def issuedNames (calls : List Step) : List (List GoString) :=
  calls.filterMap fun call =>
    match call.op with
    | .onIssued _ names => some names
    | _ => none

/-- The names tell exactly what was released: its keys in ascending order, each
once. -/
structure TellsKeys (names : List GoString) (env : StringMap) : Prop where
  ascending : names.Pairwise (· < ·)
  keys : ∀ name, name ∈ names ↔ name ∈ env

/-- No variable is bound twice among the references of the bindings: their secrets have
different names, and no binding lists one of these as unresolved. -/
structure BoundOnce (bindings : List Binding) : Prop where
  secrets : ((bindings.flatMap Binding.secrets).map Secret.name).Nodup
  unresolved : ∀ binding ∈ bindings, ∀ secret ∈ binding.secrets, ∀ other ∈ bindings,
    secret.name ∉ other.unresolved

section Served

variable {unicode : Unicode} {server : Server} {outcomes : Outcomes} {cred : Ucred}
  {req : Request}

theorem issuedNames_append (first second : List Step) :
    issuedNames (first ++ second) = issuedNames first ++ issuedNames second :=
  List.filterMap_append

theorem issuedNames_identifyCalls (pid : UInt32) :
    issuedNames (identifyCalls server outcomes pid) = [] := by
  rw [identifyCalls]
  split_ifs <;> rfl

theorem issuedNames_issuedCalls (pid : UInt32) (names : List GoString) :
    issuedNames (issuedCalls server pid names) =
      if server.issuedCallback then [names] else [] := by
  rw [issuedCalls]
  split_ifs <;> rfl

/-- A release that goes through calls back once. -/
theorem issuedNames_settleCalls (hdelivers : Delivers server outcomes) (pid : UInt32)
    (matched : Match) :
    issuedNames (settleCalls server outcomes pid matched) =
      if server.issuedCallback then [sortStrings (matched.secrets.map Secret.name)] else [] := by
  obtain ⟨⟨start, hbefore, hafter⟩, hallowed⟩ := hdelivers
  have hagrees : agrees start outcomes.startAfter = true := agrees_iff.2 hafter
  simp only [settleCalls, hbefore]
  rw [if_neg (not_not.2 hagrees), if_neg hallowed, issuedNames_append, issuedNames_issuedCalls]
  rfl

/-- A served request that carries an environment released what was found. -/
theorem released_of_env (henv : (serve unicode server outcomes cred req).1.env ≠ ∅) :
    Delivers server outcomes ∧
      (serve unicode server outcomes cred req).1 =
        settle server outcomes (found server outcomes req) ∧
      (serve unicode server outcomes cred req).2 =
        identifyCalls server outcomes cred.pid.toUInt32 ++
          settleCalls server outcomes cred.pid.toUInt32 (found server outcomes req) := by
  obtain ⟨hjudged, hdelivers⟩ := delivers_of_env unicode cred henv
  have hsecrets : (found server outcomes req).secrets ≠ [] := by
    intro hnone
    rw [serve_of_judged unicode cred hjudged] at henv
    exact henv (answer_of_no_secrets unicode hnone)
  refine ⟨hdelivers, ?_, ?_⟩
  · rw [serve_of_judged unicode cred hjudged, judge_of_secrets unicode hsecrets]
    rfl
  · rw [serve_calls_of_judged unicode cred hjudged, judge_of_secrets unicode hsecrets]
    rfl

end Served

section Names

variable (matched : Match)

theorem mem_sorted_names_iff (name : GoString) :
    name ∈ sortStrings (matched.secrets.map Secret.name) ↔ name ∈ environment matched.secrets := by
  rw [(perm_sortStrings _).mem_iff, mem_environment_iff, List.mem_map]

theorem tellsKeys_iff :
    TellsKeys (sortStrings (matched.secrets.map Secret.name)) (environment matched.secrets) ↔
      (matched.secrets.map Secret.name).Nodup := by
  rw [← sortStrings_strict_iff]
  exact ⟨TellsKeys.ascending, fun hascending => ⟨hascending, mem_sorted_names_iff matched⟩⟩

theorem unlisted_iff :
    (∀ name ∈ environment matched.secrets, name ∉ matched.unresolved) ↔
      ∀ secret ∈ matched.secrets, secret.name ∉ matched.unresolved := by
  simp only [mem_environment_iff]
  constructor
  · exact fun hunlisted secret hsecret => hunlisted secret.name ⟨secret, hsecret, rfl⟩
  · rintro hunlisted name ⟨secret, hsecret, rfl⟩
    exact hunlisted secret hsecret

/-- The match of a lookup tells whether the admitted bindings bind a variable twice. -/
theorem boundOnce_iff (bindings : List Binding) (binaryName : GoString) (caller : Caller) :
    BoundOnce (admitted binaryName caller bindings) ↔
      ((lookup bindings binaryName caller).secrets.map Secret.name).Nodup ∧
        ∀ secret ∈ (lookup bindings binaryName caller).secrets,
          secret.name ∉ (lookup bindings binaryName caller).unresolved := by
  rw [lookup_eq]
  simp only [(perm_sortStrings _).mem_iff, List.mem_flatMap, not_exists, not_and]
  constructor
  · rintro ⟨hnames, hunresolved⟩
    exact ⟨hnames, fun secret ⟨binding, hbinding, hsecret⟩ =>
      hunresolved binding hbinding secret hsecret⟩
  · rintro ⟨hnames, hunresolved⟩
    exact ⟨hnames, fun binding hbinding secret hsecret =>
      hunresolved secret ⟨binding, hbinding, hsecret⟩⟩

end Names

/-- A release with a non-empty environment calls back once, with the sorted names of
all admitted secrets, and its warning lists all admitted unresolved names.  The names
are the keys of the environment, each once, and none of the keys is listed as
unresolved, exactly when the admitted bindings bind no variable twice. -/
theorem release_reported_iff (unicode : Unicode) (server : Server) (outcomes : Outcomes)
    (cred : Ucred) (req : Request)
    (henv : (serve unicode server outcomes cred req).1.env ≠ ∅) :
    let matched := found server outcomes req
    let names := sortStrings (matched.secrets.map Secret.name)
    let response := (serve unicode server outcomes cred req).1
    issuedNames (serve unicode server outcomes cred req).2 =
        (if server.issuedCallback then [names] else []) ∧
      response.warning = join (warnings matched) (str "; ") ∧
      names.Pairwise (· ≤ ·) ∧ (∀ name, name ∈ names ↔ name ∈ response.env) ∧
      (TellsKeys names response.env ∧ (∀ name ∈ response.env, name ∉ matched.unresolved) ↔
        BoundOnce (admitted (base req.binary) (caller server outcomes) server.bindings)) := by
  intro matched names response
  obtain ⟨hdelivers, hresponse, hcalls⟩ := released_of_env henv
  have hsettle : response = _ := hresponse.trans (settle_of_delivers hdelivers matched)
  rw [hcalls, hsettle]
  refine ⟨?_, rfl, sortStrings_ascending _, mem_sorted_names_iff matched, ?_⟩
  · rw [issuedNames_append, issuedNames_identifyCalls, List.nil_append]
    exact issuedNames_settleCalls hdelivers _ _
  · rw [tellsKeys_iff, unlisted_iff, boundOnce_iff]
    rfl

/-- The same variable in two bindings for `node`, the second of which binds it twice and
could read only one of the sources. -/
def overlappingServer : Server :=
  { canaryServer with
    bindings :=
      [{ name := str "shared", selector := { binary := str "node" },
         secrets := [⟨str "TOKEN", str "t"⟩] },
       { name := str "app", selector := { binary := str "node" },
         secrets := [⟨str "TOKEN", str "u"⟩], unresolved := [str "TOKEN"] }] }

theorem single_binding_reported :
    issuedNames (serve Unicode.ascii canaryServer unlabelledOutcomes ⟨7⟩ ⟨str "node"⟩).2 =
      [[str "TOKEN"]] :=
  (release_reported_iff Unicode.ascii canaryServer unlabelledOutcomes ⟨7⟩ ⟨str "node"⟩
    (by decide)).1

/-- One variable is released, two names are reported, and the variable is listed as
unresolved as well. -/
theorem overlapping_bindings_misreported :
    (serve Unicode.ascii overlappingServer unlabelledOutcomes ⟨7⟩ ⟨str "node"⟩).1.env =
        Finmap.singleton (str "TOKEN") (str "u") ∧
      issuedNames (serve Unicode.ascii overlappingServer unlabelledOutcomes ⟨7⟩
        ⟨str "node"⟩).2 = [[str "TOKEN", str "TOKEN"]] ∧
      (serve Unicode.ascii overlappingServer unlabelledOutcomes ⟨7⟩ ⟨str "node"⟩).1.warning =
        str "1 configured secret(s) failed to resolve: [TOKEN]" := by
  decide

end KernelSeal.Reporting

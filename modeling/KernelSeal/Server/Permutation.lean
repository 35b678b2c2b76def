import KernelSeal.Server.Authorization

/-!
# The order of bindings

The registry goes through the bindings in configuration order, and later secrets
overwrite earlier ones.  Where no two admitted bindings supply the same name, nothing
of that order is left: the released environment, the calls and the reported names are
those of any permutation.  Where they do, the last one wins.
-/

namespace KernelSeal.Permutation

open KernelSeal.Text
open KernelSeal.Registry
open KernelSeal.Delivery
open KernelSeal.Release
open KernelSeal.Serving
open KernelSeal.Authorization

/-! ## Environments -/

/-- Secrets of one name have one value. -/
def Agreeing (secrets : List Secret) : Prop :=
  ∀ first ∈ secrets, ∀ second ∈ secrets, first.name = second.name → first.value = second.value

theorem lookup_environment_iff {secrets : List Secret} (hagreeing : Agreeing secrets)
    {name value : GoString} :
    (environment secrets).lookup name = some value ↔ ⟨name, value⟩ ∈ secrets := by
  rw [lookup_environment, Option.map_eq_some_iff]
  constructor
  · rintro ⟨secret, hfind, rfl⟩
    have hname : secret.name = name := by simpa using List.find?_some hfind
    rw [← hname]
    exact List.mem_reverse.1 (List.mem_of_find?_eq_some hfind)
  · intro hmem
    cases hfind : secrets.reverse.find? fun secret => secret.name = name with
    | none =>
        have hnone := List.find?_eq_none.1 hfind _ (List.mem_reverse.2 hmem)
        simp at hnone
    | some secret =>
        have hname : secret.name = name := by simpa using List.find?_some hfind
        have hsecret := List.mem_reverse.1 (List.mem_of_find?_eq_some hfind)
        exact ⟨secret, rfl, hagreeing secret hsecret _ hmem hname⟩

theorem Agreeing.perm {left right : List Secret} (hagreeing : Agreeing left)
    (hperm : left.Perm right) : Agreeing right := fun first hfirst second hsecond =>
  hagreeing first (hperm.mem_iff.2 hfirst) second (hperm.mem_iff.2 hsecond)

theorem environment_eq_of_perm {left right : List Secret} (hagreeing : Agreeing left)
    (hperm : left.Perm right) : environment left = environment right := by
  refine Finmap.ext_lookup fun name => Option.ext fun value => ?_
  rw [lookup_environment_iff hagreeing, lookup_environment_iff (hagreeing.perm hperm),
    hperm.mem_iff]

/-! ## Matches -/

/-- Two matches that differ in the order of their bindings only. -/
structure Reordered (left right : Match) : Prop where
  secrets : left.secrets.Perm right.secrets
  unresolved : left.unresolved = right.unresolved
  refused : left.refused.Perm right.refused
  rejected : left.rejected.Perm right.rejected

theorem reordered_lookup {left right : List Binding} (hperm : left.Perm right)
    (binaryName : GoString) (caller : Caller) :
    Reordered (lookup left binaryName caller) (lookup right binaryName caller) := by
  have hadmitted : (admitted binaryName caller left).Perm (admitted binaryName caller right) :=
    hperm.filter _
  rw [lookup_eq, lookup_eq]
  exact
    { secrets := hadmitted.flatMap_right _
      unresolved := sortStrings_eq_of_perm (hadmitted.flatMap_right _)
      refused := (hperm.filter _).map _
      rejected := (hperm.filter _).map _ }

/-- What a response says, apart from its texts. -/
def outline (response : Response) : Bool × StringMap × Bool :=
  (response.ok, response.env, response.isProtected)

section Responses

variable (server : Server) (outcomes : Outcomes) (pid : UInt32) {left right : Match}

theorem eq_nil_iff_of_perm {α : Type*} {left right : List α} (hperm : left.Perm right) :
    left = [] ↔ right = [] := by
  rw [← List.isEmpty_iff, hperm.isEmpty_eq, List.isEmpty_iff]

theorem Reordered.settle_eq (hreordered : Reordered left right)
    (hagreeing : Agreeing left.secrets) :
    outline (settle server outcomes left) = outline (settle server outcomes right) ∧
      settleCalls server outcomes pid left = settleCalls server outcomes pid right := by
  have henv := environment_eq_of_perm hagreeing hreordered.secrets
  have hnames := sortStrings_eq_of_perm (hreordered.secrets.map Secret.name)
  constructor
  · simp only [settle]
    cases outcomes.startBefore with
    | error err => rfl
    | ok startBefore =>
        dsimp only
        by_cases hagrees : ¬ agrees startBefore outcomes.startAfter = true
        · rw [if_pos hagrees, if_pos hagrees]
        · rw [if_neg hagrees, if_neg hagrees]
          split_ifs
          · rfl
          · simp only [outline, henv]
  · simp only [settleCalls, hnames]

/-- The verdicts on two such matches are carried out alike. -/
theorem Reordered.judge_eq (unicode : Unicode) (binaryName : GoString)
    (hreordered : Reordered left right) (hagreeing : Agreeing left.secrets) :
    outline (answer server outcomes (judge unicode server binaryName left)) =
        outline (answer server outcomes (judge unicode server binaryName right)) ∧
      answerCalls server outcomes pid (judge unicode server binaryName left) =
        answerCalls server outcomes pid (judge unicode server binaryName right) := by
  have hsecrets : left.secrets = [] ↔ right.secrets = [] := eq_nil_iff_of_perm hreordered.secrets
  have hrefused : left.refused = [] ↔ right.refused = [] := eq_nil_iff_of_perm hreordered.refused
  have hrejected : left.rejected = [] ↔ right.rejected = [] :=
    eq_nil_iff_of_perm hreordered.rejected
  simp only [judge, Match.Empty, hsecrets, hreordered.unresolved, hrefused, hrejected, Ne]
  split_ifs
  · exact ⟨rfl, rfl⟩
  · exact ⟨rfl, rfl⟩
  · exact ⟨rfl, rfl⟩
  · exact ⟨rfl, rfl⟩
  · exact ⟨rfl, rfl⟩
  · exact hreordered.settle_eq server outcomes pid hagreeing

end Responses

/-! ## Conflicts -/

section Conflicts

variable (binaryName : GoString) (caller : Caller) (bindings : List Binding)

/-- No name is supplied by two different admitted bindings, and none twice with
different values by one of them. -/
structure Unconflicted : Prop where
  apart : ∀ first ∈ admitted binaryName caller bindings,
    ∀ second ∈ admitted binaryName caller bindings, first ≠ second →
    ∀ name, Supplies name first → ¬ Supplies name second
  single : ∀ binding ∈ admitted binaryName caller bindings, Agreeing binding.secrets

variable {binaryName caller bindings}

theorem Unconflicted.agreeing (hunconflicted : Unconflicted binaryName caller bindings) :
    Agreeing (lookup bindings binaryName caller).secrets := by
  rw [lookup_eq]
  intro first hfirst second hsecond hname
  obtain ⟨left, hleft, hfirst⟩ := List.mem_flatMap.1 hfirst
  obtain ⟨right, hright, hsecond⟩ := List.mem_flatMap.1 hsecond
  by_cases hsame : left = right
  · subst hsame
    exact hunconflicted.single left hleft first hfirst second hsecond hname
  · exact absurd ⟨second, hsecond, rfl⟩
      (hunconflicted.apart left hleft right hright hsame second.name ⟨first, hfirst, hname⟩)

end Conflicts

theorem find_reverse_eq_some {α : Type*} {items : List α} {test : α → Bool} {item : α}
    (hfind : items.reverse.find? test = some item) :
    ∃ front back, items = front ++ item :: back ∧ ∀ later ∈ back, test later = false := by
  obtain ⟨_, before, after, hitems, hbefore⟩ := List.find?_eq_some_iff_append.1 hfind
  refine ⟨after.reverse, before.reverse, ?_, fun later hlater => ?_⟩
  · rw [← List.reverse_reverse items, hitems]
    simp
  · simpa using hbefore later (List.mem_reverse.1 hlater)

/-- The value of a name is the last one of the last admitted binding that supplies
it. -/
theorem last_binding_of_lookup {bindings : List Binding} {binaryName name value : GoString}
    {caller : Caller}
    (hlookup : (environment (lookup bindings binaryName caller).secrets).lookup name =
      some value) :
    ∃ front binding back, admitted binaryName caller bindings = front ++ binding :: back ∧
      (∀ later ∈ back, ¬ Supplies name later) ∧
      ∃ earlier later, binding.secrets = earlier ++ ⟨name, value⟩ :: later ∧
        ∀ secret ∈ later, secret.name ≠ name := by
  rw [lookup_environment, lookup_eq, find_reverse_flatMap, Option.map_eq_some_iff] at hlookup
  obtain ⟨secret, hfind, rfl⟩ := hlookup
  obtain ⟨binding, hbinding, hsecret⟩ := Option.bind_eq_some_iff.1 hfind
  have hname : secret.name = name := by simpa using List.find?_some hsecret
  obtain ⟨front, back, hadmitted, hback⟩ := find_reverse_eq_some hbinding
  obtain ⟨earlier, later, hsecrets, hlater⟩ := find_reverse_eq_some hsecret
  subst hname
  exact ⟨front, binding, back, hadmitted,
    fun other hother => of_decide_eq_false (hback other hother), earlier, later, hsecrets,
    fun other hother => of_decide_eq_false (hlater other hother)⟩

/-- A permutation of bindings that do not conflict changes neither what is released nor
any call, and a name in conflict has its value from the last admitted binding that
supplies it. -/
theorem binding_order (unicode : Unicode) (server : Server) (outcomes : Outcomes)
    (cred : Ucred) (req : Request) :
    (∀ permuted, server.bindings.Perm permuted →
      Unconflicted (base req.binary) (caller server outcomes) server.bindings →
      outline (serve unicode { server with bindings := permuted } outcomes cred req).1 =
          outline (serve unicode server outcomes cred req).1 ∧
        (serve unicode { server with bindings := permuted } outcomes cred req).2 =
          (serve unicode server outcomes cred req).2) ∧
    (∀ name value, (serve unicode server outcomes cred req).1.env.lookup name = some value →
      ∃ front binding back,
        admitted (base req.binary) (caller server outcomes) server.bindings =
          front ++ binding :: back ∧
        (∀ later ∈ back, ¬ Supplies name later) ∧
        ∃ earlier later, binding.secrets = earlier ++ ⟨name, value⟩ :: later ∧
          ∀ secret ∈ later, secret.name ≠ name) := by
  constructor
  · intro permuted hperm hunconflicted
    by_cases hjudged : Judged server outcomes req
    · obtain ⟨houtline, hcalls⟩ :=
        (reordered_lookup hperm (base req.binary) (caller server outcomes)).judge_eq server
          outcomes cred.pid.toUInt32 unicode (base req.binary) hunconflicted.agreeing
      have hpermuted : Judged { server with bindings := permuted } outcomes req := hjudged
      rw [serve_of_judged unicode cred hjudged, serve_of_judged unicode cred hpermuted,
        serve_calls_of_judged unicode cred hjudged, serve_calls_of_judged unicode cred hpermuted]
      exact ⟨houtline.symm, congrArg (identifyCalls server outcomes _ ++ ·) hcalls.symm⟩
    · rw [serve_congr_of_not_judged unicode cred hjudged]
      exact ⟨rfl, rfl⟩
  · intro name value hentry
    obtain ⟨_, _, hfound⟩ := delivers_of_entry unicode cred hentry
    exact last_binding_of_lookup hfound

/-- A binding for one variable of `node`. -/
def variableBinding (name value : GoString) : Binding where
  name := name
  selector := { binary := str "node" }
  secrets := [⟨name, value⟩]

def pairServer : Server :=
  { canaryServer with
    bindings := [variableBinding (str "TOKEN") (str "t"), variableBinding (str "KEY") (str "k")] }

theorem pairServer_unconflicted (caller : Caller) :
    Unconflicted (str "node") caller pairServer.bindings := by
  have hmem {binding : Binding}
      (hbinding : binding ∈ admitted (str "node") caller pairServer.bindings) :
      binding = variableBinding (str "TOKEN") (str "t") ∨
        binding = variableBinding (str "KEY") (str "k") :=
    List.mem_pair.1 (List.mem_filter.1 hbinding).1
  constructor
  · intro first hfirst second hsecond hne name hsupplies hother
    obtain ⟨secret, hsecret, rfl⟩ := hsupplies
    obtain ⟨other, hmember, hname⟩ := hother
    rcases hmem hfirst with rfl | rfl <;> rcases hmem hsecond with rfl | rfl
    · exact hne rfl
    · obtain rfl := List.mem_singleton.1 hsecret
      obtain rfl := List.mem_singleton.1 hmember
      exact absurd hname (by decide)
    · obtain rfl := List.mem_singleton.1 hsecret
      obtain rfl := List.mem_singleton.1 hmember
      exact absurd hname (by decide)
    · exact hne rfl
  · intro binding hbinding first hfirst second hsecond hname
    rcases hmem hbinding with rfl | rfl
    · rw [List.mem_singleton.1 hfirst, List.mem_singleton.1 hsecond]
    · rw [List.mem_singleton.1 hfirst, List.mem_singleton.1 hsecond]

theorem swapped_bindings_released :
    (serve Unicode.ascii { pairServer with bindings := pairServer.bindings.reverse }
        unlabelledOutcomes ⟨7⟩ ⟨str "node"⟩).2 =
      (serve Unicode.ascii pairServer unlabelledOutcomes ⟨7⟩ ⟨str "node"⟩).2 :=
  ((binding_order Unicode.ascii pairServer unlabelledOutcomes ⟨7⟩ ⟨str "node"⟩).1 _
    (List.reverse_perm _).symm (pairServer_unconflicted _)).2

end KernelSeal.Permutation

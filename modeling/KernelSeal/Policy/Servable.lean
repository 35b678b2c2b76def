import KernelSeal.Cgroup.Paths
import KernelSeal.Server.Delivery

/-!
# Bindings that load and can be served

`rejectionFor` is meant to say which bindings can serve no one.  A binding it lets
through is looked up by the base name of a request and by the path of a caller, and
neither of them takes every value a selector can be given.  The two gaps are
described exactly.
-/

namespace KernelSeal.Servable

open KernelSeal.Text
open KernelSeal.Registry
open KernelSeal.Segments
open KernelSeal.Attribution
open KernelSeal.CgroupPaths
open KernelSeal.Loader
open KernelSeal.Delivery

/-- The callers `Identify` can answer with under a mode. -/
def Producible (mode : PodIdentityMode) (caller : Caller) : Prop :=
  match mode with
  | .disabled => caller = {}
  | .preferred => ∃ path : CanonicalPath, caller.cgroupPath = path.text ∧
      caller.cgroupPathRelative = isRelative path.text
  | .required => (∃ path : CanonicalPath, caller.cgroupPath = path.text ∧
      caller.cgroupPathRelative = isRelative path.text) ∧ caller.pod.isSome

/-- Some request and some caller find the binding, were it the only one. -/
def CanServe (mode : PodIdentityMode) (binding : Binding) : Prop :=
  ∃ req caller, ¬ Unnamed req ∧ Producible mode caller ∧
    binding ∈ admitted (base req.binary) caller [binding]

/-- The base name of some request. -/
def Nameable (binary : GoString) : Prop :=
  binary = [] ∨ slash ∉ binary ∧ binary ≠ str "."

instance : DecidablePred Nameable := fun _ => inferInstanceAs (Decidable (_ ∨ _ ∧ _))

/-- The path of some caller, or one that a caller can be below. -/
def Reachable (cgroupPath : GoString) : Prop :=
  cgroupPath = [] ∨ ∃ path : CanonicalPath,
    trimSuffix cgroupPath (str "/") = path.text ∧ parent ∉ path.segments

/-! ## Requests -/

theorem not_unnamed_iff (req : Request) :
    ¬ Unnamed req ↔ req.binary ≠ [] ∧ base req.binary ≠ str "." ∧ base req.binary ≠ str "/" := by
  rw [Unnamed, not_or, not_or]

/-- The base names of requests. -/
theorem exists_base_iff {binary : GoString} (hbinary : binary ≠ []) :
    (∃ req, ¬ Unnamed req ∧ base req.binary = binary) ↔
      slash ∉ binary ∧ binary ≠ str "." := by
  constructor
  · rintro ⟨req, hnamed, rfl⟩
    obtain ⟨_, hdot, hroot⟩ := (not_unnamed_iff req).1 hnamed
    exact ⟨slash_notMem_base hroot, hdot⟩
  · rintro ⟨hslash, hdot⟩
    have hbase : base binary = binary := base_of_notMem hbinary hslash
    refine ⟨⟨binary⟩, (not_unnamed_iff _).2 ⟨hbinary, ?_, ?_⟩, hbase⟩
    · rwa [hbase]
    · rintro hroot
      rw [hbase] at hroot
      exact hslash (hroot ▸ by decide)

/-- A request that finds the binding by name exists exactly when the name is one. -/
theorem exists_candidate_iff (binding : Binding) :
    (∃ req, ¬ Unnamed req ∧ binding.Candidate (base req.binary)) ↔
      Nameable binding.selector.binary := by
  by_cases hbinary : binding.selector.binary = []
  · refine iff_of_true ⟨⟨str "sh"⟩, by decide, Or.inl hbinary⟩ (Or.inl hbinary)
  · simp only [Binding.Candidate, Nameable, hbinary, false_or]
    rw [← exists_base_iff hbinary]
    simp only [eq_comm]

/-! ## Callers -/

/-- A path at or below which a caller can be is a canonical one. -/
theorem exists_text_of_matches {want : GoString} {got : CanonicalPath}
    (hgot : parent ∉ got.segments) (hmatches : cgroupPathMatches want got.text) :
    ∃ path : CanonicalPath, trimSuffix want (str "/") = path.text ∧ parent ∉ path.segments := by
  obtain ⟨hne, heq | hbelow⟩ := hmatches
  · exact ⟨got, heq.symm, hgot⟩
  · obtain ⟨first, rest, hwant⟩ := List.exists_cons_of_ne_nil hne
    rw [hwant, show str "/" = [slash] by decide, CanonicalPath.text, List.cons_append,
      List.cons_prefix_cons] at hbelow
    obtain ⟨rfl, hbelow⟩ := hbelow
    have hterminated : rest ++ [slash] <+: terminated slash got.segments := by
      by_cases hroot : got.segments = []
      · have hnil := hbelow.length_le
        rw [hroot] at hnil
        simp [join] at hnil
      · rw [← intercalate_append hroot]
        exact hbelow.trans (List.prefix_append _ _)
    obtain ⟨front, hfront, htext⟩ := exists_terminated_of_prefix got.separator_notMem hterminated
    have hfront_ne : front ≠ [] := by
      rintro rfl
      simp [terminated] at htext
    refine ⟨⟨front, fun segment hsegment => got.clean segment (hfront.subset hsegment)⟩, ?_,
      fun hparent => hgot (hfront.subset hparent)⟩
    rw [← intercalate_append hfront_ne] at htext
    rw [hwant, CanonicalPath.text, List.append_cancel_right htext]
    rfl

/-- What `admits` asks of the path of a canonical caller. -/
theorem reachable_of_admits {selector : Selector} {caller : Caller} {path : CanonicalPath}
    (hpath : caller.cgroupPath = path.text)
    (hrelative : caller.cgroupPathRelative = isRelative path.text)
    (hadmits : (selector.admits caller).1 = true) : Reachable selector.cgroupPath := by
  by_cases hselector : selector.cgroupPath = []
  · exact Or.inl hselector
  · obtain ⟨habsolute, hmatches⟩ := ((admits_iff selector caller).1 hadmits).1 hselector
    have hsegments : parent ∉ path.segments := by
      rw [← CanonicalPath.isRelative_text, ← hrelative, habsolute]
      exact Bool.false_ne_true
    exact Or.inr (exists_text_of_matches hsegments (hpath ▸ hmatches))

theorem cgroupPathMatches_trimmed {want : GoString} {path : CanonicalPath}
    (hwant : trimSuffix want (str "/") = path.text) : cgroupPathMatches want path.text := by
  rw [cgroupPathMatches, hwant]
  exact ⟨List.cons_ne_nil _ _, Or.inl rfl⟩

/-- A pod made to measure. -/
def podFor (selector : Selector) : Pod where
  uid := str "uid"
  name := str "pod"
  namespaceName := selector.namespaceName
  labels := selector.labels
  containers := Finmap.singleton (str "c") selector.container

/-- A caller at a path, in a pod made to measure. -/
def callerFor (selector : Selector) (path : CanonicalPath) : Caller where
  cgroupPath := path.text
  cgroupPathRelative := isRelative path.text
  containerID := str "c"
  pod := some (podFor selector)

/-- Only the path of a selector can be impossible to satisfy. -/
theorem callerFor_admitted {selector : Selector} {path : CanonicalPath}
    (hpath : selector.cgroupPath ≠ [] →
      trimSuffix selector.cgroupPath (str "/") = path.text ∧ parent ∉ path.segments) :
    (selector.admits (callerFor selector path)).1 = true := by
  rw [admits_iff]
  refine ⟨fun hselector => ⟨?_, ?_⟩, fun _ => ⟨_, rfl, rfl⟩, fun key value hvalue => ?_,
    fun _ => ⟨by simp [callerFor, str], _, rfl, ?_⟩⟩
  · rw [callerFor, Bool.eq_false_iff, Ne, CanonicalPath.isRelative_text]
    exact (hpath hselector).2
  · exact cgroupPathMatches_trimmed (hpath hselector).1
  · exact ⟨_, rfl, index_eq_of_lookup hvalue⟩
  · exact index_eq_of_lookup (Finmap.lookup_singleton_eq)

theorem callerFor_producible (selector : Selector) (path : CanonicalPath)
    {mode : PodIdentityMode} (hmode : mode ≠ .disabled) :
    Producible mode (callerFor selector path) := by
  cases mode with
  | disabled => exact absurd rfl hmode
  | preferred => exact ⟨path, rfl, rfl⟩
  | required => exact ⟨⟨path, rfl, rfl⟩, rfl⟩

theorem path_of_producible {mode : PodIdentityMode} {caller : Caller} (hmode : mode ≠ .disabled)
    (hcaller : Producible mode caller) :
    ∃ path : CanonicalPath, caller.cgroupPath = path.text ∧
      caller.cgroupPathRelative = isRelative path.text := by
  cases mode with
  | disabled => exact absurd rfl hmode
  | preferred => exact hcaller
  | required => exact hcaller.1

/-- What is not rejected where callers are not identified names a binary only. -/
theorem not_podScoped_of_disabled {selector : Selector}
    (hservable : rejectionFor selector .disabled = []) : ¬ selector.IsPodScoped := by
  intro hscoped
  rw [rejectionFor.eq_def] at hservable
  split_ifs at hservable <;> exact absurd hservable (by decide)

/-- A caller that the selector admits exists exactly when the path can be reached. -/
theorem exists_admits_iff {selector : Selector} {mode : PodIdentityMode}
    (hservable : rejectionFor selector mode = []) :
    (∃ caller, Producible mode caller ∧ (selector.admits caller).1 = true) ↔
      Reachable selector.cgroupPath := by
  by_cases hmode : mode = .disabled
  · subst hmode
    have hscoped := not_podScoped_of_disabled hservable
    simp only [Selector.IsPodScoped, not_or, not_not] at hscoped
    obtain ⟨hcontainer, hnamespace, hpath, hlabels⟩ := hscoped
    refine iff_of_true ⟨{}, rfl, (admits_iff _ _).2 ?_⟩ (Or.inl hpath)
    simp [hcontainer, hnamespace, hpath, hlabels]
  · constructor
    · rintro ⟨caller, hcaller, hadmits⟩
      obtain ⟨path, hpath, hrelative⟩ := path_of_producible hmode hcaller
      exact reachable_of_admits hpath hrelative hadmits
    · rintro (hpath | ⟨path, hpath⟩)
      · exact ⟨_, callerFor_producible selector ⟨[], by simp⟩ hmode,
          callerFor_admitted fun hselector => absurd hpath hselector⟩
      · exact ⟨_, callerFor_producible selector path hmode, callerFor_admitted fun _ => hpath⟩

/-! ## Completeness -/

/-- A loaded binding that was not rejected can serve someone exactly when its
binary is a base name and its path is one that a caller can be at or below. -/
theorem canServe_iff_of_not_rejected (mode : PodIdentityMode) (binding : Binding)
    (hloaded : binding.rejected = rejectionFor binding.selector mode)
    (hservable : rejectionFor binding.selector mode = []) :
    CanServe mode binding ↔
      Nameable binding.selector.binary ∧ Reachable binding.selector.cgroupPath := by
  rw [← exists_candidate_iff, ← exists_admits_iff hservable]
  have hadmitted (binaryName : GoString) (caller : Caller) :
      binding ∈ admitted binaryName caller [binding] ↔
        binding.Candidate binaryName ∧ (binding.selector.admits caller).1 = true := by
    simp [admitted, Binding.Admitted, hloaded, hservable]
  simp only [CanServe, hadmitted]
  constructor
  · rintro ⟨req, caller, hnamed, hcaller, hcandidate, hadmits⟩
    exact ⟨⟨req, hnamed, hcandidate⟩, caller, hcaller, hadmits⟩
  · rintro ⟨⟨req, hnamed, hcandidate⟩, caller, hcaller, hadmits⟩
    exact ⟨req, caller, hnamed, hcaller, hcandidate, hadmits⟩

/-- A binding selected by the name of a binary, as the loader hands it over. -/
def namedBinding (binary : GoString) : Binding where
  name := str "checkout"
  selector := { binary }
  secrets := [⟨str "TOKEN", str "t"⟩]
  rejected := rejectionFor { binary } .preferred

theorem base_name_can_serve : CanServe .preferred (namedBinding (str "node")) :=
  (canServe_iff_of_not_rejected .preferred (namedBinding (str "node")) rfl (by decide)).2
    ⟨by decide, Or.inl rfl⟩

/-- A binary given by its path is accepted when it is loaded, and every request
for it finds nothing configured. -/
theorem full_path_binary_never_served :
    rejectionFor (namedBinding (str "/usr/bin/node")).selector .preferred = [] ∧
      (∀ req caller, ¬ Unnamed req →
        (lookup [namedBinding (str "/usr/bin/node")] (base req.binary) caller).Empty) ∧
      ¬ CanServe .preferred (namedBinding (str "/usr/bin/node")) := by
  have hcandidate (req : Request) (hnamed : ¬ Unnamed req) :
      ¬ (namedBinding (str "/usr/bin/node")).Candidate (base req.binary) := fun hcandidate =>
    absurd ((exists_candidate_iff _).1 ⟨req, hnamed, hcandidate⟩) (by decide)
  refine ⟨by decide, fun req caller hnamed => ?_, ?_⟩
  · rw [lookup, List.foldl_cons, List.foldl_nil,
      visit_of_not_candidate _ _ _ (hcandidate req hnamed)]
    decide
  · rintro ⟨req, caller, hnamed, -, hadmitted⟩
    exact hcandidate req hnamed (of_decide_eq_true (List.mem_filter.1 hadmitted).2).1

end KernelSeal.Servable

import KernelSeal.Core.Segments
import KernelSeal.Cgroup.Attribution
import KernelSeal.Policy.Loader

/-!
# Selecting on a cgroup path

`cgroupPathMatches` compares strings.  On canonical paths it compares lists of
segments: a selected path admits itself and what lies below it, and nothing whose
name merely starts in the same way.  A path that the kernel gives relative to
another cgroup namespace is never compared.
-/

namespace KernelSeal.CgroupPaths

open KernelSeal.Text
open KernelSeal.Registry
open KernelSeal.Segments
open KernelSeal.ParsePod
open KernelSeal.Attribution
open KernelSeal.Kube
open KernelSeal.Loader

/-! ## Canonical paths -/

/-- A path by its segments; the root has none. -/
structure CanonicalPath where
  segments : List GoString
  clean : ∀ segment ∈ segments, segment ≠ [] ∧ slash ∉ segment

/-- A slash and the segments joined by single slashes. -/
def CanonicalPath.text (path : CanonicalPath) : GoString := slash :: join path.segments [slash]

/-- `".."`, which the kernel writes for the parent of a namespace root. -/
def parent : GoString := str ".."

section Trim

theorem trimSuffix_append (text : GoString) : trimSuffix (text ++ [slash]) (str "/") = text := by
  rw [show str "/" = [slash] by decide, trimSuffix, if_pos (List.suffix_append text [slash])]
  simp

theorem trimSuffix_of_not_suffix {text : GoString} (htext : ¬ [slash] <:+ text) :
    trimSuffix text (str "/") = text := by
  rw [show str "/" = [slash] by decide, trimSuffix, if_neg htext]

end Trim

namespace CanonicalPath

variable (path : CanonicalPath)

theorem separator_notMem : ∀ segment ∈ path.segments, slash ∉ segment :=
  fun segment hsegment => (path.clean segment hsegment).2

/-- Only the root ends in a slash. -/
theorem not_suffix_text (hroot : path.segments ≠ []) : ¬ [slash] <:+ path.text := by
  intro hsuffix
  obtain ⟨first, rest, hsegments⟩ := List.exists_cons_of_ne_nil hroot
  have hlength : 1 ≤ (join path.segments [slash]).length := by
    have hfirst := (path.clean first (hsegments ▸ List.mem_cons_self)).1
    rw [Nat.one_le_iff_ne_zero, Ne, List.length_eq_zero_iff, join, hsegments]
    cases rest <;> simp [List.intercalate_cons_cons, hfirst]
  exact not_suffix_intercalate path.clean
    (List.suffix_of_suffix_length_le hsuffix (List.suffix_cons _ _) hlength)

theorem split_text (hroot : path.segments ≠ []) : split path.text slash = [] :: path.segments := by
  have hjoin : path.text = join ([] :: path.segments) [slash] := by
    obtain ⟨first, rest, hsegments⟩ := List.exists_cons_of_ne_nil hroot
    rw [text, join, join, hsegments, List.intercalate_cons_cons]
    rfl
  rw [hjoin, split_join (List.cons_ne_nil _ _)]
  exact List.forall_mem_cons.2 ⟨List.not_mem_nil, path.separator_notMem⟩

theorem text_of_root (hroot : path.segments = []) : path.text = str "/" := by
  rw [text, hroot]
  decide

/-- The path is relative exactly when a segment says so. -/
theorem isRelative_text : isRelative path.text = true ↔ parent ∈ path.segments := by
  by_cases hroot : path.segments = []
  · rw [path.text_of_root hroot, hroot]
    decide
  · rw [isRelative, path.split_text hroot]
    simp [parent, show ([] : GoString) ≠ str ".." by decide]

end CanonicalPath

/-! ## Matching -/

/-- Whole segments are compared. -/
theorem matches_text_iff (want got : CanonicalPath) (hroot : want.segments ≠ []) :
    (want.text ≠ [] ∧ (got.text = want.text ∨ want.text ++ str "/" <+: got.text)) ↔
      want.segments <+: got.segments := by
  rw [show str "/" = [slash] by decide, CanonicalPath.text, CanonicalPath.text, List.cons.injEq,
    List.cons_append, List.cons_prefix_cons]
  simp only [ne_eq, reduceCtorEq, not_false_eq_true, true_and]
  exact intercalate_matches_iff want.clean got.clean hroot

theorem cgroupPathMatches_iff (want got : CanonicalPath) (hroot : want.segments ≠ [])
    {trailing : GoString} (htrailing : trailing ∈ [[], str "/"]) :
    cgroupPathMatches (want.text ++ trailing) got.text ↔ want.segments <+: got.segments := by
  have htrim : trimSuffix (want.text ++ trailing) (str "/") = want.text := by
    rcases List.mem_pair.1 htrailing with rfl | rfl
    · rw [List.append_nil]
      exact trimSuffix_of_not_suffix (want.not_suffix_text hroot)
    · exact trimSuffix_append want.text
  rw [cgroupPathMatches, htrim]
  exact matches_text_iff want got hroot

theorem not_matches_of_trimmed {want : GoString} (hwant : trimSuffix want (str "/") = [])
    (got : GoString) : ¬ cgroupPathMatches want got :=
  fun hmatches => hmatches.1 hwant

/-- Selecting the root is reported. -/
theorem rejectionFor_root {selector : Selector} (hroot : selector.cgroupPath = str "/")
    (mode : PodIdentityMode) : rejectionFor selector mode = rootCgroupReason := by
  have hpath : selector.cgroupPath ≠ [] := by
    rw [hroot]
    decide
  have hscoped : selector.IsPodScoped := Or.inr (Or.inr (Or.inl hpath))
  have htrimmed : trimSuffix (trimSpace selector.cgroupPath) (str "/") = [] := by
    rw [hroot]
    decide
  rw [rejectionFor.eq_def, if_neg fun hnothing => hnothing.2 hscoped, if_pos ⟨hpath, htrimmed⟩]

/-- The caller says of its path whether it is relative, as `Resolve` does. -/
theorem relative_identify (unicode : Unicode) (resolver : Resolver) (pid : UInt32)
    (pods : Option Watcher) :
    (identify unicode resolver pid pods).1.cgroupPathRelative =
      isRelative (identify unicode resolver pid pods).1.cgroupPath := by
  have hlookup (identity : Identity) (hidentity : identity.relative = isRelative identity.path) :
      (lookupPod pid pods identity).1.cgroupPathRelative =
        isRelative (lookupPod pid pods identity).1.cgroupPath := by
    obtain ⟨pod, hcaller⟩ := exists_lookupPod_eq pid pods identity
    rw [hcaller]
    exact hidentity
  rw [identify, resolve]
  cases pathFor resolver pid with
  | error err =>
      dsimp only
      decide
  | ok path =>
      dsimp only
      cases resolver.idFor path with
      | error err => exact hlookup _ rfl
      | ok id => exact hlookup _ rfl

/-- A relative path satisfies no selector on a path. -/
theorem not_admits_of_relative {selector : Selector} {caller : Caller}
    (hselector : selector.cgroupPath ≠ []) (hrelative : caller.cgroupPathRelative = true) :
    (selector.admits caller).1 = false := by
  rw [Selector.admits, if_pos ⟨hselector, hrelative⟩]

/-- A selected path is compared by whole segments with the path of the caller, the
root is neither matched nor served, and no relative path is matched at all. -/
theorem cgroupPath_by_segments (unicode : Unicode) :
    (∀ want got : CanonicalPath, want.segments ≠ [] → ∀ trailing ∈ [[], str "/"],
      (cgroupPathMatches (want.text ++ trailing) got.text ↔ want.segments <+: got.segments)) ∧
    (∀ want ∈ [[], str "/"], ∀ got, ¬ cgroupPathMatches want got) ∧
    (∀ (selector : Selector) (mode : PodIdentityMode), selector.cgroupPath = str "/" →
      rejectionFor selector mode ≠ []) ∧
    (∀ (resolver : Resolver) (pid : UInt32) (pods : Option Watcher) (selector : Selector),
      selector.cgroupPath ≠ [] →
      parent ∈ split (identify unicode resolver pid pods).1.cgroupPath slash →
      (selector.admits (identify unicode resolver pid pods).1).1 = false) := by
  refine ⟨fun want got hroot trailing => cgroupPathMatches_iff want got hroot, ?_, ?_, ?_⟩
  · intro want hwant
    refine not_matches_of_trimmed ?_
    rcases List.mem_pair.1 hwant with rfl | rfl <;> decide
  · intro selector mode hroot
    rw [rejectionFor_root hroot]
    decide
  · intro resolver pid pods selector hselector hparent
    refine not_admits_of_relative hselector ?_
    rw [relative_identify, isRelative, List.any_eq_true]
    exact ⟨parent, hparent, decide_eq_true rfl⟩

/-- The slice of a service. -/
def slicePath : CanonicalPath := ⟨[str "system.slice"], by decide⟩

/-- A slice of another name that starts in the same way. -/
def siblingPath : CanonicalPath := ⟨[str "system.slice-other", str "app.service"], by decide⟩

theorem sibling_slice_refused :
    ¬ cgroupPathMatches (slicePath.text ++ str "/") siblingPath.text := by
  rw [(cgroupPath_by_segments Unicode.ascii).1 slicePath siblingPath (by decide) _ (by decide)]
  decide

end KernelSeal.CgroupPaths

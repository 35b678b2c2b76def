import Mathlib.Data.List.Infix

/-!
# Segments

A text is cut into segments at a separator.  A prefix of the text that ends at a
separator is a prefix of the list of its segments, so comparing texts up to a
separator compares whole segments.
-/

namespace KernelSeal.Segments

variable {α : Type*} {separator : α} {segments left right : List (List α)}

/-- The segments with a separator after each. -/
def terminated (separator : α) (segments : List (List α)) : List α :=
  segments.flatMap (· ++ [separator])

theorem terminated_cons (segment : List α) (segments : List (List α)) :
    terminated separator (segment :: segments) =
      segment ++ separator :: terminated separator segments := by
  simp [terminated]

/-- Joining leaves out the last separator. -/
theorem intercalate_append (hsegments : segments ≠ []) :
    [separator].intercalate segments ++ [separator] = terminated separator segments := by
  induction segments with
  | nil => exact absurd rfl hsegments
  | cons segment rest ih =>
      cases rest with
      | nil => simp [terminated]
      | cons next rest =>
          rw [List.intercalate_cons_cons, List.append_assoc, ih (List.cons_ne_nil next rest),
            terminated_cons segment]
          simp

/-- The text before the first separator is determined. -/
theorem separator_prefix_iff {first second rest more : List α} (hfirst : separator ∉ first)
    (hsecond : separator ∉ second) :
    first ++ separator :: rest <+: second ++ separator :: more ↔
      first = second ∧ rest <+: more := by
  induction first generalizing second with
  | nil =>
      cases second with
      | nil => simp [List.cons_prefix_cons]
      | cons letter second =>
          have hne : separator ≠ letter := fun hsame => hsecond (hsame ▸ List.mem_cons_self)
          simp [List.cons_prefix_cons, hne]
  | cons letter first ih =>
      rw [List.mem_cons, not_or] at hfirst
      cases second with
      | nil => simp [List.cons_prefix_cons, Ne.symm hfirst.1]
      | cons other second =>
          rw [List.mem_cons, not_or] at hsecond
          rw [List.cons_append, List.cons_append, List.cons_prefix_cons, ih hfirst.2 hsecond.2,
            List.cons.injEq, and_assoc]

theorem terminated_prefix_iff (hleft : ∀ segment ∈ left, separator ∉ segment)
    (hright : ∀ segment ∈ right, separator ∉ segment) :
    terminated separator left <+: terminated separator right ↔ left <+: right := by
  induction left generalizing right with
  | nil => simp [terminated]
  | cons first left ih =>
      obtain ⟨hfirst, hleft⟩ := List.forall_mem_cons.1 hleft
      cases right with
      | nil => simp [terminated]
      | cons second right =>
          obtain ⟨hsecond, hright⟩ := List.forall_mem_cons.1 hright
          rw [terminated_cons, terminated_cons, separator_prefix_iff hfirst hsecond,
            ih hleft hright, List.cons_prefix_cons]

/-- A prefix that ends at a separator consists of whole segments. -/
theorem exists_terminated_of_prefix {text : List α}
    (hsegments : ∀ segment ∈ segments, separator ∉ segment)
    (htext : text ++ [separator] <+: terminated separator segments) :
    ∃ front, front <+: segments ∧ text ++ [separator] = terminated separator front := by
  induction segments generalizing text with
  | nil => simp [terminated] at htext
  | cons first rest ih =>
      obtain ⟨hfirst, hrest⟩ := List.forall_mem_cons.1 hsegments
      have hcut : first ++ [separator] <+: terminated separator (first :: rest) :=
        ⟨terminated separator rest, by simp [terminated_cons]⟩
      rcases List.prefix_or_prefix_of_prefix htext hcut with hshort | ⟨after, hafter⟩
      · -- The text ends within the first segment, so it is the first segment.
        rcases List.prefix_concat_iff.1 hshort with hsame | hinside
        · exact ⟨[first], by simp, by simpa [terminated] using hsame⟩
        · exact absurd (hinside.subset (by simp)) hfirst
      · rw [← hafter, terminated_cons, List.append_assoc, List.prefix_append_right_inj,
          List.singleton_append, List.cons_prefix_cons] at htext
        rcases List.eq_nil_or_concat' after with rfl | ⟨shorter, last, rfl⟩
        · exact ⟨[first], by simp, by simpa [terminated] using hafter.symm⟩
        · rw [← List.append_assoc] at hafter
          obtain rfl : last = separator := List.singleton_inj.1 (List.append_inj' hafter rfl).2
          obtain ⟨front, hfront, heq⟩ := ih hrest htext.2
          refine ⟨first :: front, List.cons_prefix_cons.2 ⟨rfl, hfront⟩, ?_⟩
          rw [terminated_cons, ← heq, ← hafter]
          simp

/-- A join of non-empty segments does not end in a separator. -/
theorem not_suffix_intercalate
    (hsegments : ∀ segment ∈ segments, segment ≠ [] ∧ separator ∉ segment) :
    ¬ [separator] <:+ [separator].intercalate segments := by
  induction segments with
  | nil => simp
  | cons first rest ih =>
      obtain ⟨⟨_, hfirst⟩, hrest⟩ := List.forall_mem_cons.1 hsegments
      cases rest with
      | nil =>
          rw [List.intercalate_singleton]
          intro hsuffix
          exact hfirst (hsuffix.subset List.mem_cons_self)
      | cons next rest =>
          obtain ⟨⟨hnext, _⟩, _⟩ := List.forall_mem_cons.1 hrest
          have hlength : 1 ≤ ([separator].intercalate (next :: rest)).length := by
            rw [Nat.one_le_iff_ne_zero, Ne, List.length_eq_zero_iff]
            cases rest <;> simp [List.intercalate_cons_cons, hnext]
          rw [List.intercalate_cons_cons]
          intro hsuffix
          exact ih hrest (List.suffix_of_suffix_length_le hsuffix (List.suffix_append _ _) hlength)

/-- Being equal to a join, or continuing it after a separator, is having its segments
first. -/
theorem intercalate_matches_iff (hleft : ∀ segment ∈ left, segment ≠ [] ∧ separator ∉ segment)
    (hright : ∀ segment ∈ right, segment ≠ [] ∧ separator ∉ segment) (hnonempty : left ≠ []) :
    [separator].intercalate right = [separator].intercalate left ∨
        [separator].intercalate left ++ [separator] <+: [separator].intercalate right ↔
      left <+: right := by
  cases right with
  | nil =>
      obtain ⟨first, rest, rfl⟩ := List.exists_cons_of_ne_nil hnonempty
      obtain ⟨⟨hfirst, _⟩, _⟩ := List.forall_mem_cons.1 hleft
      cases rest <;> simp [List.intercalate_cons_cons, Ne.symm hfirst]
  | cons first rest =>
      rw [← terminated_prefix_iff (fun segment hsegment => (hleft segment hsegment).2)
        (fun segment hsegment => (hright segment hsegment).2), ← intercalate_append hnonempty,
        ← intercalate_append (List.cons_ne_nil first rest), List.prefix_concat_iff,
        List.append_left_inj, eq_comm]

end KernelSeal.Segments

import KernelSeal.Shim.Request

/-!
# The environment of the target

The shim executes its target with the inherited environment, in which the secrets
that the agent has issued replace the variables of their names.  An environment is a
list of texts that need not be assignments and may assign a name more than once; which
one then counts differs between C libraries.  The results here are therefore about
all assignments of a name, not about the first or the last.
-/

namespace KernelSeal.Shim

open KernelSeal.Text
open KernelSeal.Utf8
open KernelSeal.Delivery

/-! ## Merging -/

/-- The byte between a name and its value. -/
def equals : Byte := 61

/-- An order in which a `range` loop visits the names of a map. -/
structure Iteration (entries : StringMap) where
  names : List GoString
  nodup : names.Nodup
  mem_iff : ∀ name, name ∈ names ↔ name ∈ entries

/-- `name+"="+value`. -/
def assignment (name value : GoString) : GoString := name ++ equals :: value

/-- The test of the first loop of `mergeEnv`: the entry assigns a name of the overlay. -/
def shadowed (overlay : StringMap) (kv : GoString) : Bool :=
  match cut kv equals with
  | (name, _, true) => (overlay.lookup name).isSome
  | (_, _, false) => false

/-- What the second loop of `mergeEnv` appends. -/
def Iteration.assignments {overlay : StringMap} (order : Iteration overlay) : List GoString :=
  order.names.map fun name => assignment name (overlay.index name)

/-- `mergeEnv`. -/
def mergeEnv (base : List GoString) (overlay : StringMap) (order : Iteration overlay) :
    List GoString :=
  if overlay = ∅ then base
  else (base.filter fun kv => !shadowed overlay kv) ++ order.assignments

/-! ## What an environment assigns -/

/-- The entry assigns the name: it is what stands before the first `=`. -/
def Assigns (kv name : GoString) : Prop := (cut kv equals).1 = name ∧ (cut kv equals).2.2 = true

instance (kv name : GoString) : Decidable (Assigns kv name) :=
  inferInstanceAs (Decidable (_ ∧ _))

/-- The entry assigns a name of the overlay. -/
def Overlaid (overlay : StringMap) (kv : GoString) : Prop := ∃ name ∈ overlay, Assigns kv name

/-- The values that an environment assigns to a name, in their order. -/
def values (env : List GoString) (name : GoString) : List GoString :=
  (env.filter fun kv => Assigns kv name).map fun kv => (cut kv equals).2.1

section Entries

variable {overlay : StringMap} {kv name : GoString}

theorem shadowed_iff : shadowed overlay kv = true ↔ Overlaid overlay kv := by
  rcases hcut : cut kv equals with ⟨name, value, found⟩
  cases found with
  | false => simp [shadowed, Overlaid, Assigns, hcut]
  | true => simp [shadowed, Overlaid, Assigns, hcut, Finmap.lookup_isSome]

instance : Decidable (Overlaid overlay kv) :=
  decidable_of_iff (shadowed overlay kv = true) shadowed_iff

theorem assigns_assignment_iff (hname : equals ∉ name) (value other : GoString) :
    Assigns (assignment name value) other ↔ name = other := by
  simp [Assigns, assignment, cut_append hname]

theorem overlaid_iff_of_assigns (hassigns : Assigns kv name) :
    Overlaid overlay kv ↔ name ∈ overlay := by
  constructor
  · rintro ⟨other, hother, hsame⟩
    rwa [← hassigns.1, hsame.1]
  · exact fun hname => ⟨name, hname, hassigns⟩

end Entries

/-! ## What the target inherits -/

section Merge

variable {overlay : StringMap} (base : List GoString) (order : Iteration overlay)

/-- An empty overlay is no special case: nothing is dropped and nothing added. -/
theorem mergeEnv_eq :
    mergeEnv base overlay order =
      (base.filter fun kv => ¬ Overlaid overlay kv) ++ order.assignments := by
  have hkept : (base.filter fun kv => ¬ Overlaid overlay kv) =
      base.filter fun kv => !shadowed overlay kv := by
    refine List.filter_congr fun kv _ => ?_
    simp [← shadowed_iff]
  rw [mergeEnv, hkept]
  split
  · rename_i hempty
    have hnames : order.names = [] := List.eq_nil_iff_forall_not_mem.2 fun name hname =>
      Finmap.notMem_empty (hempty ▸ (order.mem_iff name).1 hname)
    have hall : ∀ kv ∈ base, (!shadowed overlay kv) = true := by
      intro kv _
      rw [Bool.not_eq_true', Bool.eq_false_iff, Ne, shadowed_iff]
      rintro ⟨name, hname, _⟩
      exact Finmap.notMem_empty (hempty ▸ hname)
    rw [Iteration.assignments, hnames, List.filter_eq_self.2 hall, List.map_nil, List.append_nil]
  · rfl

variable (hnames : ∀ name ∈ overlay, equals ∉ name)

include hnames

theorem overlaid_of_mem_assignments {kv : GoString} (hkv : kv ∈ order.assignments) :
    Overlaid overlay kv := by
  obtain ⟨name, hname, rfl⟩ := List.mem_map.1 hkv
  have hmem := (order.mem_iff name).1 hname
  exact ⟨name, hmem, (assigns_assignment_iff (hnames name hmem) _ _).2 rfl⟩

/-- The entries that assign other names, or none, are inherited. -/
theorem filter_not_overlaid_mergeEnv :
    ((mergeEnv base overlay order).filter fun kv => ¬ Overlaid overlay kv) =
      base.filter fun kv => ¬ Overlaid overlay kv := by
  have hnone : (order.assignments.filter fun kv => ¬ Overlaid overlay kv) = [] :=
    List.filter_eq_nil_iff.2 fun kv hkv => by
      simpa using overlaid_of_mem_assignments order hnames hkv
  rw [mergeEnv_eq, List.filter_append, hnone, List.filter_filter, List.append_nil]
  simp only [Bool.and_self]

theorem filter_overlaid_mergeEnv :
    ((mergeEnv base overlay order).filter fun kv => Overlaid overlay kv) = order.assignments := by
  have hnone : ((base.filter fun kv => ¬ Overlaid overlay kv).filter
      fun kv => Overlaid overlay kv) = [] := by simp
  have hall : (order.assignments.filter fun kv => Overlaid overlay kv) = order.assignments :=
    List.filter_eq_self.2 fun kv hkv =>
      decide_eq_true (overlaid_of_mem_assignments order hnames hkv)
  rw [mergeEnv_eq, List.filter_append, hnone, hall, List.nil_append]

/-- The entries that assign a name: one if the overlay has it, and otherwise the
inherited ones. -/
theorem filter_assigns_mergeEnv (name : GoString) :
    (mergeEnv base overlay order).filter (fun kv => Assigns kv name) =
      if name ∈ overlay then [assignment name (overlay.index name)]
      else base.filter fun kv => Assigns kv name := by
  have hkept : ((base.filter fun kv => ¬ Overlaid overlay kv).filter fun kv => Assigns kv name) =
      if name ∈ overlay then [] else base.filter fun kv => Assigns kv name := by
    rw [List.filter_filter]
    split
    · rename_i hmem
      rw [List.filter_eq_nil_iff]
      intro kv _
      simpa using fun hassigns => (overlaid_iff_of_assigns hassigns).2 hmem
    · rename_i hmem
      refine List.filter_congr fun kv _ => ?_
      simpa using fun hassigns hover => hmem ((overlaid_iff_of_assigns hassigns).1 hover)
  have hadded : (order.assignments.filter fun kv => Assigns kv name) =
      (order.names.filter (· = name)).map fun name => assignment name (overlay.index name) := by
    rw [Iteration.assignments, List.filter_map]
    congr 1
    refine List.filter_congr fun other hother => ?_
    simp [assigns_assignment_iff (hnames other ((order.mem_iff other).1 hother))]
  rw [mergeEnv_eq, List.filter_append, hkept, hadded, List.filter_eq]
  by_cases hmem : name ∈ overlay
  · rw [if_pos hmem, if_pos hmem,
      List.count_eq_one_of_mem order.nodup ((order.mem_iff name).2 hmem)]
    rfl
  · rw [if_neg hmem, if_neg hmem,
      List.count_eq_zero_of_not_mem (mt (order.mem_iff name).1 hmem)]
    exact List.append_nil _

theorem values_mergeEnv (name : GoString) :
    values (mergeEnv base overlay order) name =
      if name ∈ overlay then [overlay.index name] else values base name := by
  rw [values, filter_assigns_mergeEnv base order hnames]
  split
  · rename_i hmem
    simp [assignment, cut_append (hnames name hmem)]
  · rfl

end Merge

/-- The overlay's names each occur in one entry, with their value.  The other entries
are the inherited ones as they stood, in front of them.  So a name has the value that
the overlay gives it, and otherwise the inherited ones. -/
theorem mergeEnv_overlays (base : List GoString) (overlay : StringMap)
    (order : Iteration overlay) (hnames : ∀ name ∈ overlay, equals ∉ name) :
    (∀ name value, overlay.lookup name = some value →
      (mergeEnv base overlay order).filter (fun kv => Assigns kv name) =
        [assignment name value]) ∧
    ((mergeEnv base overlay order).filter fun kv => ¬ Overlaid overlay kv) =
      (base.filter fun kv => ¬ Overlaid overlay kv) ∧
    mergeEnv base overlay order =
      ((mergeEnv base overlay order).filter fun kv => ¬ Overlaid overlay kv) ++
        (mergeEnv base overlay order).filter (fun kv => Overlaid overlay kv) ∧
    ∀ name, values (mergeEnv base overlay order) name =
      match overlay.lookup name with
      | some value => [value]
      | none => values base name := by
  have hothers := filter_not_overlaid_mergeEnv base order hnames
  refine ⟨fun name value hvalue => ?_, hothers, ?_, fun name => ?_⟩
  · have hmem : name ∈ overlay := Finmap.mem_of_lookup_eq_some hvalue
    rw [filter_assigns_mergeEnv base order hnames, if_pos hmem, StringMap.index, hvalue]
    rfl
  · rw [hothers, filter_overlaid_mergeEnv base order hnames, ← mergeEnv_eq]
  · rw [values_mergeEnv base order hnames]
    cases hlookup : overlay.lookup name with
    | none => exact if_neg (Finmap.lookup_eq_none.1 hlookup)
    | some value =>
        rw [if_pos (Finmap.mem_of_lookup_eq_some hlookup), StringMap.index, hlookup]
        rfl

/-- An environment that assigns a name twice and has an entry that assigns none. -/
def staleEnviron : List GoString :=
  [str "TOKEN=old", str "PATH=/bin", str "TOKEN", str "TOKEN=a=b"]

def tokenOverlay : StringMap := Finmap.singleton (str "TOKEN") (str "x=y")

def tokenOrder : Iteration tokenOverlay where
  names := [str "TOKEN"]
  nodup := List.nodup_singleton _
  mem_iff name := by simp [tokenOverlay]

theorem stale_token_replaced :
    (mergeEnv staleEnviron tokenOverlay tokenOrder).filter
        (fun kv => Assigns kv (str "TOKEN")) = [assignment (str "TOKEN") (str "x=y")] :=
  (mergeEnv_overlays staleEnviron tokenOverlay tokenOrder (by
    intro name hname
    rw [(Finmap.mem_singleton _ _ _).1 hname]
    decide +kernel)).1 (str "TOKEN") (str "x=y") Finmap.lookup_singleton_eq

example : mergeEnv staleEnviron tokenOverlay tokenOrder =
    [str "PATH=/bin", str "TOKEN", str "TOKEN=x=y"] := by decide +kernel

end KernelSeal.Shim

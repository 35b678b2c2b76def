import Mathlib.Data.List.Basic

/-!
# Regular expressions with a capture

Regular expressions over an arbitrary alphabet with anchors, one capturing group
and a preference between alternatives.  `run` enumerates the matches at a
position in order of preference, as a backtracking matcher finds them, and
`findSubmatch` takes the first match at the leftmost position that has one.
`Captures` says what a match is without enumerating anything.
-/

namespace KernelSeal

universe u

inductive Regex (α : Type u) where
  | empty
  | start
  | stop
  | set (accepts : α → Bool)
  | seq (first second : Regex α)
  | alt (preferred other : Regex α)
  | group (inner : Regex α)

namespace Regex

variable {α : Type u}

def opt (inner : Regex α) : Regex α := alt inner empty

def exactly : ℕ → Regex α → Regex α
  | 0, _ => empty
  | count + 1, inner => seq inner (exactly count inner)

/-- At most `count` repetitions, as many as possible preferred. -/
def atMost : ℕ → Regex α → Regex α
  | 0, _ => empty
  | count + 1, inner => alt (seq inner (atMost count inner)) empty

/-- The repetition `{low,high}`. -/
def between (low high : ℕ) (inner : Regex α) : Regex α :=
  seq (exactly low inner) (atMost (high - low) inner)

section Literal

variable [DecidableEq α]

def literal : List α → Regex α
  | [] => empty
  | letter :: word => seq (set (· = letter)) (literal word)

end Literal

/-! ## Matching -/

/-- The matched words at a position with what the group captured, in order of
preference.  `front` is the text before the position and `rest` the text after
it. -/
def run : Regex α → (front rest : List α) → List (List α × Option (List α))
  | empty, _, _ => [([], none)]
  | start, front, _ => if front.isEmpty then [([], none)] else []
  | stop, _, rest => if rest.isEmpty then [([], none)] else []
  | set accepts, _, rest =>
      match rest with
      | [] => []
      | letter :: _ => if accepts letter then [([letter], none)] else []
  | seq first second, front, rest =>
      (first.run front rest).flatMap fun left =>
        (second.run (front ++ left.1) (rest.drop left.1.length)).map fun right =>
          (left.1 ++ right.1, right.2.or left.2)
  | alt preferred other, front, rest => preferred.run front rest ++ other.run front rest
  | group inner, front, rest => (inner.run front rest).map fun found => (found.1, some found.1)

/-- The capture of the first match at the leftmost position that has one. -/
def search (regex : Regex α) : (front rest : List α) → Option (Option (List α))
  | front, [] => (regex.run front []).head?.map Prod.snd
  | front, letter :: rest =>
      ((regex.run front (letter :: rest)).head?.map Prod.snd).or
        (regex.search (front ++ [letter]) rest)

/-- The captured text, empty if the group took no part in the match. -/
def findSubmatch (regex : Regex α) (text : List α) : Option (List α) :=
  (regex.search [] text).map fun captured => captured.getD []

/-! ## Meaning -/

/-- Between `front` and `back` the expression matches `word` and captures
`captured`. -/
def Captures : Regex α → (front word back : List α) → Option (List α) → Prop
  | empty, _, word, _, captured => word = [] ∧ captured = none
  | start, front, word, _, captured => front = [] ∧ word = [] ∧ captured = none
  | stop, _, word, back, captured => back = [] ∧ word = [] ∧ captured = none
  | set accepts, _, word, _, captured =>
      ∃ letter, accepts letter = true ∧ word = [letter] ∧ captured = none
  | seq first second, front, word, back, captured =>
      ∃ left right leftCaptured rightCaptured, word = left ++ right ∧
        first.Captures front left (right ++ back) leftCaptured ∧
        second.Captures (front ++ left) right back rightCaptured ∧
        captured = rightCaptured.or leftCaptured
  | alt preferred other, front, word, back, captured =>
      preferred.Captures front word back captured ∨ other.Captures front word back captured
  | group inner, front, word, back, captured =>
      (∃ nested, inner.Captures front word back nested) ∧ captured = some word

/-- The matcher finds exactly the matches. -/
theorem mem_run_iff {regex : Regex α} {front rest word : List α} {captured : Option (List α)} :
    (word, captured) ∈ regex.run front rest ↔
      ∃ back, rest = word ++ back ∧ regex.Captures front word back captured := by
  induction regex generalizing front rest word captured with
  | empty =>
      rw [run, List.mem_singleton, Prod.mk.injEq]
      constructor
      · rintro ⟨rfl, rfl⟩
        exact ⟨rest, rfl, rfl, rfl⟩
      · rintro ⟨back, _, hword, hcaptured⟩
        exact ⟨hword, hcaptured⟩
  | start =>
      cases front with
      | nil =>
          simp only [run, List.isEmpty_nil, if_true, List.mem_singleton, Prod.mk.injEq]
          constructor
          · rintro ⟨rfl, rfl⟩
            exact ⟨rest, rfl, rfl, rfl, rfl⟩
          · rintro ⟨back, _, _, hword, hcaptured⟩
            exact ⟨hword, hcaptured⟩
      | cons letter front => simp [run, Captures]
  | stop =>
      cases rest with
      | nil =>
          simp only [run, List.isEmpty_nil, if_true, List.mem_singleton, Prod.mk.injEq]
          constructor
          · rintro ⟨rfl, rfl⟩
            exact ⟨[], rfl, rfl, rfl, rfl⟩
          · rintro ⟨back, _, _, hword, hcaptured⟩
            exact ⟨hword, hcaptured⟩
      | cons letter rest =>
          simp only [run, List.isEmpty_cons, Bool.false_eq_true, if_false, List.not_mem_nil,
            false_iff]
          rintro ⟨back, hrest, rfl, rfl, _⟩
          cases hrest
  | set accepts =>
      cases rest with
      | nil =>
          simp only [run, List.not_mem_nil, false_iff]
          rintro ⟨back, hrest, letter, _, rfl, _⟩
          cases hrest
      | cons letter rest =>
          by_cases haccepts : accepts letter = true
          · simp only [run, haccepts, if_true, List.mem_singleton, Prod.mk.injEq]
            constructor
            · rintro ⟨rfl, rfl⟩
              exact ⟨rest, rfl, letter, haccepts, rfl, rfl⟩
            · rintro ⟨back, hrest, other, _, rfl, rfl⟩
              cases hrest
              exact ⟨rfl, rfl⟩
          · simp only [run, haccepts, Bool.false_eq_true, if_false, List.not_mem_nil, false_iff]
            rintro ⟨back, hrest, other, hother, rfl, _⟩
            cases hrest
            exact haccepts hother
  | seq first second ihFirst ihSecond =>
      simp only [run, List.mem_flatMap, List.mem_map, Prod.exists, Prod.mk.injEq, Captures]
      constructor
      · rintro ⟨left, leftCaptured, hleft, right, rightCaptured, hright, rfl, rfl⟩
        obtain ⟨afterLeft, rfl, hfirst⟩ := ihFirst.1 hleft
        rw [List.drop_left] at hright
        obtain ⟨back, rfl, hsecond⟩ := ihSecond.1 hright
        exact ⟨back, (List.append_assoc _ _ _).symm, left, right, leftCaptured, rightCaptured,
          rfl, hfirst, hsecond, rfl⟩
      · rintro ⟨back, rfl, left, right, leftCaptured, rightCaptured, rfl, hfirst, hsecond, rfl⟩
        refine ⟨left, leftCaptured, ihFirst.2 ⟨right ++ back, List.append_assoc _ _ _, hfirst⟩,
          right, rightCaptured, ?_, rfl, rfl⟩
        rw [List.append_assoc, List.drop_left]
        exact ihSecond.2 ⟨back, rfl, hsecond⟩
  | alt preferred other ihPreferred ihOther =>
      simp only [run, List.mem_append, ihPreferred, ihOther, Captures, and_or_left, exists_or]
  | group inner ih =>
      simp only [run, List.mem_map, Prod.exists, Prod.mk.injEq, Captures]
      constructor
      · rintro ⟨found, nested, hfound, rfl, rfl⟩
        obtain ⟨back, hrest, hinner⟩ := ih.1 hfound
        exact ⟨back, hrest, ⟨nested, hinner⟩, rfl⟩
      · rintro ⟨back, hrest, ⟨nested, hinner⟩, rfl⟩
        exact ⟨word, nested, ih.2 ⟨back, hrest, hinner⟩, rfl, rfl⟩

/-! ## Derived forms -/

section Derived

variable {front word back : List α} {captured : Option (List α)}

theorem captures_opt_iff {inner : Regex α} :
    (opt inner).Captures front word back captured ↔
      inner.Captures front word back captured ∨ (word = [] ∧ captured = none) := by
  rw [opt, Captures, Captures]

theorem captures_set_iff {accepts : α → Bool} :
    (set accepts).Captures front word back captured ↔
      ∃ letter, accepts letter = true ∧ word = [letter] ∧ captured = none := by
  rw [Captures]

/-- A sequence whose first part captures nothing captures what its second part
does. -/
theorem captures_seq_iff {first second : Regex α} (Language : List α → List α → Prop)
    (hfirst : ∀ front word back captured, first.Captures front word back captured ↔
      Language front word ∧ captured = none) :
    (seq first second).Captures front word back captured ↔
      ∃ left right, word = left ++ right ∧ Language front left ∧
        second.Captures (front ++ left) right back captured := by
  rw [Captures]
  constructor
  · rintro ⟨left, right, leftCaptured, rightCaptured, rfl, hleft, hright, rfl⟩
    obtain ⟨hlanguage, rfl⟩ := (hfirst _ _ _ _).1 hleft
    rw [Option.or_none]
    exact ⟨left, right, rfl, hlanguage, hright⟩
  · rintro ⟨left, right, rfl, hlanguage, hright⟩
    exact ⟨left, right, none, captured, rfl, (hfirst _ _ _ _).2 ⟨hlanguage, rfl⟩, hright,
      (Option.or_none).symm⟩

/-- A group followed by a part that captures nothing captures what it
matched. -/
theorem captures_group_seq_iff {inner second : Regex α} (Tail : List α → List α → Prop)
    (hsecond : ∀ front word back captured, second.Captures front word back captured ↔
      Tail word back ∧ captured = none) :
    (seq (group inner) second).Captures front word back captured ↔
      ∃ left right, word = left ++ right ∧
        (∃ nested, inner.Captures front left (right ++ back) nested) ∧ Tail right back ∧
        captured = some left := by
  rw [Captures]
  constructor
  · rintro ⟨left, right, _, rightCaptured, rfl, ⟨hinner, rfl⟩, hright, rfl⟩
    obtain ⟨htail, rfl⟩ := (hsecond _ _ _ _).1 hright
    exact ⟨left, right, rfl, hinner, htail, rfl⟩
  · rintro ⟨left, right, rfl, hinner, htail, rfl⟩
    exact ⟨left, right, some left, none, rfl, ⟨hinner, rfl⟩,
      (hsecond _ _ _ _).2 ⟨htail, rfl⟩, rfl⟩

theorem captures_literal_iff [DecidableEq α] {letters : List α} :
    (literal letters).Captures front word back captured ↔ word = letters ∧ captured = none := by
  induction letters generalizing front word with
  | nil => rw [literal, Captures]
  | cons letter letters ih =>
      rw [literal, captures_seq_iff fun _ word => word = [letter]]
      · simp only [ih]
        constructor
        · rintro ⟨left, right, rfl, rfl, rfl, hcaptured⟩
          exact ⟨rfl, hcaptured⟩
        · rintro ⟨rfl, hcaptured⟩
          exact ⟨[letter], letters, rfl, rfl, rfl, hcaptured⟩
      · intro front word back captured
        simp only [captures_set_iff, decide_eq_true_eq, exists_eq_left]

/-- An optional ending, up to the end of the text. -/
theorem captures_opt_literal_stop_iff [DecidableEq α] {letters : List α} :
    (seq (opt (literal letters)) stop).Captures front word back captured ↔
      ((word = [] ∨ word = letters) ∧ back = []) ∧ captured = none := by
  rw [captures_seq_iff fun _ word => word = [] ∨ word = letters]
  · constructor
    · rintro ⟨left, _, rfl, hleft, rfl, rfl, hcaptured⟩
      rw [List.append_nil]
      exact ⟨⟨hleft, rfl⟩, hcaptured⟩
    · rintro ⟨⟨hword, rfl⟩, hcaptured⟩
      exact ⟨word, [], (List.append_nil word).symm, hword, rfl, rfl, hcaptured⟩
  · intro front word back captured
    rw [captures_opt_iff, captures_literal_iff, ← or_and_right, or_comm]

theorem captures_set_seq_iff {accepts : α → Bool} {second : Regex α} :
    (seq (set accepts) second).Captures front word back captured ↔
      ∃ letter right, word = letter :: right ∧ accepts letter = true ∧
        second.Captures (front ++ [letter]) right back captured := by
  rw [captures_seq_iff fun _ word => ∃ letter, accepts letter = true ∧ word = [letter]]
  · constructor
    · rintro ⟨_, right, rfl, ⟨letter, haccepts, rfl⟩, hright⟩
      exact ⟨letter, right, rfl, haccepts, hright⟩
    · rintro ⟨letter, right, rfl, haccepts, hright⟩
      exact ⟨[letter], right, rfl, ⟨letter, haccepts, rfl⟩, hright⟩
  · intro front word back captured
    rw [captures_set_iff]
    constructor
    · rintro ⟨letter, haccepts, rfl, rfl⟩
      exact ⟨⟨letter, haccepts, rfl⟩, rfl⟩
    · rintro ⟨⟨letter, haccepts, rfl⟩, rfl⟩
      exact ⟨letter, haccepts, rfl, rfl⟩

theorem captures_empty_all_iff (accepts : α → Bool) :
    (empty : Regex α).Captures front word back captured ↔
      (word = [] ∧ word.all accepts = true) ∧ captured = none := by
  rw [Captures]
  constructor
  · rintro ⟨rfl, hcaptured⟩
    exact ⟨⟨rfl, rfl⟩, hcaptured⟩
  · rintro ⟨⟨hword, _⟩, hcaptured⟩
    exact ⟨hword, hcaptured⟩

theorem captures_exactly_set_iff {accepts : α → Bool} {count : ℕ} :
    (exactly count (set accepts)).Captures front word back captured ↔
      (word.length = count ∧ word.all accepts = true) ∧ captured = none := by
  induction count generalizing front word with
  | zero => rw [exactly, captures_empty_all_iff accepts, List.length_eq_zero_iff]
  | succ count ih =>
      simp only [exactly, captures_set_seq_iff, ih]
      constructor
      · rintro ⟨letter, right, rfl, haccepts, ⟨hlength, hall⟩, hcaptured⟩
        exact ⟨⟨congrArg Nat.succ hlength, by simp [haccepts, hall]⟩, hcaptured⟩
      · rintro ⟨⟨hlength, hall⟩, hcaptured⟩
        cases word with
        | nil => cases hlength
        | cons letter right =>
            rw [List.all_cons, Bool.and_eq_true] at hall
            exact ⟨letter, right, rfl, hall.1, ⟨Nat.succ.inj hlength, hall.2⟩, hcaptured⟩

theorem captures_atMost_set_iff {accepts : α → Bool} {count : ℕ} :
    (atMost count (set accepts)).Captures front word back captured ↔
      (word.length ≤ count ∧ word.all accepts = true) ∧ captured = none := by
  induction count generalizing front word with
  | zero => rw [atMost, captures_empty_all_iff accepts, Nat.le_zero, List.length_eq_zero_iff]
  | succ count ih =>
      rw [atMost, Captures, captures_set_seq_iff, Captures]
      simp only [ih]
      constructor
      · rintro (⟨letter, right, rfl, haccepts, ⟨hlength, hall⟩, hcaptured⟩ | ⟨rfl, hcaptured⟩)
        · exact ⟨⟨Nat.succ_le_succ hlength, by simp [haccepts, hall]⟩, hcaptured⟩
        · exact ⟨⟨Nat.zero_le _, rfl⟩, hcaptured⟩
      · rintro ⟨⟨hlength, hall⟩, hcaptured⟩
        cases word with
        | nil => exact Or.inr ⟨rfl, hcaptured⟩
        | cons letter right =>
            rw [List.all_cons, Bool.and_eq_true] at hall
            exact Or.inl ⟨letter, right, rfl, hall.1,
              ⟨Nat.le_of_succ_le_succ hlength, hall.2⟩, hcaptured⟩

theorem captures_between_set_iff {accepts : α → Bool} {low high : ℕ} (hbounds : low ≤ high) :
    (between low high (set accepts)).Captures front word back captured ↔
      (low ≤ word.length ∧ word.length ≤ high ∧ word.all accepts = true) ∧ captured = none := by
  rw [between, captures_seq_iff _ fun _ _ _ _ => captures_exactly_set_iff]
  simp only [captures_atMost_set_iff]
  constructor
  · rintro ⟨left, right, rfl, ⟨hleft, hallLeft⟩, ⟨hright, hallRight⟩, hcaptured⟩
    refine ⟨⟨?_, ?_, by simp [hallLeft, hallRight]⟩, hcaptured⟩
    · rw [List.length_append]
      omega
    · rw [List.length_append]
      omega
  · rintro ⟨⟨hlow, hhigh, hall⟩, hcaptured⟩
    have hparts : (word.take low ++ word.drop low).all accepts = true := by
      rwa [List.take_append_drop]
    rw [List.all_append, Bool.and_eq_true] at hparts
    refine ⟨word.take low, word.drop low, (List.take_append_drop low word).symm,
      ⟨List.length_take_of_le hlow, hparts.1⟩, ⟨?_, hparts.2⟩, hcaptured⟩
    rw [List.length_drop]
    omega

end Derived

section Search

variable {regex : Regex α} {front rest : List α}

theorem search_eq (regex : Regex α) (front rest : List α) :
    regex.search front rest =
      ((regex.run front rest).head?.map Prod.snd).or
        (match rest with
        | [] => none
        | letter :: rest => regex.search (front ++ [letter]) rest) := by
  cases rest with
  | nil => rw [search, Option.or_none]
  | cons letter rest => rw [search]

/-- What is found is captured by a match. -/
theorem exists_captures_of_search {captured : Option (List α)}
    (hsearch : regex.search front rest = some captured) :
    ∃ skipped word back, rest = skipped ++ word ++ back ∧
      regex.Captures (front ++ skipped) word back captured := by
  induction rest generalizing front with
  | nil =>
      obtain ⟨⟨word, found⟩, hhead, rfl⟩ := Option.map_eq_some_iff.1 hsearch
      obtain ⟨back, hrest, hcaptures⟩ := mem_run_iff.1 (List.mem_of_head? hhead)
      exact ⟨[], word, back, hrest, by rwa [List.append_nil]⟩
  | cons letter rest ih =>
      rcases Option.or_eq_some_iff.1 hsearch with hhere | ⟨_, hlater⟩
      · obtain ⟨⟨word, found⟩, hhead, rfl⟩ := Option.map_eq_some_iff.1 hhere
        obtain ⟨back, hrest, hcaptures⟩ := mem_run_iff.1 (List.mem_of_head? hhead)
        exact ⟨[], word, back, hrest, by rwa [List.append_nil]⟩
      · obtain ⟨skipped, word, back, rfl, hcaptures⟩ := ih hlater
        refine ⟨letter :: skipped, word, back, rfl, ?_⟩
        rwa [List.append_cons]

/-- Where there is a match, something is found. -/
theorem search_isSome_of_captures (front : List α) {skipped word back : List α}
    {captured : Option (List α)} (hrest : rest = skipped ++ word ++ back)
    (hcaptures : regex.Captures (front ++ skipped) word back captured) :
    (regex.search front rest).isSome = true := by
  induction skipped generalizing front rest with
  | nil =>
      rw [List.append_nil] at hcaptures
      have hmem : (word, captured) ∈ regex.run front rest :=
        mem_run_iff.2 ⟨back, hrest, hcaptures⟩
      rw [search_eq, Option.isSome_or, Option.isSome_map]
      simp [List.ne_nil_of_mem hmem]
  | cons letter skipped ih =>
      subst hrest
      rw [List.append_cons] at hcaptures
      rw [search_eq, Option.isSome_or]
      exact Bool.or_eq_true_iff.2 (Or.inr (ih _ rfl hcaptures))

end Search

/-- If the matches in a text capture exactly the texts of a language, and it has
at most one, then that one is found. -/
theorem findSubmatch_eq_some_iff {regex : Regex α} {text : List α} (Language : List α → Prop)
    (hmatches : ∀ captured,
      (∃ front word back, text = front ++ word ++ back ∧
        regex.Captures front word back captured) ↔
        ∃ found, Language found ∧ captured = some found)
    (hunique : ∀ {left right}, Language left → Language right → left = right)
    {found : List α} : regex.findSubmatch text = some found ↔ Language found := by
  have hsearch {captured : Option (List α)} (hfound : regex.search [] text = some captured) :
      ∃ found, Language found ∧ captured = some found := by
    obtain ⟨front, word, back, htext, hcaptures⟩ := exists_captures_of_search hfound
    exact (hmatches captured).1 ⟨front, word, back, htext, hcaptures⟩
  rw [findSubmatch, Option.map_eq_some_iff]
  constructor
  · rintro ⟨captured, hfound, rfl⟩
    obtain ⟨found, hlanguage, rfl⟩ := hsearch hfound
    exact hlanguage
  · intro hlanguage
    obtain ⟨front, word, back, htext, hcaptures⟩ :=
      (hmatches (some found)).2 ⟨found, hlanguage, rfl⟩
    obtain ⟨captured, hfound⟩ :=
      Option.isSome_iff_exists.1 (search_isSome_of_captures [] htext hcaptures)
    obtain ⟨other, hother, rfl⟩ := hsearch hfound
    exact ⟨some other, hfound, hunique hother hlanguage⟩

end Regex

end KernelSeal

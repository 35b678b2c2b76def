import Mathlib.Data.List.Basic

/-!
# Parsers

A parser consumes a prefix of its input.  Two facts about parsers compose: that a
text is read to the end and to a given value whatever follows it, and that what
was accepted stays accepted when more input follows.  Together they say that no
proper prefix of a text is accepted in its place.
-/

namespace KernelSeal.Parsing

variable {Symbol α β : Type}

/-- A parser returns a value and the input it left. -/
abbrev Parser (Symbol α : Type) := StateT (List Symbol) Option α

/-- The parser reads this text, whatever follows it, and returns this value. -/
def Yields (parser : Parser Symbol α) (text : List Symbol) (value : α) : Prop :=
  ∀ rest, parser.run (text ++ rest) = some (value, rest)

/-- What `parser` accepts, `parser'` accepts when more input follows. -/
def Extends (parser parser' : Parser Symbol α) : Prop :=
  ∀ text value rest, parser.run text = some (value, rest) →
    ∀ more, parser'.run (text ++ more) = some (value, rest ++ more)

/-- A parser that accepts a text refuses every proper prefix of it, if what it
accepts stays accepted. -/
theorem Extends.none_of_lt {parser parser' : Parser Symbol α} (hextends : Extends parser parser')
    {text cut rest : List Symbol} {value : α} (hyields : Yields parser' text value)
    (htext : cut ++ rest = text) (hrest : rest ≠ []) : parser.run cut = none := by
  cases hrun : parser.run cut with
  | none => rfl
  | some result =>
      obtain ⟨found, left⟩ := result
      have hlonger := hextends cut found left hrun rest
      have hwhole := hyields []
      rw [List.append_nil, ← htext, hlonger] at hwhole
      have hleft : left ++ rest = [] := congrArg Prod.snd (Option.some.inj hwhole)
      exact absurd (List.append_eq_nil_iff.1 hleft).2 hrest

/-! ## Sequencing -/

theorem yields_pure (value : α) : Yields (pure value : Parser Symbol α) [] value :=
  fun _ => rfl

theorem Yields.bind {parser : Parser Symbol α} {next : α → Parser Symbol β}
    {first second : List Symbol} {value : α} {result : β} (hparser : Yields parser first value)
    (hnext : Yields (next value) second result) :
    Yields (parser >>= next) (first ++ second) result := by
  intro rest
  rw [StateT.run_bind, List.append_assoc, hparser]
  exact hnext rest

theorem Yields.bind_pure {parser : Parser Symbol α} {text : List Symbol} {value : α}
    (hparser : Yields parser text value) (convert : α → β) :
    Yields (parser >>= fun value => pure (convert value)) text (convert value) := by
  intro rest
  rw [StateT.run_bind, hparser]
  rfl

theorem extends_pure (value : α) : Extends (pure value : Parser Symbol α) (pure value) := by
  intro text found rest hrun more
  cases hrun
  rfl

theorem extends_failure : Extends (failure : Parser Symbol α) failure := by
  intro text found rest hrun
  cases hrun

theorem Extends.bind {parser parser' : Parser Symbol α} {next next' : α → Parser Symbol β}
    (hparser : Extends parser parser') (hnext : ∀ value, Extends (next value) (next' value)) :
    Extends (parser >>= next) (parser' >>= next') := by
  intro text found rest hrun more
  rw [StateT.run_bind] at hrun ⊢
  obtain ⟨⟨value, left⟩, hfirst, hsecond⟩ := Option.bind_eq_some_iff.1 hrun
  rw [hparser text value left hfirst more]
  exact hnext value left found rest hsecond more

theorem Extends.bind_pure {parser parser' : Parser Symbol α} (hparser : Extends parser parser')
    (convert : α → β) :
    Extends (parser >>= fun value => pure (convert value))
      (parser' >>= fun value => pure (convert value)) :=
  hparser.bind fun value => extends_pure (convert value)

theorem Extends.ite {condition : Prop} [Decidable condition]
    {parser parser' other other' : Parser Symbol α} (hparser : Extends parser parser')
    (hother : Extends other other') :
    Extends (if condition then parser else other) (if condition then parser' else other') := by
  split
  · exact hparser
  · exact hother

/-! ## Single symbols -/

section Symbols

variable [DecidableEq Symbol] (isSpace : Symbol → Bool)

/-- The next symbol. -/
def anySymbol : Parser Symbol Symbol
  | [] => none
  | symbol :: rest => some (symbol, rest)

/-- The next symbol that is not space. -/
def token : Parser Symbol Symbol := fun text => anySymbol (text.dropWhile isSpace)

/-- Exactly these symbols. -/
def literal : List Symbol → Parser Symbol Unit
  | [] => pure ()
  | symbol :: word => do
      let found ← anySymbol
      if found = symbol then literal word else failure

omit [DecidableEq Symbol] in
theorem yields_anySymbol (symbol : Symbol) : Yields anySymbol [symbol] symbol :=
  fun _ => rfl

omit [DecidableEq Symbol] in
theorem extends_anySymbol : Extends (anySymbol : Parser Symbol Symbol) anySymbol := by
  intro text value rest hrun more
  cases text with
  | nil => cases hrun
  | cons symbol text =>
      cases hrun
      rfl

variable {isSpace}

omit [DecidableEq Symbol] in
theorem yields_token {symbol : Symbol} (hsymbol : isSpace symbol = false) :
    Yields (token isSpace) [symbol] symbol := by
  intro rest
  change anySymbol (List.dropWhile isSpace (symbol :: rest)) = _
  rw [List.dropWhile_cons_of_neg (by simp [hsymbol])]
  rfl

omit [DecidableEq Symbol] in
theorem extends_token : Extends (token isSpace) (token isSpace) := by
  intro text value rest hrun more
  induction text with
  | nil => cases hrun
  | cons symbol text ih =>
      by_cases hspace : isSpace symbol = true
      · have hskip (after : List Symbol) :
            (token isSpace).run (symbol :: after) = (token isSpace).run after := by
          change anySymbol (List.dropWhile isSpace (symbol :: after)) = _
          rw [List.dropWhile_cons_of_pos hspace]
          rfl
        rw [hskip] at hrun
        rw [List.cons_append, hskip]
        exact ih hrun
      · have htake (after : List Symbol) :
            (token isSpace).run (symbol :: after) = some (symbol, after) := by
          change anySymbol (List.dropWhile isSpace (symbol :: after)) = _
          rw [List.dropWhile_cons_of_neg hspace]
          rfl
        rw [htake] at hrun
        rw [List.cons_append, htake]
        cases hrun
        rfl

theorem yields_literal (word : List Symbol) : Yields (literal word) word () := by
  induction word with
  | nil => exact yields_pure ()
  | cons symbol word ih =>
      refine (yields_anySymbol symbol).bind ?_
      rw [if_pos rfl]
      exact ih

theorem extends_literal (word : List Symbol) : Extends (literal word) (literal word) := by
  induction word with
  | nil => exact extends_pure ()
  | cons symbol word ih => exact extends_anySymbol.bind fun _ => ih.ite extends_failure

end Symbols

end KernelSeal.Parsing

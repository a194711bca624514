import Calculator.Proofs.Expr.Written
import Calculator.Proofs.Grammar.Acceptance
import Calculator.Proofs.Token.Number

/-!
# Reading what is printed

The text of the tree of a line has no parentheses but those of the line, so it
is read as the tree only where none are missing: a product without an operator
is printed with one, which binds looser.
-/

namespace Calculator

/-! ## Trees of phrases -/

namespace Phrase

variable {p : Phrase} {inBody : Bool} {env env' : Environment} {e : Expr}

/-- Without an operator at its root, a phrase is a factor. -/
theorem Reads.isFactor (h : p.Reads inBody env e env') (hwell : p.WellFormed)
    (hop : p.operator? = none) : e.IsFactor := by
  induction h with
  | number => trivial
  | name hn => rcases tree_of_readName hn with rfl | ⟨value, rfl⟩ <;> trivial
  | neg h ih => exact ih hwell.1 (operator?_eq_none_of_above hwell.2)
  | factorial h natural ih => trivial
  | binary hl hr ihl ihr => cases hop
  | product hl h ihl ih =>
      exact ⟨rfl, ihl hwell.1 (operator?_eq_none_of_endsBefore hwell.2.1 rfl)⟩
  | grouping h ih => trivial
  | call hn h ih => rcases apply_of_readCallee hn with ⟨f, -, rfl⟩ | ⟨body, -, rfl⟩ <;> trivial
  | assignment fresh h hd ih => trivial
  | definition fresh h hd ih => trivial

theorem Reads.negatesFactors (h : p.Reads inBody env e env') (hwell : p.WellFormed) :
    e.NegatesFactors := by
  induction h with
  | number => trivial
  | name hn => rcases tree_of_readName hn with rfl | ⟨value, rfl⟩ <;> trivial
  | neg h ih => exact ⟨h.isFactor hwell.1 (operator?_eq_none_of_above hwell.2), ih hwell.1⟩
  | factorial h natural ih => exact ih hwell.1
  | binary hl hr ihl ihr => exact ⟨ihl hwell.1, ihr hwell.2.2.1⟩
  | product hl h ihl ih => exact ⟨ihl hwell.1, ih hwell.2.2⟩
  | grouping h ih => exact ih hwell
  | call hn h ih =>
      rcases apply_of_readCallee hn with ⟨f, -, rfl⟩ | ⟨body, -, rfl⟩ <;> exact ih hwell
  | assignment fresh h hd ih => trivial
  | definition fresh h hd ih => trivial

/-- A phrase that declares nothing leaves the environment as it is. -/
theorem Reads.environment_of_isPlain (h : p.Reads inBody env e env') (plain : e.IsPlain) :
    env' = env := by
  induction h with
  | number => rfl
  | name hn => rfl
  | neg h ih => exact ih plain
  | factorial h natural ih => exact ih plain
  | binary hl hr ihl ihr => exact (ihr plain.2).trans (ihl plain.1)
  | product hl h ihl ih => exact (ih plain.2).trans (ihl plain.1)
  | grouping h ih => exact ih plain
  | call hn h ih =>
      rcases apply_of_readCallee hn with ⟨f, -, rfl⟩ | ⟨body, -, rfl⟩ <;> exact ih plain
  | assignment fresh h hd ih => exact plain.elim
  | definition fresh h hd ih => exact plain.elim

end Phrase

/-! ## Texts of trees -/

namespace Expr

/-- The text of the tree is scanned as the tree is written. -/
def IsSpelled (e : Expr) : Prop :=
  Spelled e.text.toList e.signed.phrase.symbols

section Spelled

variable {e lhs rhs : Expr} {n : String}

theorem isSpelled_literal (s : Bool) (m : Magnitude) : (literal (.finite s m)).IsSpelled := by
  have hspelled := spelled_plainText s m
  cases s with
  | false => exact hspelled
  | true => exact hspelled

theorem IsSpelled.neg (h : e.IsSpelled) : (unary .neg e).IsSpelled := by
  have htext : (unary .neg e).text.toList = '-' :: e.text.toList := by
    simp [text, UnaryOp.symbol]
  have hsymbols : (unary .neg e).signed.phrase.symbols =
      .mark .minus :: e.signed.phrase.symbols := symbols_phrase_negated e.signed
  rw [IsSpelled, htext, hsymbols]
  exact Spelled.sign h rfl (by decide)

theorem IsSpelled.factorial (h : e.IsSpelled) : (unary .factorial e).IsSpelled := by
  have htext : (unary .factorial e).text.toList = e.text.toList ++ ['!'] := by
    simp [text, UnaryOp.symbol]
  rw [IsSpelled, htext]
  exact Spelled.append h (spelled_nil.sign rfl (by decide)) (boundary_cons rfl _)

theorem punctuation?_symbol (op : BinaryOp) :
    ∃ c, op.symbol.toList = [c] ∧ punctuation? c = some op.kind := by
  cases op <;> exact ⟨_, rfl, rfl⟩

theorem IsSpelled.binary (hl : lhs.IsSpelled) (hr : rhs.IsSpelled) (op : BinaryOp) :
    (binary lhs op rhs).IsSpelled := by
  obtain ⟨c, hsymbol, hc⟩ := punctuation?_symbol op
  have htext : (Expr.binary lhs op rhs).text.toList =
      lhs.text.toList ++ ' ' :: c :: ' ' :: rhs.text.toList := by
    simp [text, hsymbol]
  have hop : op.kind ≠ .space := by cases op <;> decide
  rw [IsSpelled, htext]
  exact Spelled.append hl ((Spelled.blank hr).sign hc hop).blank (boundary_cons rfl _)

theorem toList_text_grouping (e : Expr) :
    (grouping e).text.toList = '(' :: (e.text.toList ++ [')']) := by
  simp [text]

theorem IsSpelled.grouping (h : e.IsSpelled) : (grouping e).IsSpelled := by
  rw [IsSpelled, toList_text_grouping]
  exact (Spelled.append h (spelled_nil.sign rfl (by decide)) (boundary_cons rfl _)).sign rfl
    (by decide)

theorem spelled_call (hn : IsIdentifier n) (h : e.IsSpelled) :
    Spelled (n ++ "(" ++ e.text ++ ")").toList (Phrase.call n e.signed.phrase).symbols := by
  have htext : (n ++ "(" ++ e.text ++ ")").toList = n.toList ++ (Expr.grouping e).text.toList := by
    simp [text]
  have hboundary : Boundary (Expr.grouping e).text.toList := by
    rw [toList_text_grouping]
    exact boundary_cons rfl _
  rw [htext]
  exact (spelled_word hn).append h.grouping hboundary

end Spelled

end Expr

namespace Phrase

/-- What a line without declarations is read as is written as a phrase. -/
theorem Reads.isSpelled {p : Phrase} {inBody : Bool} {env env' : Environment} {e : Expr}
    (h : p.Reads inBody env e env') (plain : e.IsPlain)
    (hnames : ∀ n, .name n ∈ p.symbols → IsIdentifier n) : e.IsSpelled := by
  induction h with
  | number =>
      obtain ⟨s, m, rfl⟩ := plain
      exact Expr.isSpelled_literal s m
  | name hn =>
      rcases tree_of_readName hn with rfl | ⟨value, rfl⟩
      · exact spelled_word (hnames _ List.mem_cons_self)
      · obtain ⟨s, m, rfl⟩ := plain
        exact Expr.isSpelled_literal s m
  | neg h ih => exact (ih plain fun n hn => hnames n (by simp [symbols, hn])).neg
  | factorial h natural ih =>
      exact (ih plain fun n hn => hnames n (by simp [symbols, hn])).factorial
  | binary hl hr ihl ihr =>
      exact (ihl plain.1 fun n hn => hnames n (by simp [symbols, hn])).binary
        (ihr plain.2 fun n hn => hnames n (by simp [symbols, hn])) _
  | product hl h ihl ih =>
      exact (ihl plain.1 fun n hn => hnames n (by simp [symbols, hn])).binary
        (ih plain.2 fun n hn => hnames n (by simp [symbols, hn])).grouping _
  | grouping h ih => exact (ih plain fun n hn => hnames n (by simp [symbols, hn])).grouping
  | @call n p _ _ _ _ _ hn h ih =>
      have hword := hnames n List.mem_cons_self
      rcases apply_of_readCallee hn with ⟨f, -, rfl⟩ | ⟨body, -, rfl⟩ <;>
        exact Expr.spelled_call hword (ih plain fun n hn => hnames n (by simp [symbols, hn]))
  | assignment fresh h hd ih => exact plain.elim
  | definition fresh h hd ih => exact plain.elim

/-! ## Reading back -/

/-- A phrase that is read as its own tree still is after a negation of its first factor. -/
theorem Reads.negated {inBody : Bool} {env env' : Environment} {e : Expr}
    (h : e.phrase.Reads inBody env e env') :
    e.negated.phrase.Reads inBody env e.negated env' := by
  induction e generalizing env env' with
  | binary lhs op rhs ihl _ =>
      cases h with
      | binary hl hr => exact .binary (ihl hl) hr
  | unary op operand _ => cases op <;> exact .neg h
  | _ => exact .neg h

/-- The phrase that is written for the tree of a line is read as the tree that is written. -/
theorem Reads.signed {p : Phrase} {inBody : Bool} {env env' : Environment} {e : Expr}
    (h : p.Reads inBody env e env') (hwell : p.WellFormed) (plain : e.IsPlain) :
    e.signed.phrase.Reads inBody env e.signed env' := by
  have literal {inBody : Bool} {env : Environment} {value : Binary64} :
      (Expr.literal value).signed.phrase.Reads inBody env (Expr.literal value).signed env := by
    cases value with
    | finite s m =>
        cases s with
        | false => exact .number
        | true => exact .neg .number
    | _ => exact .number
  induction h with
  | number => exact literal
  | name hn =>
      rcases tree_of_readName hn with rfl | ⟨value, rfl⟩
      · exact .name hn
      · exact literal
  | neg h ih => exact (ih hwell.1 plain).negated
  | factorial h natural ih =>
      refine .factorial (ih hwell.1 plain) ?_
      rw [Expr.evaluate, Expr.evaluateWith_signed (h.negatesFactors hwell.1)]
      exact natural
  | binary hl hr ihl ihr => exact .binary (ihl hwell.1 plain.1) (ihr hwell.2.2.1 plain.2)
  | product hl h ihl ih =>
      exact .binary (ihl hwell.1 plain.1) (.grouping (ih hwell.2.2 plain.2))
  | grouping h ih => exact .grouping (ih hwell plain)
  | call hn h ih =>
      rcases apply_of_readCallee hn with ⟨f, -, rfl⟩ | ⟨body, -, rfl⟩
      all_goals
        have hcall := Reads.call hn (ih hwell plain)
        exact hcall
  | assignment fresh h hd ih => exact plain.elim
  | definition fresh h hd ih => exact plain.elim

/--
A phrase has no more symbols than are written for its tree, and if it has the
same ones it is what is written.
-/
theorem Reads.eq_phrase {p : Phrase} {inBody : Bool} {env env' : Environment} {e : Expr}
    (h : p.Reads inBody env e env') (plain : e.IsPlain) :
    p.symbols.length ≤ e.phrase.symbols.length ∧ (p.symbols = e.phrase.symbols → p = e.phrase) := by
  induction h with
  | number => exact ⟨Nat.le_refl _, fun _ => rfl⟩
  | name hn =>
      rcases tree_of_readName hn with rfl | ⟨value, rfl⟩
      · exact ⟨Nat.le_refl _, fun _ => rfl⟩
      · exact ⟨Nat.le_refl _, fun h => by cases h⟩
  | neg h ih =>
      obtain ⟨hle, heq⟩ := ih plain
      refine ⟨Nat.succ_le_succ hle, fun h => ?_⟩
      rw [Expr.phrase, heq (List.cons.inj h).2]
  | factorial h natural ih =>
      obtain ⟨hle, heq⟩ := ih plain
      refine ⟨?_, fun h => ?_⟩
      · simpa [symbols, Expr.phrase] using hle
      · rw [Expr.phrase, heq (List.append_cancel_right h)]
  | binary hl hr ihl ihr =>
      obtain ⟨hlel, heql⟩ := ihl plain.1
      obtain ⟨hler, heqr⟩ := ihr plain.2
      refine ⟨?_, fun h => ?_⟩
      · simp only [symbols, Expr.phrase, List.length_append, List.length_cons]
        omega
      · have hlength := congrArg List.length h
        simp only [symbols, Expr.phrase, List.length_append, List.length_cons] at hlength
        obtain ⟨hl, hr⟩ := List.append_inj h (by omega)
        rw [Expr.phrase, heql hl, heqr (List.cons.inj hr).2]
  | product hl h ihl ih =>
      obtain ⟨hlel, -⟩ := ihl plain.1
      obtain ⟨hle, -⟩ := ih plain.2
      refine ⟨?_, fun h => ?_⟩
      · simp only [symbols, Expr.phrase, List.length_append, List.length_cons]
        omega
      · have hlength := congrArg List.length h
        simp only [symbols, Expr.phrase, List.length_append, List.length_cons] at hlength
        omega
  | grouping h ih =>
      obtain ⟨hle, heq⟩ := ih plain
      refine ⟨?_, fun h => ?_⟩
      · simpa [symbols, Expr.phrase] using hle
      · rw [Expr.phrase, heq (List.append_cancel_right (List.cons.inj h).2)]
  | call hn h ih =>
      rcases apply_of_readCallee hn with ⟨f, -, rfl⟩ | ⟨body, -, rfl⟩
      all_goals
        obtain ⟨hle, heq⟩ := ih plain
        refine ⟨?_, fun h => ?_⟩
        · simpa [symbols, Expr.phrase] using hle
        · rw [Expr.phrase, heq (List.append_cancel_right (List.cons.inj (List.cons.inj h).2).2)]
  | assignment fresh h hd ih => exact plain.elim
  | definition fresh h hd ih => exact plain.elim

end Phrase

/--
The text of the tree of a line, in the environment of the line, is read as the
tree that is written exactly if no parentheses are missing in it and it is not
nested too deeply, and then it has the value of the line.
-/
theorem readLine_text {env : Environment} {source : String} (h : (readLine env source).isOk)
    (plain : (readLine env source).expr.IsPlain) :
    (readLine env (readLine env source).expr.text =
        ⟨(readLine env source).expr.signed, .empty, env⟩ ↔
      (readLine env source).expr.PrintsGrouped ∧
        (readLine env source).expr.signed.phrase.depth ≤ maxNesting) ∧
    ((readLine env source).expr.PrintsGrouped ∧
        (readLine env source).expr.signed.phrase.depth ≤ maxNesting →
      (readLine env (readLine env source).expr.text).isOk ∧
        (readLine env (readLine env source).expr.text).expr.evaluate =
          (readLine env source).expr.evaluate) := by
  obtain ⟨st, hsymbols, hwell, hreads, -, -⟩ := reads_readLine h
  generalize (readLine env source).expr = e at hreads plain ⊢
  generalize (readLine env source).environment = env' at hreads
  cases hreads with
  | deletion hlookup => exact plain.elim
  | @phrase p _ _ _ hp =>
      have hnames (n : String) (hn : .name n ∈ p.symbols) : IsIdentifier n :=
        isIdentifier_of_mem_symbolsOf (by rw [← hsymbols]; exact hn)
      obtain ⟨htext, hlexical⟩ := symbolsOf_of_spelled (hp.isSpelled plain hnames)
      have hsigned := hp.signed hwell plain
      rw [hp.environment_of_isPlain plain] at hsigned
      have hread (hprints : e.PrintsGrouped ∧ e.signed.phrase.depth ≤ maxNesting) :
          readLine env e.text = ⟨e.signed, .empty, env⟩ := by
        refine readLine_of_phrase (fun r => r = ⟨e.signed, .empty, env⟩) htext
          ((Expr.wellFormed_phrase_signed e).2 hprints.1) hprints.2 hlexical ?_
        rw [Phrase.Resolves, Phrase.resolve_of_reads hsigned]
      refine ⟨⟨fun hback => ?_, hread⟩, fun hprints => ?_⟩
      · have hok : (readLine env e.text).isOk := by
          rw [hback]
          rfl
        obtain ⟨st', hsymbols', hwell', hreads', hdepth', -⟩ := reads_readLine hok
        rw [hback] at hreads'
        rw [htext] at hsymbols'
        cases st' with
        | deletion n => exact absurd rfl (Phrase.ne_del_of_symbols hsymbols'.symm)
        | phrase q =>
            cases hreads' with
            | phrase hq =>
                have hphrase : q = e.signed.phrase := (hq.eq_phrase plain.signed).2 hsymbols'
                subst hphrase
                exact ⟨(Expr.wellFormed_phrase_signed e).1 hwell', hdepth' _ rfl⟩
      · rw [hread hprints]
        exact ⟨rfl, Expr.evaluateWith_signed (hp.negatesFactors hwell) _⟩

theorem readLine_text_of_products :
    (readLine .empty "-2(3)(4) - 5^-1! + sqrt(0.25)").isOk ∧
      (readLine .empty "-2(3)(4) - 5^-1! + sqrt(0.25)").expr.IsPlain ∧
      (readLine .empty "-2(3)(4) - 5^-1! + sqrt(0.25)").expr.PrintsGrouped ∧
      (readLine .empty "-2 * (3) * (4) - 5 ^ -1! + sqrt(0.25)").isOk ∧
      (readLine .empty "-2 * (3) * (4) - 5 ^ -1! + sqrt(0.25)").expr.evaluate =
        (readLine .empty "-2(3)(4) - 5^-1! + sqrt(0.25)").expr.evaluate := by
  have h : (readLine .empty "-2(3)(4) - 5^-1! + sqrt(0.25)").isOk := by decide +kernel
  have plain : (readLine .empty "-2(3)(4) - 5^-1! + sqrt(0.25)").expr.IsPlain := by
    decide +kernel
  have htext : (readLine .empty "-2(3)(4) - 5^-1! + sqrt(0.25)").expr.text =
      "-2 * (3) * (4) - 5 ^ -1! + sqrt(0.25)" := by decide +kernel
  obtain ⟨hback, hvalue⟩ := readLine_text h plain
  have hprints := hback.1 (by decide +kernel)
  rw [htext] at hvalue
  exact ⟨h, plain, hprints.1, hvalue hprints⟩

/-- A product without an operator, printed with one, is no longer the exponent of the power. -/
theorem readLine_text_regroups_exponent :
    ¬∀ (env : Environment) (source : String), (readLine env source).isOk →
      (readLine env source).expr.IsPlain →
      (readLine env (readLine env source).expr.text).isOk ∧
        (readLine env (readLine env source).expr.text).expr.evaluate =
          (readLine env source).expr.evaluate := by
  intro h
  have hvalue := (h .empty "2^2(3)" (by decide +kernel) (by decide +kernel)).2
  exact absurd hvalue (by decide +kernel)

end Calculator

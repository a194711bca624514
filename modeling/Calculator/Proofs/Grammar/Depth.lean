import Calculator.Proofs.Grammar.Acceptance
import Calculator.Proofs.Parser.Limit

/-!
# Depth

The limit on nesting is a limit on the depth of the tree and on nothing else: a
line whose tree fits is read as if there were no limit.
-/

namespace Calculator

/-- The number of nodes from the root to the deepest leaf. A called body counts for nothing. -/
def Expr.depth : Expr → Nat
  | unary _ operand => operand.depth + 1
  | binary lhs _ rhs => max lhs.depth rhs.depth + 1
  | grouping inner => inner.depth + 1
  | builtinCall _ _ arg => arg.depth + 1
  | userCall _ _ arg => arg.depth + 1
  | assignment _ value => value.depth + 1
  | definition _ body => body.depth + 1
  | _ => 1

/-- The tree of a phrase is as deep as the phrase. -/
theorem Phrase.Reads.depth {p : Phrase} {inBody : Bool} {env env' : Environment} {e : Expr}
    (h : p.Reads inBody env e env') : e.depth = p.depth := by
  induction h with
  | number => rfl
  | name hn => rcases tree_of_readName hn with rfl | ⟨value, rfl⟩ <;> rfl
  | neg h ih => exact congrArg (· + 1) ih
  | factorial h natural ih => exact congrArg (· + 1) ih
  | binary hl hr ihl ihr => simp only [Expr.depth, Phrase.depth, ihl, ihr]
  | product hl h ihl ih => simp only [Expr.depth, Phrase.depth, ihl, ih]
  | grouping h ih => exact congrArg (· + 1) ih
  | call hn h ih =>
      rcases apply_of_readCallee hn with ⟨f, -, rfl⟩ | ⟨body, -, rfl⟩ <;> exact congrArg (· + 1) ih
  | assignment fresh h hd ih => exact congrArg (· + 1) ih
  | definition fresh h hd ih => exact congrArg (· + 1) ih

def readUnlimited (env : Environment) (source : String) : Reading :=
  let tokens := tokenize source
  readTokens none tokens (lexicalFaults tokens) env

theorem depth_readLine {env : Environment} {source : String} (h : (readLine env source).isOk) :
    (readLine env source).expr.depth ≤ maxNesting := by
  obtain ⟨st, -, -, hreads, hdepth, -⟩ := reads_readLine h
  generalize (readLine env source).expr = e at hreads ⊢
  generalize (readLine env source).environment = env' at hreads
  cases hreads with
  | deletion _ => exact Nat.le_add_left 1 127
  | @phrase p _ _ _ hp =>
      rw [hp.depth]
      exact hdepth p rfl

/-- A line without faults, read without a limit. -/
theorem reads_readUnlimited {env : Environment} {source : String}
    (h : (readUnlimited env source).isOk) :
    ∃ st : Statement, st.symbols = symbolsOf source ∧ st.WellFormed ∧
      st.Reads env (readUnlimited env source).expr (readUnlimited env source).environment ∧
      (readUnlimited env source).diagnostics = .empty ∧
      lexicalFaults (tokenize source) = .empty := by
  obtain ⟨st, hst, hsymbols⟩ := Parser.reads_run rfl h
  have hempty : (readUnlimited env source).diagnostics = .empty :=
    Table.ext (List.isEmpty_iff.1 h)
  have hlexical : (readUnlimited env source).diagnostics = lexicalFaults (tokenize source) :=
    hst.diagnostics
  rw [symbols_ofTokens] at hsymbols
  exact ⟨st, hsymbols.symm, hst.wellFormed, hst.reads, hempty, hlexical.symm.trans hempty⟩

theorem Parser.kind_of_symbols {s : Parser.State Environment} {k : TokenKind} {rest : List Symbol}
    (h : s.symbols = .mark k :: rest) : s.next.kind = k := by
  rcases s.rest_cases with hnil | ⟨token, tokens, hrest⟩
  · rw [State.symbols, hnil] at h
    cases h
  · rw [State.symbols_of_rest hrest] at h
    rw [State.next_of_rest hrest]
    exact Token.kind_of_symbol_mark (List.cons.inj h).1

theorem readLine_of_del {env : Environment} {source : String} {rest : List Symbol}
    (h : symbolsOf source = .mark .del :: rest) :
    readLine env source = readUnlimited env source := by
  let s := Parser.State.ofTokens (tokenize source) env (lexicalFaults (tokenize source))
  have hsymbols : s.symbols = .mark .del :: rest := (symbols_ofTokens ..).trans h
  have hrun := Parser.run_of_del (some maxNesting) (Parser.kind_of_symbols hsymbols)
  exact congrArg
    (fun r : Expr × Parser.State Environment => Reading.mk r.1 r.2.diagnostics r.2.environment) hrun

/-- With the limit a line is read as it is without, or its one fault is to be nested too deeply. -/
theorem readLine_limited (env : Environment) (source : String) :
    readLine env source = readUnlimited env source ∨
      (readLine env source).expr = .error ∧ ∃ span, (readLine env source).diagnostics =
        (lexicalFaults (tokenize source)).report span .tooDeep := by
  let s := Parser.State.ofTokens (tokenize source) env (lexicalFaults (tokenize source))
  rcases Parser.run_limited (some maxNesting) s with hrun | ⟨span, herror, hdeep⟩
  · exact .inl (congrArg
      (fun r : Expr × Parser.State Environment => Reading.mk r.1 r.2.diagnostics r.2.environment)
      hrun)
  · exact .inr ⟨herror, span, hdeep⟩

/--
A line that is accepted where there is no limit is accepted alike if its tree is
no deeper than the limit, and otherwise has the one fault that it is nested too
deeply.
-/
theorem readLine_limits_depth {env : Environment} {source : String}
    (h : (readUnlimited env source).isOk) :
    ((readUnlimited env source).expr.depth ≤ maxNesting →
        readLine env source = readUnlimited env source) ∧
      (maxNesting < (readUnlimited env source).expr.depth →
        (readLine env source).expr = .error ∧
          ∃ span, (readLine env source).diagnostics.entries = [(span, .tooDeep)]) := by
  obtain ⟨st, hsymbols, hwell, hreads, hempty, hlexical⟩ := reads_readUnlimited h
  constructor
  · intro hdepth
    cases st with
    | deletion n => exact readLine_of_del hsymbols.symm
    | phrase p =>
        have hp : p.Reads false env (readUnlimited env source).expr
            (readUnlimited env source).environment := by
          cases hreads with
          | phrase hp => exact hp
        rw [hp.depth] at hdepth
        refine readLine_of_phrase (fun r => r = readUnlimited env source) hsymbols.symm hwell hdepth
          hlexical ?_
        rw [Phrase.Resolves, Phrase.resolve_of_reads hp]
        exact congrArg (fun d => Reading.mk _ d _) hempty.symm
  · intro hdepth
    rcases readLine_limited env source with hsame | ⟨herror, span, hdeep⟩
    · rw [← hsame] at h hdepth
      exact absurd (depth_readLine h) (Nat.not_le.2 hdepth)
    · rw [hlexical] at hdeep
      exact ⟨herror, span, congrArg Table.entries hdeep⟩

theorem readLine_limits_depth_of_signs :
    (readUnlimited .empty ("".pushn '-' 127 ++ "1")).isOk ∧
      readLine .empty ("".pushn '-' 127 ++ "1") = readUnlimited .empty ("".pushn '-' 127 ++ "1") ∧
      (readUnlimited .empty ("".pushn '-' 128 ++ "1")).isOk ∧
      ∃ span, (readLine .empty ("".pushn '-' 128 ++ "1")).diagnostics.entries =
        [(span, .tooDeep)] := by
  have hfits : (readUnlimited .empty ("".pushn '-' 127 ++ "1")).isOk ∧
      (readUnlimited .empty ("".pushn '-' 127 ++ "1")).expr.depth ≤ maxNesting := by
    decide +kernel
  have hdeep : (readUnlimited .empty ("".pushn '-' 128 ++ "1")).isOk ∧
      maxNesting < (readUnlimited .empty ("".pushn '-' 128 ++ "1")).expr.depth := by
    decide +kernel
  exact ⟨hfits.1, (readLine_limits_depth hfits.1).1 hfits.2, hdeep.1,
    ((readLine_limits_depth hdeep.1).2 hdeep.2).2⟩

end Calculator

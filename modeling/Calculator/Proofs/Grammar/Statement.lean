import Calculator.Proofs.Environment.Binding
import Calculator.Proofs.Parser.Soundness
import Calculator.Proofs.Token.Lexemes

/-!
# Statements

A line without faults is a deletion or a well-formed phrase, to its last symbol,
and the tree and the environment that it leads to are those of its reading.
-/

namespace Calculator

inductive Statement where
  | deletion (name : String)
  | phrase (p : Phrase)
deriving DecidableEq

namespace Statement

def symbols : Statement → List Symbol
  | deletion n => [.mark .del, .name n]
  | phrase p => p.symbols

def WellFormed : Statement → Prop
  | deletion _ => True
  | phrase p => p.WellFormed

inductive Reads : Statement → Environment → Expr → Environment → Prop
  | deletion {n env env' value} (h : env.Loses env' n value) :
      Reads (deletion n) env (.deletion n) env'
  | phrase {p env e env'} (h : p.Reads false env e env') : Reads (phrase p) env e env'

end Statement

namespace Parser

/-- From `s` to `t` the statement has been read. -/
structure ReadsStatement (limit : Option Nat) (s : State Environment) (st : Statement) (e : Expr)
    (t : State Environment) : Prop where
  symbols : s.symbols = st.symbols ++ t.symbols
  diagnostics : t.diagnostics = s.diagnostics
  reads : st.Reads s.environment e t.environment
  wellFormed : st.WellFormed
  allowed : ∀ p, st = .phrase p → allowsDepth limit p.depth

theorem reads_deletion {limit : Option Nat} {s : State Environment} (hnext : s.next.kind = .del) :
    (deletion { s with rest := s.rest.tail }).Satisfies
      (fun e t => ∃ st, ReadsStatement limit s st e t) Faulty := by
  rcases s.rest_cases with hrest | ⟨token, rest, hrest⟩
  · rw [State.next_of_nil hrest] at hnext
    cases hnext
  · rw [State.next_of_rest hrest] at hnext
    rw [hrest, List.tail_cons, satisfies_deletion]
    split
    next hname =>
      rcases State.rest_cases { s with rest := rest } with hnil | ⟨target, rest', hrest'⟩
      · rw [State.next_of_nil hnil] at hname
        cases hname
      · rw [State.next_of_rest hrest'] at hname ⊢
        rw [satisfies_commit_remove]
        split
        next =>
          split
          next env hremove =>
            obtain ⟨value, hloses⟩ := Environment.remove_eq_ok hremove
            refine ⟨.deletion target.lexeme, ⟨?_, rfl, .deletion hloses, trivial, ?_⟩⟩
            · rw [State.symbols_of_rest hrest, Token.symbol_of_mark hnext (by simp) (by simp),
                State.symbols_of_rest hrest', Token.symbol_of_identifier hname]
              have htail : rest.tail = rest' := congrArg List.tail hrest'
              rw [htail]
              rfl
            · intro p hp
              cases hp
          next => exact faulty_report ..
        next hfaulty => exact Bool.eq_false_iff.2 hfaulty
    next => exact faulty_report ..

theorem reads_statement (limit : Option Nat) {s : State Environment} (hs : s.inBody = false) :
    (statement limit s).Satisfies (fun e t => ∃ st, ReadsStatement limit s st e t) Faulty := by
  rw [satisfies_statement]
  split
  next hnext => exact reads_deletion hnext
  next =>
    refine ((readsPhrases limit s).expr 0).imp (fun node t ht => ?_) fun _ => id
    obtain ⟨p, hp, -, -⟩ := ht
    have hreads := hp.reads
    rw [hs] at hreads
    refine ⟨.phrase p, ⟨hp.symbols, hp.follows.diagnostics, .phrase hreads, hp.wellFormed, ?_⟩⟩
    rintro _ ⟨⟩
    exact hp.allowed

/-- A run without a fault has read a statement, and nothing is left over. -/
theorem reads_run {limit : Option Nat} {s : State Environment} (hs : s.inBody = false)
    (h : (run limit s).2.diagnostics.isEmpty) :
    ∃ st, ReadsStatement limit s st (run limit s).1 (run limit s).2 ∧
      s.symbols = st.symbols := by
  have hreads := reads_statement limit hs
  unfold run at h ⊢
  cases hstatement : statement limit s with
  | abort t =>
      rw [hstatement] at hreads h
      exact absurd h (Bool.eq_false_iff.1 hreads)
  | ok e t hbound =>
      rw [hstatement] at hreads h
      obtain ⟨st, hst⟩ := hreads
      dsimp only at h ⊢
      split
      next hrest =>
        refine ⟨st, hst, ?_⟩
        rw [hst.symbols, State.symbols, List.isEmpty_iff.1 hrest]
        simp
      next hrest =>
        rw [if_neg hrest] at h
        exact absurd h (Bool.eq_false_iff.1 (faulty_report ..))

end Parser

/-- A line without faults is read as the statement that its symbols are. -/
theorem reads_readLine {env : Environment} {source : String} (h : (readLine env source).isOk) :
    ∃ st : Statement, st.symbols = symbolsOf source ∧ st.WellFormed ∧
      st.Reads env (readLine env source).expr (readLine env source).environment ∧
      (∀ p, st = .phrase p → p.depth ≤ maxNesting) ∧ lexicalFaults (tokenize source) = .empty := by
  obtain ⟨st, hst, hsymbols⟩ := Parser.reads_run rfl h
  refine ⟨st, ?_, hst.wellFormed, hst.reads, ?_, ?_⟩
  · rw [← hsymbols, symbols_ofTokens]
  · intro p hp
    simpa [allowsDepth] using hst.allowed p hp
  · have hempty : (lexicalFaults (tokenize source)).isEmpty := by
      have hd : (readLine env source).diagnostics = lexicalFaults (tokenize source) :=
        hst.diagnostics
      rw [← hd]
      exact h
    exact Table.ext (List.isEmpty_iff.1 hempty)

end Calculator

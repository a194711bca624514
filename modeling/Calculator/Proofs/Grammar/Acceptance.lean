import Calculator.Proofs.Grammar.Statement
import Calculator.Proofs.Parser.Completeness

/-!
# Accepted lines

A line whose symbols are those of a well-formed phrase is read as the phrase, or
has the one fault that the reading of the phrase has.
-/

namespace Calculator

theorem Phrase.ne_del_of_symbols {p : Phrase} {x : Symbol} {xs : List Symbol}
    (h : p.symbols = x :: xs) : x ≠ .mark .del := by
  induction p generalizing x xs with
  | factorial p ih =>
      rcases List.append_eq_cons_iff.1 h with ⟨-, hbang⟩ | ⟨ys, hp, -⟩
      · cases hbang
        simp
      · exact ih hp
  | binary l op r ihl ihr =>
      rcases List.append_eq_cons_iff.1 h with ⟨-, hop⟩ | ⟨ys, hl, -⟩
      · cases hop
        cases op <;> simp [BinaryOp.kind]
      · exact ihl hl
  | product l p ihl ih =>
      rcases List.append_eq_cons_iff.1 h with ⟨-, hparen⟩ | ⟨ys, hl, -⟩
      · cases hparen
        simp
      · exact ihl hl
  | _ =>
      cases h
      simp

namespace Parser

variable {limit : Option Nat} {s : State Environment} {p : Phrase}

theorem next_ne_del (hs : s.symbols = p.symbols) : s.next.kind ≠ .del := by
  intro hk
  rcases s.rest_cases with hrest | ⟨token, rest, hrest⟩
  · rw [State.next_of_nil hrest] at hk
    cases hk
  · rw [State.next_of_rest hrest] at hk
    rw [State.symbols_of_rest hrest, Token.symbol_of_mark hk (by simp) (by simp)] at hs
    exact Phrase.ne_del_of_symbols hs.symm rfl

theorem statement_of_phrase {onOk : Expr → State Environment → Prop}
    {onAbort : State Environment → Prop}
    (hs : s.symbols = p.symbols) (hwell : p.WellFormed)
    (hallowed : allowsDepth limit (s.nesting + p.depth)) (faultless : s.diagnostics.isEmpty)
    (hres : p.Resolves s.inBody s.environment
      (fun e env => onOk e { s with rest := [], environment := env })
      (Aborts onAbort s.diagnostics)) :
    (statement limit s).Satisfies onOk onAbort := by
  rw [satisfies_statement, if_neg (next_ne_del hs)]
  exact Complete.expr (complete limit p) ⟨⟨s.rest, (List.append_nil _).symm, hs⟩, hwell,
    Phrase.endsBefore_of_closes ⟨rfl, Nat.le_refl 0⟩, hallowed, faultless⟩
    (fun op _ => op.precedence_pos) ⟨rfl, Nat.le_refl 0⟩
    (hres.imp (fun e env _ he span => he) fun _ => id)

theorem satisfies_run (holds : Expr × State Environment → Prop)
    (h : (statement limit s).Satisfies (fun e t => t.rest = [] ∧ holds (e, t))
      fun t => holds (.error, t)) : holds (run limit s) := by
  unfold run
  cases hstatement : statement limit s with
  | abort t =>
      rw [hstatement] at h
      exact h
  | ok e t _ =>
      rw [hstatement] at h
      dsimp only
      rw [if_pos (by rw [h.1]; rfl)]
      exact h.2

end Parser

/-- A line that is a phrase leads where the reading of the phrase does. -/
theorem readLine_of_phrase {env : Environment} {source : String} {p : Phrase}
    (holds : Reading → Prop) (hsymbols : symbolsOf source = p.symbols) (hwell : p.WellFormed)
    (hdepth : p.depth ≤ maxNesting) (hlexical : lexicalFaults (tokenize source) = .empty)
    (hres : p.Resolves false env (fun e env' => holds ⟨e, .empty, env'⟩)
      fun fault => ∀ span env', holds ⟨.error, Diagnostics.report .empty span fault, env'⟩) :
    holds (readLine env source) := by
  unfold readLine readTokens
  dsimp only
  rw [hlexical]
  refine Parser.satisfies_run (fun r => holds ⟨r.1, r.2.diagnostics, r.2.environment⟩)
    (Parser.statement_of_phrase ((symbols_ofTokens source env .empty).trans hsymbols) hwell ?_ rfl
      (hres.imp (fun e env' _ he => ⟨rfl, he⟩) fun fault hfault t span ht => ?_))
  · change allowsDepth (some maxNesting) (0 + p.depth)
    simpa [allowsDepth] using hdepth
  · change t.diagnostics = Diagnostics.report .empty span fault at ht
    rw [ht]
    exact hfault span _

end Calculator

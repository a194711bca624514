import Calculator.Proofs.Environment.Binding
import Calculator.Proofs.Grammar.Acceptance
import Calculator.Proofs.Token.Spelling

/-!
# Function bodies

The body of a function is read with its parameter left open. Read again where
the parameter is a variable, it has the value that a call gives the body, unless
a factorial is then taken of what is not a natural number.
-/

namespace Calculator

namespace Phrase

section Bound

variable {env : Environment} {a : Binary64}

theorem ofName?_parameterName : Builtin.ofName? parameterName = none := by
  decide

/-- A call gives the parameter's value where the variable has it. -/
theorem readName_assign {n : String} {e : Expr} (h : readName true env n = .ok e) :
    ∃ d, readName false (env.assign parameterName a) n = .ok d ∧
      ∀ y, d.evaluateWith y = e.evaluateWith a := by
  by_cases hn : n = parameterName
  · subst hn
    simp only [readName, and_self, if_true, Except.ok.injEq] at h
    subst h
    refine ⟨.literal a, ?_, fun _ => rfl⟩
    simp [readName, Environment.lookup_assign_self ofName?_parameterName]
  · refine ⟨e, ?_, fun y => ?_⟩
    · simpa [readName, hn, Environment.lookup_assign_of_ne hn] using h
    · rcases tree_of_readName h with rfl | ⟨value, rfl⟩
      · simp only [readName, hn, and_false, if_false] at h
        split at h <;> cases h
      · rfl

theorem readCallee_assign {n : String} {apply : Expr → Expr}
    (hx : env.bodyOf? parameterName = none) (h : readCallee true env n = .ok apply) :
    readCallee false (env.assign parameterName a) n = .ok apply := by
  have hne : n ≠ parameterName := by
    rintro rfl
    rcases apply_of_readCallee h with ⟨f, hlookup, -⟩ | ⟨body, hlookup, -⟩
    · rcases Environment.lookup_eq_some hlookup with ⟨builtin, hn, -⟩ | ⟨-, b, -, hbinding⟩
      · rw [ofName?_parameterName] at hn
        cases hn
      · cases b <;> cases hbinding
    · have hget := (Environment.bound_of_lookup (b := .defined body) hlookup).2
      rw [Environment.bodyOf?_eq_some_iff.2 hget] at hx
      cases hx
  have hlookup : (env.assign parameterName a).lookup n = env.lookup n :=
    Environment.lookup_assign_of_ne hne a
  simpa [readCallee, hne, Parser.callee?, hlookup] using h

theorem evaluateWith_of_readCallee {inBody : Bool} {n : String} {apply : Expr → Expr}
    (h : readCallee inBody env n = .ok apply) {e d : Expr} {x y : Binary64}
    (hed : d.evaluateWith y = e.evaluateWith x) :
    (apply d).evaluateWith y = (apply e).evaluateWith x := by
  rcases apply_of_readCallee h with ⟨f, -, rfl⟩ | ⟨body, -, rfl⟩ <;> simp [Expr.evaluateWith, hed]

/-- The two readings of a body agree part by part. -/
theorem Reads.resolves_assign {p : Phrase} {env' : Environment} {e : Expr}
    (hx : env.bodyOf? parameterName = none) (h : p.Reads true env e env') :
    p.Resolves false (env.assign parameterName a)
      (fun d env'' => env'' = env.assign parameterName a ∧ ∀ y, d.evaluateWith y = e.evaluateWith a)
      (· = .nonNaturalFactorial) := by
  generalize hb : true = inBody at h
  induction h with
  | number => exact ⟨rfl, fun _ => rfl⟩
  | name hn =>
      subst hb
      obtain ⟨d, hd, heval⟩ := readName_assign (a := a) hn
      rw [resolves_name, hd]
      exact ⟨rfl, heval⟩
  | neg h ih =>
      rw [resolves_neg]
      refine (ih hx hb).imp (fun d env'' _ hd => ⟨hd.1, fun y => ?_⟩) fun _ => id
      simp [Expr.evaluateWith, hd.2]
  | factorial h natural ih =>
      rw [resolves_factorial]
      refine (ih hx hb).imp (fun d env'' _ hd => ?_) fun _ => id
      split
      · refine ⟨hd.1, fun y => ?_⟩
        simp [Expr.evaluateWith, hd.2]
      · rfl
  | @binary l op r b env e env₁ d env₂ hl hr ihl ihr =>
      subst hb
      cases hl.environment_of_inBody
      rw [resolves_binary]
      refine (ihl hx rfl).imp (fun e' env'' _ he => ?_) fun _ => id
      cases he.1
      refine (ihr hx rfl).imp (fun d' env'' _ hd => ⟨hd.1, fun y => ?_⟩) fun _ => id
      simp [Expr.evaluateWith, he.2, hd.2]
  | @product l p b env e env₁ d env₂ hl h ihl ih =>
      subst hb
      cases hl.environment_of_inBody
      rw [resolves_product]
      refine (ihl hx rfl).imp (fun e' env'' _ he => ?_) fun _ => id
      cases he.1
      refine (ih hx rfl).imp (fun d' env'' _ hd => ⟨hd.1, fun y => ?_⟩) fun _ => id
      simp [Expr.evaluateWith, he.2, hd.2]
  | grouping h ih =>
      rw [resolves_grouping]
      refine (ih hx hb).imp (fun d env'' _ hd => ⟨hd.1, fun y => ?_⟩) fun _ => id
      simp [Expr.evaluateWith, hd.2]
  | call hn h ih =>
      subst hb
      rw [resolves_call, readCallee_assign hx hn]
      refine (ih hx rfl).imp (fun d env'' _ hd => ⟨hd.1, fun y => ?_⟩) fun _ => id
      exact evaluateWith_of_readCallee hn (hd.2 y)
  | assignment => cases hb
  | definition => cases hb

end Bound

/-! ## Definitions -/

theorem symbols_ne_nil (p : Phrase) : p.symbols ≠ [] := by
  cases p <;> simp [symbols]

theorem begins_of_append {p : Phrase} {n : String} {k : TokenKind} {x : Symbol}
    {xs rest : List Symbol} (h : p.symbols ++ x :: xs = .name n :: .mark k :: rest)
    (hx : x ≠ .mark k) : ∃ ys, p.symbols = .name n :: .mark k :: ys := by
  cases hp : p.symbols with
  | nil => exact absurd hp p.symbols_ne_nil
  | cons y ys =>
      rw [hp] at h
      cases ys with
      | nil =>
          cases h
          exact absurd rfl hx
      | cons z zs =>
          cases h
          exact ⟨zs, rfl⟩

/-- A line that begins as a definition is nothing else. -/
theorem WellFormed.eq_definition {p : Phrase} {n : String} {rest : List Symbol}
    (hwell : p.WellFormed) (h : p.symbols = .name n :: .mark .colon :: rest) :
    ∃ body, p = .definition n body ∧ body.symbols = rest ∧ body.WellFormed := by
  induction p generalizing rest with
  | factorial p ih =>
      obtain ⟨ys, hys⟩ := begins_of_append h (by simp)
      obtain ⟨body, rfl, -, -⟩ := ih hwell.1 hys
      cases hwell.2.1
  | binary l op r ihl _ =>
      obtain ⟨ys, hys⟩ := begins_of_append h (by cases op <;> simp [BinaryOp.kind])
      obtain ⟨body, rfl, -, -⟩ := ihl hwell.1 hys
      have hzero := hwell.2.1.2.1
      rw [op.precedence_kind] at hzero
      exact absurd hzero (Nat.ne_of_gt op.precedence_pos)
  | product l p ihl _ =>
      obtain ⟨ys, hys⟩ := begins_of_append h (by simp)
      obtain ⟨body, rfl, -, -⟩ := ihl hwell.1 hys
      cases hwell.2.1.1
  | definition m body _ =>
      cases h
      exact ⟨body, rfl, rfl, hwell⟩
  | _ => cases h

end Phrase

theorem lexemes_definition {f : String} (hf : IsIdentifier f) (body : String) :
    lexemes (f ++ ":" ++ body).toList =
      ⟨.identifier, f.toList⟩ :: ⟨.colon, [':']⟩ :: lexemes body.toList := by
  have hkind : wordKind (String.ofList f.toList) = .identifier := by
    simp [wordKind, hf.ne_del]
  have hstop : StopsAt isWordChar (':' :: body.toList) := by
    rintro c ⟨⟩
    decide
  have htext : (f ++ ":" ++ body).toList = f.toList ++ ':' :: body.toList := by
    simp
  rw [htext, lexemes_word hf.ne_nil hf.word hstop, lexemes_punctuation rfl, hkind]

theorem symbolsOf_definition {f : String} (hf : IsIdentifier f) (body : String) :
    symbolsOf (f ++ ":" ++ body) = .name f :: .mark .colon :: symbolsOf body := by
  rw [symbolsOf_eq, lexemes_definition hf, symbolsOf_eq]
  simp [Lexeme.symbol]

theorem lexicalFaults_of_definition {f : String} (hf : IsIdentifier f) {body : String}
    (h : lexicalFaults (tokenize (f ++ ":" ++ body)) = .empty) :
    lexicalFaults (tokenize body) = .empty := by
  rw [lexicalFaults_eq_empty_iff, lexemes_definition hf] at h
  rw [lexicalFaults_eq_empty_iff]
  exact fun l hl => h l (List.mem_cons_of_mem _ (List.mem_cons_of_mem _ hl))

/-- A body that is read where the name is free defines the name, and nothing else changes. -/
theorem readLine_definition {env : Environment} {f body : String} {p : Phrase} {e : Expr}
    (hf : IsIdentifier f) (hspelled : Spelled body.toList p.symbols) (hwell : p.WellFormed)
    (hdepth : p.depth < maxNesting) (hreads : p.Reads true env e env)
    (fresh : env.contains f = false) :
    readLine env (f ++ ": " ++ body) =
      ⟨.definition f e, .empty, ⟨env.bindings.insert f (.defined e)⟩⟩ := by
  have hline : Spelled (f ++ ": " ++ body).toList (Phrase.definition f p).symbols := by
    have htext : (f ++ ": " ++ body).toList = f.toList ++ ':' :: ' ' :: body.toList := by
      simp
    rw [htext]
    exact (spelled_word hf).append (hspelled.blank.sign rfl (by decide)) (boundary_cons rfl _)
  obtain ⟨hsymbols, hlexical⟩ := symbolsOf_of_spelled hline
  have hdefinition := Phrase.Reads.definition fresh hreads (Environment.bind_eq_ok.2 ⟨fresh, rfl⟩)
  refine readLine_of_phrase
    (fun r => r = ⟨.definition f e, .empty, ⟨env.bindings.insert f (.defined e)⟩⟩)
    hsymbols hwell hdepth hlexical ?_
  rw [Phrase.Resolves, Phrase.resolve_of_reads hdefinition]

/--
Where a definition of a function is accepted, its body by itself is accepted in
a copy of the environment whose variable of the parameter's name has a value,
and evaluates to what the function gives for that value. All that can be wrong
with it is a factorial of what is not a natural number.
-/
theorem readLine_body_of_definition {env : Environment} {f body : String} (a : Binary64)
    (hx : env.bodyOf? parameterName = none) (hf : IsIdentifier f)
    (h : (readLine env (f ++ ":" ++ body)).isOk) :
    ∃ e, (readLine env (f ++ ":" ++ body)).environment.bodyOf? f = some e ∧
      ((readLine (env.assign parameterName a) body).isOk ∧
          (readLine (env.assign parameterName a) body).expr.evaluate = e.evaluateWith a ∨
        ∃ span, (readLine (env.assign parameterName a) body).diagnostics.entries =
          [(span, .nonNaturalFactorial)]) := by
  obtain ⟨st, hsymbols, hwell, hreads, hdepth, hlexical⟩ := reads_readLine h
  rw [symbolsOf_definition hf] at hsymbols
  cases st with
  | deletion n => cases hsymbols
  | phrase p =>
      obtain ⟨q, rfl, hq, hqwell⟩ := Phrase.WellFormed.eq_definition hwell hsymbols
      have hqdepth : q.depth + 1 ≤ maxNesting := hdepth _ rfl
      cases hreads with
      | phrase hp =>
          generalize (readLine env (f ++ ":" ++ body)).environment = env' at hp ⊢
          generalize (readLine env (f ++ ":" ++ body)).expr = tree at hp
          cases hp with
          | @definition _ _ _ e _ _ fresh hbody hdefine =>
              refine ⟨e, ?_, ?_⟩
              · simp [Environment.bodyOf?, Environment.get?_of_bind hdefine]
              · refine readLine_of_phrase
                  (fun r => r.isOk ∧ r.expr.evaluate = e.evaluateWith a ∨
                    ∃ span, r.diagnostics.entries = [(span, .nonNaturalFactorial)])
                  hq.symm hqwell (by omega)
                  (lexicalFaults_of_definition hf hlexical)
                  ((hbody.resolves_assign hx).imp (fun d env'' _ hd => ?_) fun fault hfault => ?_)
                · exact .inl ⟨rfl, hd.2 _⟩
                · subst hfault
                  exact fun span env'' => .inr ⟨span, rfl⟩

theorem readLine_body_of_definition_of_factorial :
    Environment.empty.bodyOf? parameterName = none ∧ IsIdentifier "f" ∧
      (readLine .empty ("f" ++ ":" ++ "x! + 2(x)")).isOk ∧
      ∃ e, (readLine .empty ("f" ++ ":" ++ "x! + 2(x)")).environment.bodyOf? "f" = some e ∧
        ((readLine (Environment.empty.assign parameterName (.zero true)) "x! + 2(x)").isOk ∧
            (readLine (Environment.empty.assign parameterName (.zero true))
              "x! + 2(x)").expr.evaluate = e.evaluateWith (.zero true) ∨
          ∃ span, (readLine (Environment.empty.assign parameterName (.zero true))
            "x! + 2(x)").diagnostics.entries = [(span, .nonNaturalFactorial)]) := by
  have hx : Environment.empty.bodyOf? parameterName = none := by decide
  have hf : IsIdentifier "f" :=
    ⟨by decide, (List.forall_mem_singleton (a := 'f')).2 (by decide), by decide⟩
  have h : (readLine .empty ("f" ++ ":" ++ "x! + 2(x)")).isOk := by decide +kernel
  exact ⟨hx, hf, h, readLine_body_of_definition (.zero true) hx hf h⟩

end Calculator

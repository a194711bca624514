import Calculator.Proofs.Environment.Effect
import Calculator.Proofs.Parser.Steps

/-!
# What a line leaves as it was

Whether or not a line has faults, what is bound before it stays bound to the
same, except for a variable that the line begins by deleting.
-/

namespace Calculator

namespace Environment

variable {env env' env'' : Environment} {n : String}

def Keeps (env env' : Environment) : Prop :=
  ∀ n b, env.bindings.get? n = some b → env'.bindings.get? n = some b

theorem Keeps.refl (env : Environment) : env.Keeps env :=
  fun _ _ h => h

theorem Keeps.trans (h : env.Keeps env') (h' : env'.Keeps env'') : env.Keeps env'' :=
  fun n b hn => h' n b (h n b hn)

theorem keeps_of_bind {b : UserBinding} (h : env.bind n b = .ok env') : env.Keeps env' := by
  intro m c hm
  have fresh := contains_eq_false_iff.1 (bind_eq_ok.1 h).1
  have hne : m ≠ n := by
    rintro rfl
    rw [fresh.2] at hm
    cases hm
  rw [get?_of_bind h, if_neg hne]
  exact hm

theorem keeps_of_declarations {limit : Option Nat}
    (h : Relation.ReflTransGen (Declares limit) env env') : env.Keeps env' := by
  induction h with
  | refl => exact .refl env
  | tail _ hdeclares ih =>
      obtain ⟨n, b, bound⟩ := hdeclares.bind
      exact ih.trans (keeps_of_bind bound)

theorem Keeps.valueOf? {value : Binary64} (h : env.Keeps env')
    (hn : env.valueOf? n = some value) : env'.valueOf? n = some value :=
  valueOf?_eq_some_iff.2 (h n _ (valueOf?_eq_some_iff.1 hn))

theorem Keeps.bodyOf? {body : Expr} (h : env.Keeps env') (hn : env.bodyOf? n = some body) :
    env'.bodyOf? n = some body :=
  bodyOf?_eq_some_iff.2 (h n _ (bodyOf?_eq_some_iff.1 hn))

/-- The symbols begin as the deletion of a variable, and all else stays as it is. -/
def Deletes (symbols : List Symbol) (env env' : Environment) : Prop :=
  ∃ n value rest, symbols = .mark .del :: .name n :: rest ∧ env.Loses env' n value

section Deletes

variable {symbols : List Symbol}

theorem Deletes.valueOf? {value : Binary64} (h : Deletes symbols env env')
    (hn : env.valueOf? n = some value) :
    env'.valueOf? n = some value ∨ env'.contains n = false := by
  obtain ⟨m, _, _, -, hloses⟩ := h
  by_cases hm : n = m
  · right
    rw [hm, contains_eq_false_iff_lookup, hloses.unbound]
  · left
    rw [valueOf?_eq_some_iff, hloses.get?, if_neg hm]
    exact valueOf?_eq_some_iff.1 hn

theorem Deletes.bodyOf? {body : Expr} (h : Deletes symbols env env')
    (hn : env.bodyOf? n = some body) : env'.bodyOf? n = some body := by
  obtain ⟨m, value, _, -, hloses⟩ := h
  have hbody := bodyOf?_eq_some_iff.1 hn
  have hne : n ≠ m := by
    rintro rfl
    have hvalue := (bound_of_lookup (b := .assigned value) hloses.bound).2
    rw [hbody] at hvalue
    cases hvalue
  rw [bodyOf?_eq_some_iff, hloses.get?, if_neg hne]
  exact hbody

end Deletes

end Environment

namespace Parser

namespace State

variable {limit : Option Nat} {s t : State Environment}

theorem Step.declares_environment (h : s.Step limit t) :
    t.environment = s.environment ∨ s.environment.Declares limit t.environment := by
  cases h with
  | declares _ h => exact .inr h
  | _ => exact .inl rfl

/-- Where a fault has been found, no name is declared any more. -/
theorem Step.environment_of_faulty (h : s.Step limit t) (hs : s.diagnostics.isEmpty = false) :
    t.environment = s.environment := by
  cases h with
  | declares faultless _ =>
      rw [hs] at faultless
      cases faultless
  | _ => rfl

theorem Reaches.declares (h : s.Reaches limit t) :
    Relation.ReflTransGen (Environment.Declares limit) s.environment t.environment := by
  induction h with
  | refl => exact .refl
  | tail _ hstep ih =>
      rcases hstep.declares_environment with hsame | hdeclares
      · rw [hsame]
        exact ih
      · exact ih.tail hdeclares

theorem Reaches.environment_of_faulty (h : s.Reaches limit t) (hs : s.diagnostics.isEmpty = false) :
    t.environment = s.environment := by
  induction h with
  | refl => rfl
  | tail hreaches hstep ih =>
      have hfaulty := hs
      rw [← Reaches.diagnostics hreaches] at hfaulty
      exact (hstep.environment_of_faulty hfaulty).trans ih

theorem Stops.environment (h : s.Stops t) : t.environment = s.environment := by
  cases h <;> rfl

theorem Stops.faulty (h : s.Stops t) : t.diagnostics.isEmpty = false := by
  cases h with
  | report span _ => exact Diagnostics.isEmpty_report ..
  | earlier hs => exact hs

/-- What is true of the state after a line, if this is the state before it. -/
structure Leaves (s t : State Environment) : Prop where
  gated : s.diagnostics.isEmpty = false →
    t.diagnostics.isEmpty = false ∧ t.environment = s.environment
  environment : s.environment.Keeps t.environment ∨
    Environment.Deletes s.symbols s.environment t.environment

/-- What is true of the state after a line in more detail: how the environment has come about. -/
structure Ends (limit : Option Nat) (s t : State Environment) : Prop where
  gated : s.diagnostics.isEmpty = false →
    t.diagnostics.isEmpty = false ∧ t.environment = s.environment
  changes : Relation.ReflTransGen (Environment.Declares limit) s.environment t.environment ∨
    Environment.Deletes s.symbols s.environment t.environment

theorem Ends.leaves (h : s.Ends limit t) : s.Leaves t :=
  ⟨h.gated, h.changes.imp_left Environment.keeps_of_declarations⟩

theorem Reaches.ends (h : s.Reaches limit t) : s.Ends limit t := by
  refine ⟨fun hs => ⟨?_, h.environment_of_faulty hs⟩, .inl h.declares⟩
  rw [h.diagnostics]
  exact hs

theorem Fails.ends (h : s.Fails limit t) : s.Ends limit t := by
  obtain ⟨u, hu, hstops⟩ := h
  refine ⟨fun hs => ⟨hstops.faulty, ?_⟩, .inl ?_⟩
  · exact hstops.environment.trans (hu.environment_of_faulty hs)
  · rw [hstops.environment]
    exact hu.declares

theorem Ends.report (h : s.Ends limit t) (span : Span) (fault : Fault) :
    s.Ends limit (t.report span fault) :=
  ⟨fun hs => ⟨Diagnostics.isEmpty_report .., (h.gated hs).2⟩, h.changes⟩

end State

variable {limit : Option Nat} {s : State Environment}

theorem deletes_of_remove {token target : Token} {rest : List Token} {env : Environment}
    (hrest : s.rest = token :: target :: rest) (hdel : token.kind = .del)
    (hname : target.kind = .identifier)
    (hremove : (s.environment.remove target.lexeme).map (·.2) = .ok env) :
    Environment.Deletes s.symbols s.environment env := by
  obtain ⟨value, hloses⟩ := Environment.remove_eq_ok hremove
  have hsymbols : s.symbols =
      .mark .del :: .name target.lexeme :: rest.map Token.symbol := by
    rw [State.symbols, hrest, List.map_cons, List.map_cons,
      Token.symbol_of_mark hdel (by simp) (by simp), Token.symbol_of_identifier hname]
  exact ⟨target.lexeme, value, _, hsymbols, hloses⟩

theorem ends_deletion (hnext : s.next.kind = .del) :
    (deletion { s with rest := s.rest.tail }).Satisfies (fun _ t => s.Ends limit t)
      (s.Ends limit) := by
  rcases s.rest_cases with hrest | ⟨token, rest, hrest⟩
  · rw [State.next_of_nil hrest] at hnext
    cases hnext
  · rw [State.next_of_rest hrest] at hnext
    have hread : s.Reaches limit { s with rest := rest } := .single (.read hrest)
    rw [hrest, List.tail_cons, satisfies_deletion]
    rcases State.rest_cases { s with rest := rest } with hnil | ⟨target, rest', hrest'⟩
    · rw [State.next_of_nil hnil, if_neg (by simp)]
      have hends : s.Ends limit { s with rest := rest.tail } := ⟨fun hs => ⟨hs, rfl⟩, .inl .refl⟩
      exact hends.report ..
    · have hends : s.Ends limit { s with rest := rest' } := (hread.read hrest').ends
      have htail : rest.tail = rest' := congrArg List.tail hrest'
      rw [State.next_of_rest hrest', htail]
      split
      next hname =>
        rw [satisfies_commit_remove]
        split
        next faultless =>
          split
          next env hremove =>
            have hrest' : rest = target :: rest' := hrest'
            rw [hrest'] at hrest
            have hdeletes := deletes_of_remove hrest hnext hname hremove
            refine ⟨fun hs => ?_, .inr hdeletes⟩
            rw [hs] at faultless
            cases faultless
          next => exact hends.report ..
        next => exact hends
      next => exact hends.report ..

theorem ends_statement (limit : Option Nat) (s : State Environment) :
    (statement limit s).Satisfies (fun _ t => s.Ends limit t) (s.Ends limit) := by
  rw [satisfies_statement]
  split
  next hnext => exact ends_deletion hnext
  next =>
    have hexpr := (stepsOn limit s).expr .refl 0
    exact Outcome.Satisfies.imp hexpr (fun node t ht => ht.ends) fun t ht => ht.ends

theorem ends_run (limit : Option Nat) (s : State Environment) : s.Ends limit (run limit s).2 := by
  have hstatement := ends_statement limit s
  unfold run
  cases hs : statement limit s with
  | abort t =>
      rw [hs] at hstatement
      exact hstatement
  | ok e t _ =>
      rw [hs] at hstatement
      dsimp only
      split
      · exact hstatement
      · exact (Outcome.satisfies_ok.1 hstatement).report ..

theorem leaves_run (limit : Option Nat) (s : State Environment) : s.Leaves (run limit s).2 :=
  (ends_run limit s).leaves

end Parser

/-- A line declares one name after another, or it is the deletion of a variable. -/
theorem readLine_changes (env : Environment) (source : String) :
    Relation.ReflTransGen (Environment.Declares (some maxNesting)) env
        (readLine env source).environment ∨
      Environment.Deletes (symbolsOf source) env (readLine env source).environment := by
  let s := Parser.State.ofTokens (tokenize source) env (lexicalFaults (tokenize source))
  have hsymbols : s.symbols = symbolsOf source := symbols_ofTokens ..
  have hchanges := (Parser.ends_run (some maxNesting) s).changes
  rw [hsymbols] at hchanges
  exact hchanges

/--
A line with a fault in one of its tokens changes nothing. Any other line, with
or without faults, keeps what is bound, unless it begins as the deletion of a
variable, and then that is all it changes. So no variable comes to have another
value, and no function is changed or removed.
-/
theorem readLine_keeps_bindings (env : Environment) (source : String) :
    (lexicalFaults (tokenize source) ≠ .empty →
        (readLine env source).isOk = false ∧ (readLine env source).environment = env) ∧
      (env.Keeps (readLine env source).environment ∨
        Environment.Deletes (symbolsOf source) env (readLine env source).environment) ∧
      (∀ n value, env.valueOf? n = some value →
        (readLine env source).environment.valueOf? n = some value ∨
          (readLine env source).environment.contains n = false) ∧
      ∀ n body, env.bodyOf? n = some body →
        (readLine env source).environment.bodyOf? n = some body := by
  let s := Parser.State.ofTokens (tokenize source) env (lexicalFaults (tokenize source))
  have hsymbols : s.symbols = symbolsOf source := symbols_ofTokens ..
  have hleaves : s.Leaves (Parser.run (some maxNesting) s).2 := Parser.leaves_run ..
  have hchange := hleaves.environment
  rw [hsymbols] at hchange
  refine ⟨fun hlexical => hleaves.gated ?_, hchange, fun n value hn => ?_, fun n body hn => ?_⟩
  · exact Bool.eq_false_iff.2 fun hempty => hlexical (Table.ext (List.isEmpty_iff.1 hempty))
  · rcases hchange with hkeeps | hdeletes
    · exact .inl (hkeeps.valueOf? hn)
    · exact hdeletes.valueOf? hn
  · rcases hchange with hkeeps | hdeletes
    · exact hkeeps.bodyOf? hn
    · exact hdeletes.bodyOf? hn

theorem readLine_keeps_bindings_of_late_fault :
    lexicalFaults (tokenize "y = 1 + (z = 2) 3..") ≠ .empty ∧
      (readLine .empty "y = 1 + (z = 2) 3..").isOk = false ∧
      (readLine .empty "y = 1 + (z = 2) 3..").environment = .empty := by
  have hlexical : lexicalFaults (tokenize "y = 1 + (z = 2) 3..") ≠ .empty := by decide +kernel
  exact ⟨hlexical, (readLine_keeps_bindings .empty "y = 1 + (z = 2) 3..").1 hlexical⟩

end Calculator

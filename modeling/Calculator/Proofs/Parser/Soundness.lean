import Calculator.Proofs.Parser.Calculus

/-!
# What the rules read

Whatever a rule arrives at, the tokens it has read are those of a well-formed
phrase, and the tree and the environment are the phrase's own.
-/

namespace Calculator

namespace Parser

/-- A later state of the same line, in the same body. -/
structure State.Follows (t s : State Environment) : Prop where
  stop : t.stop = s.stop
  diagnostics : t.diagnostics = s.diagnostics
  inBody : t.inBody = s.inBody
  nesting : t.nesting = s.nesting

theorem State.Follows.skip {s t : State Environment} {rest : List Token} (h : t.Follows s) :
    State.Follows { t with rest := rest } s :=
  ⟨h.stop, h.diagnostics, h.inBody, h.nesting⟩

theorem State.Follows.trans {s t u : State Environment} (h : u.Follows t) (h' : t.Follows s) :
    u.Follows s :=
  ⟨h.stop.trans h'.stop, h.diagnostics.trans h'.diagnostics, h.inBody.trans h'.inBody,
    h.nesting.trans h'.nesting⟩

theorem allowsDepth_mono {limit : Option Nat} {d e : Nat} (h : allowsDepth limit e) (hde : d ≤ e) :
    allowsDepth limit d := by
  cases limit with
  | none => rfl
  | some most =>
      simp only [allowsDepth, decide_eq_true_eq] at h ⊢
      omega

/-- From `s` to `t` the phrase has been read, with the node as its tree. -/
structure Read (limit : Option Nat) (s : State Environment) (p : Phrase) (node : Node)
    (t : State Environment) :
    Prop where
  symbols : s.symbols = p.symbols ++ t.symbols
  follows : t.Follows s
  reads : p.Reads s.inBody s.environment node.expr t.environment
  wellFormed : p.WellFormed
  endsBefore : p.EndsBefore t.next.kind
  depth : node.depth = p.depth
  allowed : allowsDepth limit p.depth

/--
What has been read when it is to be continued: a phrase, or a name alone, which
the next token makes a call or a declaration.
-/
inductive Begun (limit : Option Nat) (s : State Environment) (node : Node)
    (t : State Environment) : Phrase → Prop
  | phrase {p : Phrase} (h : Read limit s p node t) : Begun limit s node t p
  | name {n : String} (symbols : s.symbols = .name n :: t.symbols) (follows : t.Follows s)
      (environment : t.environment = s.environment) (expr : node.expr = .name n)
      (next : t.next.kind = .leftParen ∨ t.next.kind = .equals ∨ t.next.kind = .colon) :
      Begun limit s node t (.name n)

def ReadsUnit (limit : Option Nat) (s : State Environment) (node : Node)
    (t : State Environment) : Prop :=
  ∃ p, Read limit s p node t ∧ p.operator? = none

def ReadsAbove (limit : Option Nat) (floor : Nat) (s : State Environment) (node : Node)
    (t : State Environment) : Prop :=
  ∃ p, Read limit s p node t ∧ p.Above floor ∧ t.next.kind.Closes floor

def ReadsEnclosed (s : State Environment) (e : Expr) (depth : Nat) (t : State Environment) : Prop :=
  ∃ p : Phrase, s.symbols = p.symbols ++ .mark .rightParen :: t.symbols ∧ t.Follows s ∧
    p.Reads s.inBody s.environment e t.environment ∧ p.WellFormed ∧ depth = p.depth

theorem State.symbols_of_rest {s : State Environment} {token : Token} {rest : List Token}
    (h : s.rest = token :: rest) :
    s.symbols = token.symbol :: State.symbols { s with rest := rest } := by
  simp [State.symbols, h]

/-! ## Forms of phrases -/

section Forms

variable {limit : Option Nat} {s t u : State Environment} {token : Token} {rest : List Token}
  {p q : Phrase} {left node : Node} {span : Span}

theorem Read.number {value : Binary64} (h : s.rest = token :: rest)
    (hk : token.kind = .number value) (hallowed : allowsDepth limit 1) :
    Read limit s (.number value) (.leaf (.literal value) span) { s with rest := rest } where
  symbols := by rw [State.symbols_of_rest h, Token.symbol_of_number hk]; rfl
  follows := ⟨rfl, rfl, rfl, rfl⟩
  reads := .number
  wellFormed := trivial
  endsBefore := trivial
  depth := rfl
  allowed := hallowed

theorem Read.neg (h : s.rest = token :: rest) (hk : token.kind = .minus)
    (hp : Read limit { s with rest := rest } p node t) (habove : p.Above Priority.negationFloor)
    (hclosed : t.next.kind.attaches = false) (hallowed : allowsDepth limit (node.depth + 1)) :
    Read limit s (.neg p) ⟨.unary .neg node.expr, span, node.depth + 1⟩ t where
  symbols := by
    rw [State.symbols_of_rest h, hp.symbols, Token.symbol_of_mark hk (by simp) (by simp)]
    rfl
  follows := hp.follows.trans ⟨rfl, rfl, rfl, rfl⟩
  reads := .neg hp.reads
  wellFormed := ⟨hp.wellFormed, habove⟩
  endsBefore := ⟨hclosed, hp.endsBefore⟩
  depth := by rw [hp.depth]; rfl
  allowed := by rwa [hp.depth] at hallowed

theorem Read.factorial (hp : Read limit s p left t) (h : t.rest = token :: rest)
    (hk : token.kind = .bang) (natural : left.expr.evaluate.isNatural)
    (hallowed : allowsDepth limit (left.depth + 1)) :
    Read limit s (.factorial p) ⟨.unary .factorial left.expr, span, left.depth + 1⟩
      { t with rest := rest } where
  symbols := by
    rw [hp.symbols, State.symbols_of_rest h, Token.symbol_of_mark hk (by simp) (by simp)]
    simp [Phrase.symbols]
  follows := hp.follows.skip
  reads := .factorial hp.reads natural
  wellFormed := by
    have hends := hp.endsBefore
    rw [State.next_of_rest h, hk] at hends
    exact ⟨hp.wellFormed, hends⟩
  endsBefore := trivial
  depth := by rw [hp.depth]; rfl
  allowed := by rwa [hp.depth] at hallowed

theorem Read.binary {op : BinaryOp} (hp : Read limit s p left t) (h : t.rest = token :: rest)
    (hop : token.kind.operator? = some op) (hq : Read limit { t with rest := rest } q node u)
    (habove : q.Above op.precedence) (hclosed : u.next.kind.Closes op.precedence)
    (hallowed : allowsDepth limit (max left.depth node.depth + 1)) :
    Read limit s (.binary p op q)
      ⟨.binary left.expr op node.expr, span, max left.depth node.depth + 1⟩ u where
  symbols := by
    have hk := TokenKind.eq_kind_of_operator? hop
    rw [hp.symbols, State.symbols_of_rest h, hq.symbols,
      Token.symbol_of_mark hk (by cases op <;> simp [BinaryOp.kind])
        (by cases op <;> simp [BinaryOp.kind])]
    simp [Phrase.symbols]
  follows := hq.follows.trans hp.follows.skip
  reads := by
    have hreads := hq.reads
    rw [show State.inBody { t with rest := rest } = s.inBody from hp.follows.inBody] at hreads
    exact .binary hp.reads hreads
  wellFormed := by
    have hends := hp.endsBefore
    rw [State.next_of_rest h, TokenKind.eq_kind_of_operator? hop] at hends
    exact ⟨hp.wellFormed, hends, hq.wellFormed, habove⟩
  endsBefore := ⟨hclosed.1, hclosed.2, hq.endsBefore⟩
  depth := by rw [hp.depth, hq.depth]; rfl
  allowed := by rwa [hp.depth, hq.depth] at hallowed

theorem ReadsEnclosed.product {e : Expr} {depth : Nat} (hp : Read limit s p left t)
    (h : t.rest = token :: rest) (hk : token.kind = .leftParen)
    (hq : ReadsEnclosed { t with rest := rest } e depth u)
    (hallowed : allowsDepth limit (max left.depth (depth + 1) + 1)) :
    ReadsUnit limit s
      ⟨.binary left.expr .mul (.grouping e), span, max left.depth (depth + 1) + 1⟩ u := by
  obtain ⟨q, hsymbols, hfollows, hreads, hwell, rfl⟩ := hq
  have hends := hp.endsBefore
  rw [State.next_of_rest h, hk] at hends
  rw [show State.inBody { t with rest := rest } = s.inBody from hp.follows.inBody] at hreads
  refine ⟨.product p q, ⟨?_, hfollows.trans hp.follows.skip, .product hp.reads hreads,
    ⟨hp.wellFormed, hends, hwell⟩, trivial, ?_, ?_⟩, rfl⟩
  · rw [hp.symbols, State.symbols_of_rest h, hsymbols,
      Token.symbol_of_mark hk (by simp) (by simp)]
    simp [Phrase.symbols]
  · rw [hp.depth]
    rfl
  · rwa [hp.depth] at hallowed

theorem ReadsEnclosed.grouping {e : Expr} {depth : Nat} (h : s.rest = token :: rest)
    (hk : token.kind = .leftParen) (hp : ReadsEnclosed { s with rest := rest } e depth t)
    (hallowed : allowsDepth limit (depth + 1)) :
    ReadsUnit limit s ⟨.grouping e, span, depth + 1⟩ t := by
  obtain ⟨p, hsymbols, hfollows, hreads, hwell, rfl⟩ := hp
  refine ⟨.grouping p, ⟨?_, hfollows.trans ⟨rfl, rfl, rfl, rfl⟩, .grouping hreads, hwell, trivial,
    rfl, hallowed⟩, rfl⟩
  rw [State.symbols_of_rest h, hsymbols, Token.symbol_of_mark hk (by simp) (by simp)]
  simp [Phrase.symbols]

theorem ReadsEnclosed.call {n : String} {e : Expr} {depth : Nat} {apply : Expr → Expr}
    (hsymbols : s.symbols = .name n :: t.symbols) (hfollows : t.Follows s)
    (henv : t.environment = s.environment) (h : t.rest = token :: rest)
    (hk : token.kind = .leftParen) (hcallee : callee? t.environment n = some apply)
    (hp : ReadsEnclosed { t with rest := rest } e depth u)
    (hallowed : allowsDepth limit (depth + 1)) :
    ReadsUnit limit s ⟨apply e, span, depth + 1⟩ u := by
  obtain ⟨p, hinner, hfollows', hreads, hwell, rfl⟩ := hp
  rw [show State.inBody { t with rest := rest } = s.inBody from hfollows.inBody,
    show State.environment { t with rest := rest } = s.environment from henv] at hreads
  rw [henv] at hcallee
  refine ⟨.call n p, ⟨?_, hfollows'.trans hfollows.skip,
    .call (Phrase.readCallee_of_callee? hcallee) hreads, hwell, trivial, rfl, hallowed⟩, rfl⟩
  rw [hsymbols, State.symbols_of_rest h, hinner, Token.symbol_of_mark hk (by simp) (by simp)]
  simp [Phrase.symbols]

theorem Read.assignment {n : String} (hs : s.inBody = false)
    (fresh : s.environment.contains n = false)
    (hsymbols : s.symbols = .name n :: t.symbols) (hfollows : t.Follows s)
    (henv : t.environment = s.environment) (h : t.rest = token :: rest)
    (hk : token.kind = .equals) (hp : Read limit { t with rest := rest } p node u)
    (hclosed : u.next.kind.Closes 0) {env : Environment}
    (hdeclare : u.environment.declare n node.expr.evaluate = .ok env)
    (hallowed : allowsDepth limit (node.depth + 1)) :
    Read limit s (.assignment n p) ⟨.assignment n node.expr, span, node.depth + 1⟩
      { u with environment := env } where
  symbols := by
    rw [hsymbols, State.symbols_of_rest h, hp.symbols, Token.symbol_of_mark hk (by simp) (by simp)]
    rfl
  follows :=
    ⟨hp.follows.stop.trans hfollows.stop, hp.follows.diagnostics.trans hfollows.diagnostics,
      hp.follows.inBody.trans hfollows.inBody, hp.follows.nesting.trans hfollows.nesting⟩
  reads := by
    have hreads := hp.reads
    rw [show State.inBody { t with rest := rest } = false from hfollows.inBody.trans hs,
      show State.environment { t with rest := rest } = s.environment from henv] at hreads
    rw [hs]
    exact .assignment fresh hreads hdeclare
  wellFormed := hp.wellFormed
  endsBefore := ⟨hclosed.1, Nat.le_zero.1 hclosed.2, hp.endsBefore⟩
  depth := by rw [hp.depth]; rfl
  allowed := by rwa [hp.depth] at hallowed

theorem Read.definition {n : String} (hs : s.inBody = false)
    (fresh : s.environment.contains n = false)
    (hsymbols : s.symbols = .name n :: t.symbols) (hfollows : t.Follows s)
    (henv : t.environment = s.environment) (h : t.rest = token :: rest)
    (hk : token.kind = .colon) (hp : Read limit { t with rest := rest, inBody := true } p node u)
    (hclosed : u.next.kind.Closes 0) {env : Environment}
    (hdefine : u.environment.define n node.expr = .ok env)
    (hallowed : allowsDepth limit (node.depth + 1)) :
    Read limit s (.definition n p) ⟨.definition n node.expr, span, node.depth + 1⟩
      { u with inBody := false, environment := env } where
  symbols := by
    have hinner : State.symbols { t with rest := rest } = p.symbols ++ u.symbols := hp.symbols
    rw [hsymbols, State.symbols_of_rest h, hinner, Token.symbol_of_mark hk (by simp) (by simp)]
    rfl
  follows :=
    ⟨hp.follows.stop.trans hfollows.stop, hp.follows.diagnostics.trans hfollows.diagnostics,
      hs.symm, hp.follows.nesting.trans hfollows.nesting⟩
  reads := by
    have hreads := hp.reads
    rw [show State.environment { t with rest := rest, inBody := true } = s.environment
      from henv] at hreads
    rw [hs]
    exact .definition fresh hreads hdefine
  wellFormed := hp.wellFormed
  endsBefore := ⟨hclosed.1, Nat.le_zero.1 hclosed.2, hp.endsBefore⟩
  depth := by rw [hp.depth]; rfl
  allowed := by rwa [hp.depth] at hallowed

theorem Read.enclosed (hp : Read limit s p node t) (hk : t.next.kind = .rightParen) :
    ReadsEnclosed s node.expr node.depth { t with rest := t.rest.tail } := by
  rcases t.rest_cases with h | ⟨token, rest, h⟩
  · rw [State.next_of_nil h] at hk
    cases hk
  · rw [State.next_of_rest h] at hk
    refine ⟨p, ?_, hp.follows.skip, hp.reads, hp.wellFormed, hp.depth⟩
    rw [hp.symbols, State.symbols_of_rest h, Token.symbol_of_mark hk (by simp) (by simp), h]
    rfl

end Forms

/-! ## Rules -/

section Rules

variable {limit : Option Nat} {floor : Nat} {s t : State Environment} {left : Node}

def Faulty (s : State Environment) : Prop :=
  s.diagnostics.isEmpty = false

theorem faulty_report (s : State Environment) (span : Span) (fault : Fault) :
    Faulty (s.report span fault) :=
  Diagnostics.isEmpty_report ..

theorem reads_enclosed (h : (expr limit 0 s).Satisfies (ReadsAbove limit 0 s) Faulty) :
    (expr limit 0 s).Satisfies
      (fun inner t =>
        (closingParen t).Satisfies (fun _ u => ReadsEnclosed s inner.expr inner.depth u) Faulty)
      Faulty := by
  refine h.imp (fun inner t => ?_) fun _ => id
  rintro ⟨p, hp, -, -⟩
  rw [satisfies_closingParen]
  split
  next hk => exact hp.enclosed hk
  next => exact faulty_report ..

theorem reads_grouping {opening : Span}
    (h : (expr limit 0 s).Satisfies (ReadsAbove limit 0 s) Faulty) :
    (grouping limit opening s).Satisfies
      (fun node t => ∃ e depth, node.expr = .grouping e ∧ node.depth = depth + 1 ∧
        allowsDepth limit (depth + 1) ∧ ReadsEnclosed s e depth t) Faulty := by
  rw [satisfies_grouping]
  refine (reads_enclosed h).imp (fun inner t ht => ?_) fun _ => id
  refine ht.imp (fun closing u hu => ?_) fun _ => id
  rw [satisfies_nest]
  split
  next hallowed => exact ⟨inner.expr, inner.depth, rfl, rfl, hallowed, hu⟩
  next => exact faulty_report ..

/-- A name that has been read, on its own or for what the next token makes of it. -/
theorem begun_of_resolve {token : Token} {rest : List Token} {e : Expr}
    (h : s.rest = token :: rest) (hk : token.kind = .identifier)
    (hresolve : resolve { s with rest := rest } token.lexeme = .ok e)
    (hallowed : allowsDepth limit 1) :
    Begun limit s (.leaf e token.span) { s with rest := rest } (.name token.lexeme) := by
  have hsymbols : s.symbols = .name token.lexeme :: State.symbols { s with rest := rest } := by
    rw [State.symbols_of_rest h, Token.symbol_of_identifier hk]
  have hfollows : State.Follows { s with rest := rest } s := ⟨rfl, rfl, rfl, rfl⟩
  have alone (hread : Phrase.readName s.inBody s.environment token.lexeme = .ok e)
      (hends : (Phrase.name token.lexeme).EndsBefore (State.next { s with rest := rest }).kind) :
      Begun limit s (.leaf e token.span) { s with rest := rest } (.name token.lexeme) :=
    .phrase ⟨hsymbols, hfollows, .name hread, trivial, hends, rfl, hallowed⟩
  unfold resolve at hresolve
  dsimp only at hresolve
  split at hresolve
  next hnext =>
    cases hresolve
    exact .name hsymbols hfollows rfl rfl (.inr hnext)
  next hnext =>
    have hequals := (not_or.1 hnext).1
    have hcolon := (not_or.1 hnext).2
    by_cases hparen : (State.next { s with rest := rest }).kind = .leftParen
    · have hname : e = .name token.lexeme := by
        split at hresolve
        · cases hresolve
          rfl
        · cases hlookup : s.environment.lookup token.lexeme with
          | none => simp [hlookup] at hresolve
          | some binding => simpa [hlookup, hparen] using hresolve.symm
      subst hname
      exact .name hsymbols hfollows rfl rfl (.inl hparen)
    · refine alone ?_ ⟨hparen, hequals, hcolon⟩
      unfold Phrase.readName
      split at hresolve
      next hparameter => rw [if_pos hparameter, ← hresolve]
      next hparameter =>
        rw [if_neg hparameter]
        cases hlookup : s.environment.lookup token.lexeme with
        | none => simp [hlookup] at hresolve
        | some binding =>
            simp only [Environment.scope_lookup, hlookup] at hresolve
            cases binding <;> simp_all

theorem declared_eq_ok {inBody target : Fault} {sign : Span} {n : String}
    (h : declared s left inBody target sign = .ok n) :
    s.inBody = false ∧ left.expr = .name n ∧ s.environment.contains n = false := by
  unfold declared at h
  split at h
  · cases h
  next hbody =>
    split at h
    next name hname =>
      split at h
      · cases h
      next hfresh =>
        cases h
        exact ⟨by simpa using hbody, hname, by simpa using hfresh⟩
    · cases h

/-- What has been read before an operator, a factorial sign or the end is a phrase. -/
theorem Begun.read {p : Phrase} (h : Begun limit s left t p) (hparen : t.next.kind ≠ .leftParen)
    (hequals : t.next.kind ≠ .equals) (hcolon : t.next.kind ≠ .colon) : Read limit s p left t := by
  cases h with
  | phrase h => exact h
  | name _ _ _ _ next =>
      rcases next with hk | hk | hk
      · exact absurd hk hparen
      · exact absurd hk hequals
      · exact absurd hk hcolon

theorem Begun.read_of_attaches {p : Phrase} (h : Begun limit s left t p)
    (hattach : t.next.kind.attaches = false) : Read limit s p left t := by
  refine h.read ?_ ?_ ?_
  all_goals
    intro hk
    rw [hk] at hattach
    cases hattach

/-- What has been read before what makes a name a call or a declaration, if it is a name. -/
theorem Begun.eq_name {p : Phrase} {n : String} (h : Begun limit s left t p)
    (he : left.expr = .name n)
    (hk : t.next.kind = .leftParen ∨ t.next.kind = .equals ∨ t.next.kind = .colon) :
    s.symbols = .name n :: t.symbols ∧ t.Follows s ∧ t.environment = s.environment := by
  cases h with
  | phrase h =>
      have hreads := h.reads
      rw [he] at hreads
      have hends := h.endsBefore
      rw [hreads.eq_name] at hends
      rcases hk with hk | hk | hk
      · exact absurd hk hends.1
      · exact absurd hk hends.2.1
      · exact absurd hk hends.2.2
  | name symbols follows environment expr next =>
      rw [he] at expr
      cases expr
      exact ⟨symbols, follows, environment⟩

theorem Begun.declared {p : Phrase} {n : String} {inBody target : Fault} {sign : Span}
    (h : Begun limit s left t p) (hdeclared : declared t left inBody target sign = .ok n)
    (hk : t.next.kind = .equals ∨ t.next.kind = .colon) :
    (s.symbols = .name n :: t.symbols ∧ t.Follows s ∧ t.environment = s.environment) ∧
      s.inBody = false ∧ s.environment.contains n = false := by
  obtain ⟨hbody, hname, fresh⟩ := declared_eq_ok hdeclared
  obtain ⟨hsymbols, hfollows, henv⟩ := h.eq_name hname (.inr hk)
  rw [hfollows.inBody] at hbody
  rw [henv] at fresh
  exact ⟨⟨hsymbols, hfollows, henv⟩, hbody, fresh⟩

theorem reads_callOrProduct {p : Phrase} {token : Token} {rest : List Token} {opening : Span}
    (h : t.rest = token :: rest) (hk : token.kind = .leftParen)
    (hexpr : (expr limit 0 { t with rest := rest }).Satisfies
      (ReadsAbove limit 0 { t with rest := rest }) Faulty)
    (hbegun : Begun limit s left t p) :
    (callOrProduct limit left opening { t with rest := rest }).Satisfies (ReadsUnit limit s)
      Faulty := by
  have hnext : t.next.kind = .leftParen := by rw [State.next_of_rest h, hk]
  by_cases hname : ∃ n, left.expr = .name n
  · obtain ⟨n, hname⟩ := hname
    obtain ⟨hsymbols, hfollows, henv⟩ := hbegun.eq_name hname (.inl hnext)
    rw [satisfies_call hname]
    split
    next => exact faulty_report ..
    next apply hcallee =>
      refine (reads_enclosed hexpr).imp (fun arg u hu => ?_) fun _ => id
      refine hu.imp (fun closing v hv => ?_) fun _ => id
      rw [satisfies_nest]
      split
      next hallowed => exact hv.call hsymbols hfollows henv h hk hcallee hallowed
      next => exact faulty_report ..
  · have hnot : ∀ n, left.expr ≠ .name n := fun n he => hname ⟨n, he⟩
    have hread : Read limit s p left t := by
      cases hbegun with
      | phrase h => exact h
      | name _ _ _ expr _ => exact absurd expr (hnot _)
    rw [satisfies_product hnot]
    refine (reads_grouping hexpr).imp (fun group u hu => ?_) fun _ => id
    obtain ⟨e, depth, hgroup, hdepth, -, hinner⟩ := hu
    rw [satisfies_nest, hgroup, hdepth]
    split
    next hallowed => exact hinner.product hread h hk hallowed
    next => exact faulty_report ..

theorem reads_assignment {n : String} {target : Span} {token : Token} {rest : List Token}
    (h : t.rest = token :: rest) (hk : token.kind = .equals)
    (hexpr : (expr limit 0 { t with rest := rest }).Satisfies
      (ReadsAbove limit 0 { t with rest := rest }) Faulty)
    (hsymbols : s.symbols = .name n :: t.symbols) (hfollows : t.Follows s)
    (henv : t.environment = s.environment) (hbody : s.inBody = false)
    (fresh : s.environment.contains n = false) :
    (assignment limit n target { t with rest := rest }).Satisfies (ReadsUnit limit s)
      Faulty := by
  rw [satisfies_assignment]
  refine hexpr.imp (fun value u hu => ?_) fun _ => id
  obtain ⟨p, hp, -, hclosed⟩ := hu
  rw [satisfies_commit_declare]
  split
  next =>
    split
    next env hdeclare =>
      rw [satisfies_nest]
      split
      next hallowed =>
        exact ⟨_, .assignment hbody fresh hsymbols hfollows henv h hk hp hclosed hdeclare hallowed,
          rfl⟩
      next => exact faulty_report ..
    next => exact faulty_report ..
  next hfaulty => exact Bool.eq_false_iff.2 hfaulty

theorem reads_definition {n : String} {target : Span} {token : Token} {rest : List Token}
    (h : t.rest = token :: rest) (hk : token.kind = .colon)
    (hexpr : (expr limit 0 { t with rest := rest, inBody := true }).Satisfies
      (ReadsAbove limit 0 { t with rest := rest, inBody := true }) Faulty)
    (hsymbols : s.symbols = .name n :: t.symbols) (hfollows : t.Follows s)
    (henv : t.environment = s.environment) (hbody : s.inBody = false)
    (fresh : s.environment.contains n = false) :
    (definition limit n target { t with rest := rest }).Satisfies (ReadsUnit limit s)
      Faulty := by
  rw [satisfies_definition]
  refine hexpr.imp (fun body u hu => ?_) fun _ => id
  obtain ⟨p, hp, -, hclosed⟩ := hu
  rw [satisfies_commit_define]
  split
  next =>
    split
    next env hdefine =>
      rw [satisfies_nest]
      split
      next hallowed =>
        exact ⟨_, .definition hbody fresh hsymbols hfollows henv h hk hp hclosed hdefine hallowed,
          rfl⟩
      next => exact faulty_report ..
    next => exact faulty_report ..
  next hfaulty => exact Bool.eq_false_iff.2 hfaulty

/-- From here on, everything that is read is a phrase. -/
structure ReadsPhrases (limit : Option Nat) (t : State Environment) : Prop where
  expr (floor : Nat) : (expr limit floor t).Satisfies (ReadsAbove limit floor t) Faulty
  extend {floor : Nat} {left : Node} {s : State Environment} {p : Phrase}
      (h : Begun limit s left t p)
    (above : p.Above floor) :
    (extend limit floor left t).Satisfies (ReadsAbove limit floor s) Faulty
  chain {floor : Nat} {left : Node} {s : State Environment} {p : Phrase} (h : Read limit s p left t)
    (above : p.Above floor) (hattach : t.next.kind.attaches = false) :
    (chain limit floor left t).Satisfies (ReadsAbove limit floor s) Faulty

theorem reads_chain {p : Phrase}
    (ih : ∀ u : State Environment, u.rest.length < t.rest.length → ReadsPhrases limit u)
    (h : Read limit s p left t) (above : p.Above floor) (hattach : t.next.kind.attaches = false) :
    (chain limit floor left t).Satisfies (ReadsAbove limit floor s) Faulty := by
  by_cases hfloor : t.next.kind.precedence ≤ floor
  · rw [satisfies_chain_closed hfloor]
    exact ⟨p, h, above, hattach, hfloor⟩
  · obtain ⟨token, rest, op, hrest, hop, hop_floor⟩ := operator_of_precedence hfloor
    have hlt : rest.length < t.rest.length := by rw [hrest]; exact Nat.lt_succ_self _
    rw [satisfies_chain_operator hrest hop, if_neg (Nat.not_le.2 hop_floor)]
    refine ((ih _ hlt).expr op.precedence).bounded.imp (fun right u hu => ?_) fun _ => id
    obtain ⟨hbound, q, hq, habove, hclosed⟩ := hu
    rw [satisfies_nest]
    split
    next hallowed =>
      rw [satisfies_extend_closed hclosed]
      refine (ih u (Nat.lt_trans hbound hlt)).chain
        (h.binary hrest hop hq habove hclosed hallowed) ?_ hclosed.1
      intro op' hop'
      cases hop'
      exact hop_floor
    next => exact faulty_report ..

theorem reads_extend {p : Phrase}
    (ih : ∀ u : State Environment, u.rest.length < t.rest.length → ReadsPhrases limit u)
    (h : Begun limit s left t p) (above : p.Above floor) :
    (extend limit floor left t).Satisfies (ReadsAbove limit floor s) Faulty := by
  by_cases hclosed : t.next.kind.Closes floor
  · rw [satisfies_extend_closed hclosed]
    exact ⟨p, h.read_of_attaches hclosed.1, above, hclosed⟩
  · rcases t.rest_cases with hrest | ⟨token, rest, hrest⟩
    · rw [State.next_of_nil hrest] at hclosed
      exact absurd ⟨rfl, Nat.zero_le _⟩ hclosed
    · have hnext := State.next_of_rest hrest
      have hlt : rest.length < t.rest.length := by rw [hrest]; exact Nat.lt_succ_self _
      have continued {node : Node} {u : State Environment} (hu : u.rest.length < rest.length + 1)
          (hunit : ReadsUnit limit s node u) :
          (Parser.extend limit floor node u).Satisfies (ReadsAbove limit floor s) Faulty := by
        obtain ⟨q, hq, hop⟩ := hunit
        refine (ih u ?_).extend (.phrase hq) (Phrase.above_of_operator?_eq_none hop)
        omega
      cases hop : token.kind.operator? with
      | some op =>
          rw [satisfies_extend_operator hrest hop]
          have hattach := TokenKind.attaches_of_operator? hop
          rw [← hnext] at hattach
          exact reads_chain ih (h.read_of_attaches hattach) above hattach
      | none =>
          cases hk : token.kind with
          | leftParen =>
              rw [satisfies_extend_leftParen hrest hk]
              refine (reads_callOrProduct hrest hk ((ih _ hlt).expr 0) h).bounded.imp
                (fun node u hu => continued hu.1 hu.2) fun _ => id
          | bang =>
              rw [satisfies_extend_bang hrest hk]
              split
              next natural =>
                have hread := h.read (by simp [hnext, hk]) (by simp [hnext, hk])
                  (by simp [hnext, hk])
                rw [satisfies_nest]
                split
                next hallowed =>
                  exact continued (Nat.lt_succ_self _)
                    ⟨_, hread.factorial hrest hk natural hallowed, rfl⟩
                next => exact faulty_report ..
              next => exact faulty_report ..
          | equals =>
              rw [satisfies_extend_equals hrest hk]
              split
              next => exact faulty_report ..
              next n hdeclared =>
                obtain ⟨⟨hsymbols, hfollows, henv⟩, hbody, fresh⟩ :=
                  h.declared hdeclared (.inl (by rw [hnext, hk]))
                exact (reads_assignment hrest hk ((ih _ hlt).expr 0) hsymbols hfollows henv hbody
                  fresh).bounded.imp (fun node u hu => continued hu.1 hu.2) fun _ => id
          | colon =>
              rw [satisfies_extend_colon hrest hk]
              split
              next => exact faulty_report ..
              next n hdeclared =>
                obtain ⟨⟨hsymbols, hfollows, henv⟩, hbody, fresh⟩ :=
                  h.declared hdeclared (.inr (by rw [hnext, hk]))
                exact (reads_definition hrest hk ((ih _ hlt).expr 0) hsymbols hfollows henv hbody
                  fresh).bounded.imp (fun node u hu => continued hu.1 hu.2) fun _ => id
          | _ =>
              refine absurd ⟨?_, ?_⟩ hclosed
              · rw [hnext, hk]
                rfl
              · rw [hnext, TokenKind.precedence_of_no_operator? hop]
                exact Nat.zero_le _

theorem reads_operand (floor : Nat)
    (ih : ∀ u : State Environment, u.rest.length < s.rest.length → ReadsPhrases limit u)
    (hallowed : allowsDepth limit 1) :
    (operand limit floor s).Satisfies (ReadsAbove limit floor s) Faulty := by
  rcases s.rest_cases with hrest | ⟨token, rest, hrest⟩
  · rw [satisfies_operand_nil hrest]
    exact faulty_report ..
  · have hlt : rest.length < s.rest.length := by rw [hrest]; exact Nat.lt_succ_self _
    have after {node : Node} {u : State Environment} {p : Phrase}
        (hu : u.rest.length < s.rest.length)
        (hbegun : Begun limit s node u p) (hop : p.operator? = none) :
        (extend limit floor node u).Satisfies (ReadsAbove limit floor s) Faulty :=
      (ih u hu).extend hbegun (Phrase.above_of_operator?_eq_none hop)
    cases hk : token.kind with
    | number value =>
        rw [satisfies_operand_number hrest hk]
        exact after hlt (.phrase (.number hrest hk hallowed)) rfl
    | identifier =>
        rw [satisfies_operand_identifier hrest hk]
        split
        next e hresolve => exact after hlt (begun_of_resolve hrest hk hresolve hallowed) rfl
        next => exact faulty_report ..
    | minus =>
        rw [satisfies_operand_minus hrest hk]
        refine ((ih _ hlt).expr Priority.negationFloor).bounded.imp (fun inner t ht => ?_)
          fun _ => id
        obtain ⟨hbound, p, hp, habove, hclosed⟩ := ht
        rw [satisfies_nest]
        split
        next hallowed =>
          exact after (Nat.lt_trans hbound hlt)
            (.phrase (hp.neg hrest hk habove hclosed.1 hallowed)) rfl
        next => exact faulty_report ..
    | leftParen =>
        rw [satisfies_operand_leftParen hrest hk]
        refine (reads_grouping ((ih _ hlt).expr 0)).bounded.imp (fun node t ht => ?_) fun _ => id
        obtain ⟨hbound, e, depth, hnode, hdepth, hallowed, hinner⟩ := ht
        obtain ⟨e', span, depth'⟩ := node
        cases hnode
        cases hdepth
        obtain ⟨p, hp, hop⟩ := hinner.grouping hrest hk hallowed
        exact after (Nat.lt_trans hbound hlt) (.phrase hp) hop
    | _ =>
        rw [satisfies_operand_other hrest (by simp [hk]) (by simp [hk]) (by simp [hk])
          (by simp [hk])]
        exact faulty_report ..

theorem reads_expr (floor : Nat)
    (ih : ∀ u : State Environment, u.rest.length < s.rest.length → ReadsPhrases limit u) :
    (expr limit floor s).Satisfies (ReadsAbove limit floor s) Faulty := by
  rw [satisfies_expr]
  split
  next hallowed =>
    have hoperand := reads_operand (s := { s with nesting := s.nesting + 1 }) floor ih
      (allowsDepth_mono hallowed (Nat.le_add_left 1 _))
    refine hoperand.imp (fun node t ht => ?_) fun _ => id
    obtain ⟨p, hp, habove, hclosed⟩ := ht
    refine ⟨p, ⟨hp.symbols, ⟨hp.follows.stop, hp.follows.diagnostics, hp.follows.inBody, ?_⟩,
      hp.reads, hp.wellFormed, hp.endsBefore, hp.depth, hp.allowed⟩, habove, hclosed⟩
    exact congrArg (· - 1) hp.follows.nesting
  next => exact faulty_report ..

theorem readsPhrases (limit : Option Nat) (t : State Environment) : ReadsPhrases limit t := by
  have ih (u : State Environment) (_ : u.rest.length < t.rest.length) : ReadsPhrases limit u :=
    readsPhrases limit u
  exact ⟨fun floor => reads_expr floor ih, reads_extend ih, reads_chain ih⟩
termination_by t.rest.length

end Rules

end Parser

end Calculator

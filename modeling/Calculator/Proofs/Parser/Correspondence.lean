import Calculator.Line
import Calculator.Proofs.Environment.Binding
import Calculator.Proofs.Parser.Calculus
import Mathlib.Data.List.Forall2

/-!
# Two runs of the parser

The parser looks at a line through the kinds and the texts of its tokens, through
the order of the spans that it reports, and through what the names on the line
stand for. Two runs that agree in all of these go the same way: they read the
same tree and report the same faults, at spans that correspond, and their
environments still correspond at the end.
-/

namespace Calculator

namespace Table

variable {κ α γ : Type}

/-- Entries with equal values under keys that correspond. -/
abbrev Corresponds (rel : κ → κ → Prop) (entries entries' : List (κ × α)) : Prop :=
  List.Forall₂ (fun e e' => rel e.1 e'.1 ∧ e.2 = e'.2) entries entries'

theorem corresponds_map {rel : κ → κ → Prop} {f g : γ → κ × α} {l : List γ}
    (h : ∀ x ∈ l, rel (f x).1 (g x).1 ∧ (f x).2 = (g x).2) :
    Corresponds rel (l.map f) (l.map g) := by
  unfold Corresponds
  rwa [List.forall₂_map_left_iff, List.forall₂_map_right_iff, List.forall₂_same]

theorem map_snd_of_corresponds {rel : κ → κ → Prop} {entries entries' : List (κ × α)}
    (h : Corresponds rel entries entries') : entries.map Prod.snd = entries'.map Prod.snd := by
  induction h with
  | nil => rfl
  | cons he _ ih => rw [List.map_cons, List.map_cons, he.2, ih]

theorem eq_of_corresponds [Ord κ] {t t' : Table κ α} (h : Corresponds Eq t.entries t'.entries) :
    t = t' := by
  have heq : List.Forall₂ Eq t.entries t'.entries := h.imp fun _ _ he => Prod.ext he.1 he.2
  rw [List.forall₂_eq_eq_eq] at heq
  exact ext heq

theorem corresponds_insertEntry [Ord κ] {rel : κ → κ → Prop}
    (hcompare : ∀ {k k' l l'}, rel k k' → rel l l' → compare k l = compare k' l') {key key' : κ}
    (hkey : rel key key') (value : α) {entries entries' : List (κ × α)}
    (h : Corresponds rel entries entries') :
    Corresponds rel (insertEntry key value entries) (insertEntry key' value entries') := by
  induction h with
  | nil => exact .cons ⟨hkey, rfl⟩ .nil
  | @cons e e' rest rest' he hrest ih =>
      have hsame : compare key e.1 = compare key' e'.1 := hcompare hkey he.1
      unfold insertEntry
      rw [← hsame]
      cases compare key e.1 with
      | lt => exact .cons ⟨hkey, rfl⟩ (.cons he hrest)
      | eq => exact .cons ⟨hkey, rfl⟩ hrest
      | gt => exact .cons he ih

theorem contains_of_corresponds [Ord κ] {rel : κ → κ → Prop}
    (hcompare : ∀ {k k' l l'}, rel k k' → rel l l' → compare k l = compare k' l') {key key' : κ}
    (hkey : rel key key') {t t' : Table κ α} (h : Corresponds rel t.entries t'.entries) :
    t.contains key = t'.contains key' := by
  unfold contains get?
  rw [Option.isSome_map, Option.isSome_map]
  generalize t.entries = entries at h
  generalize t'.entries = entries' at h
  induction h with
  | nil => rfl
  | @cons e e' rest rest' he hrest ih =>
      rw [List.find?_cons, List.find?_cons, ← hcompare hkey he.1]
      split
      · rfl
      · exact ih

end Table

namespace Parser

/-- Changes that come to the same: they are both made, or refused for the same reason. -/
structure SameChange {E E' : Type} (rel : E → E' → Prop) (r : Except Fault Unit × E)
    (r' : Except Fault Unit × E') : Prop where
  result : r.1 = r'.1
  environment : rel r.2 r'.2

/--
Environments, of one kind or of two, that stand for each other: at the names that
may occur they answer and change alike.
-/
structure Counterparts (E E' : Type) [Scope E] [Scope E'] where
  names : String → Prop
  environments : E → E' → Prop
  lookup_eq {env : E} {env' : E'} {n : String} :
    environments env env' → names n → Scope.lookup env n = Scope.lookup env' n
  contains_eq {env : E} {env' : E'} {n : String} :
    environments env env' → names n → Scope.contains env n = Scope.contains env' n
  declare {env : E} {env' : E'} {n : String} (value : Binary64) :
    environments env env' → names n →
      SameChange environments (Scope.declare env n value) (Scope.declare env' n value)
  define {env : E} {env' : E'} {n : String} (body : Expr) :
    environments env env' → names n →
      SameChange environments (Scope.define env n body) (Scope.define env' n body)
  remove {env : E} {env' : E'} {n : String} :
    environments env env' → names n →
      SameChange environments (Scope.remove env n) (Scope.remove env' n)

def Counterparts.same (E : Type) [Scope E] : Counterparts E E where
  names _ := True
  environments := Eq
  lookup_eq henv _ := by rw [henv]
  contains_eq henv _ := by rw [henv]
  declare _ henv _ := henv ▸ ⟨rfl, rfl⟩
  define _ henv _ := henv ▸ ⟨rfl, rfl⟩
  remove henv _ := henv ▸ ⟨rfl, rfl⟩

/--
What two lines and their environments have in common: also which spans of trees
and which places of faults stand for each other.
-/
structure Correspondence (E E' : Type) [Scope E] [Scope E'] extends Counterparts E E' where
  spans : Span → Span → Prop
  places : Span → Span → Prop
  cover {s s' t t' : Span} : spans s s' → spans t t' → spans (s.cover t) (s'.cover t')
  place {s s' : Span} : spans s s' → places s s'
  compare_eq {s s' t t' : Span} : places s s' → places t t' → compare s t = compare s' t'

def Counterparts.sameLine {E E' : Type} [Scope E] [Scope E'] (P : Counterparts E E') :
    Correspondence E E' where
  toCounterparts := P
  spans := Eq
  places := Eq
  cover hs ht := by rw [hs, ht]
  place hs := hs
  compare_eq hs ht := by rw [hs, ht]

namespace Correspondence

variable {E E' : Type} [Scope E] [Scope E'] (C : Correspondence E E')

structure Tokens (t t' : Token) : Prop where
  kind : t.kind = t'.kind
  lexeme : t.lexeme = t'.lexeme
  span : C.spans t.span t'.span
  named : t.kind = .identifier → C.names t.lexeme

structure Nodes (node node' : Node) : Prop where
  expr : node.expr = node'.expr
  span : C.spans node.span node'.span
  depth : node.depth = node'.depth
  named : ∀ n, node.expr = .name n → C.names n

/-- What two runs have in common wherever they end. -/
structure Ends (s : State E) (s' : State E') : Prop where
  environment : C.environments s.environment s'.environment
  diagnostics : Table.Corresponds C.places s.diagnostics.entries s'.diagnostics.entries

structure States (s : State E) (s' : State E') : Prop extends C.Ends s s' where
  rest : List.Forall₂ C.Tokens s.rest s'.rest
  stop : C.places s.stop s'.stop
  inBody : s.inBody = s'.inBody
  nesting : s.nesting = s'.nesting

variable {C : Correspondence E E'}

/-! ## Environments -/

section Environments

variable {n : String}

theorem callee?_eq {env : E} {env' : E'} (h : C.environments env env') (hn : C.names n) :
    callee? env n = callee? env' n := by
  unfold callee?
  rw [C.lookup_eq h hn]

omit [Scope E'] in
theorem call_ne_name {env : E} {call : Expr → Expr} (h : callee? env n = some call) (e : Expr)
    (m : String) : call e ≠ .name m := by
  unfold callee? at h
  split at h <;> cases h <;> simp

end Environments

/-! ## States -/

section States

variable {s : State E} {s' : State E'}

theorem corresponds_report {d d' : Diagnostics} {span span' : Span} (hspan : C.places span span')
    (fault : Fault) (h : Table.Corresponds C.places d.entries d'.entries) :
    Table.Corresponds C.places (d.report span fault).entries (d'.report span' fault).entries := by
  rw [Diagnostics.report_eq, Diagnostics.report_eq,
    ← Table.contains_of_corresponds C.compare_eq hspan h]
  split
  · exact h
  · exact Table.corresponds_insertEntry C.compare_eq hspan fault h

theorem Ends.report (h : C.Ends s s') {span span' : Span} (hspan : C.places span span')
    (fault : Fault) : C.Ends (s.report span fault) (s'.report span' fault) :=
  ⟨h.environment, corresponds_report hspan fault h.diagnostics⟩

theorem Ends.isEmpty_eq (h : C.Ends s s') : s.diagnostics.isEmpty = s'.diagnostics.isEmpty := by
  have hlength : s.diagnostics.entries.length = s'.diagnostics.entries.length :=
    h.diagnostics.length_eq
  rw [Bool.eq_iff_iff, Table.isEmpty, Table.isEmpty, List.isEmpty_iff_length_eq_zero,
    List.isEmpty_iff_length_eq_zero, hlength]

theorem States.rest_nil (h : C.States s s') (hrest : s.rest = []) : s'.rest = [] := by
  have htokens := h.rest
  rwa [hrest, List.forall₂_nil_left_iff] at htokens

theorem corresponds_ofFaults {faults faults' : List (Span × Fault)}
    (h : Table.Corresponds C.places faults faults') :
    Table.Corresponds C.places (Diagnostics.ofFaults faults).entries
      (Diagnostics.ofFaults faults').entries := by
  refine List.rel_foldl (P := fun d d' : Diagnostics =>
    Table.Corresponds C.places d.entries d'.entries) (fun d d' hd e e' he => ?_) .nil h
  rw [← he.2]
  exact corresponds_report he.1 e.2 hd

/-- Two runs that read a token read tokens that correspond. -/
theorem States.read (h : C.States s s') {token : Token} {rest : List Token}
    (hrest : s.rest = token :: rest) :
    ∃ token' rest', s'.rest = token' :: rest' ∧ C.Tokens token token' ∧
      C.States { s with rest := rest } { s' with rest := rest' } := by
  have htokens := h.rest
  rw [hrest, List.forall₂_cons_left_iff] at htokens
  obtain ⟨token', rest', htoken, hrest', hs'⟩ := htokens
  exact ⟨token', rest', hs', htoken, { h with rest := hrest' }⟩

theorem States.next (h : C.States s s') :
    s.next.kind = s'.next.kind ∧ C.places s.next.span s'.next.span := by
  rcases s.rest_cases with hrest | ⟨token, rest, hrest⟩
  · rw [State.next_of_nil hrest, State.next_of_nil (h.rest_nil hrest)]
    exact ⟨rfl, h.stop⟩
  · obtain ⟨token', rest', hrest', htoken, -⟩ := h.read hrest
    rw [State.next_of_rest hrest, State.next_of_rest hrest']
    exact ⟨htoken.kind, C.place htoken.span⟩

theorem resolve_eq (h : C.States s s') {n : String} (hn : C.names n) :
    resolve s n = resolve s' n := by
  unfold resolve
  rw [h.next.1, h.inBody, C.lookup_eq h.environment hn]

/-- A name that stays a name is the one that was read. -/
theorem eq_of_resolve {n m : String} (h : resolve s n = .ok (.name m)) : n = m := by
  unfold resolve at h
  dsimp only at h
  split at h
  · cases h
    rfl
  · split at h
    · cases h
      rfl
    · split at h
      · cases h
      · split at h
        · cases h
          rfl
        · split at h <;> cases h

/-- A declaration is for the same name in both runs, or is refused for the same reason. -/
theorem declared_cases (h : C.States s s') {left left' : Node} (hleft : C.Nodes left left')
    {sign sign' : Span} (hsign : C.spans sign sign') (inBody target : Fault) :
    (∃ n, C.names n ∧ declared s left inBody target sign = .ok n ∧
        declared s' left' inBody target sign' = .ok n) ∨
      ∃ span span' fault, C.places span span' ∧
        declared s left inBody target sign = .error (span, fault) ∧
        declared s' left' inBody target sign' = .error (span', fault) := by
  unfold declared
  rw [← h.inBody, ← hleft.expr]
  split
  · exact .inr ⟨_, _, _, C.place hsign, rfl, rfl⟩
  · split
    next n hname =>
      have hn := hleft.named n hname
      rw [← C.contains_eq h.environment hn]
      split
      · exact .inr ⟨_, _, _, C.place hleft.span, rfl, rfl⟩
      · exact .inl ⟨n, hn, rfl, rfl⟩
    next => exact .inr ⟨_, _, _, C.place hsign, rfl, rfl⟩

end States

/-! ## Outcomes -/

section Outcomes

variable {α : Type} {m n : Nat}

/--
What holds of everything that one run may arrive at holds, if it is passed on
between what corresponds, of what the other run arrives at.
-/
def Carries (C : Correspondence E E') (rel : α → α → Prop) (o : Outcome E m α)
    (o' : Outcome E' n α) : Prop :=
  ∀ ⦃onOk : α → State E → Prop⦄ ⦃onOk' : α → State E' → Prop⦄ ⦃onAbort : State E → Prop⦄
    ⦃onAbort' : State E' → Prop⦄, o.Satisfies onOk onAbort →
      (∀ a a' t t', rel a a' → C.States t t' → onOk a t → onOk' a' t') →
      (∀ t t', C.Ends t t' → onAbort t → onAbort' t') → o'.Satisfies onOk' onAbort'

/-- Where one run arrives, it keeps to its bound. -/
theorem Carries.bounded {rel : α → α → Prop} {o : Outcome E m α} {o' : Outcome E' n α}
    (h : C.Carries rel o o') {onOk : α → State E → Prop} {onOk' : α → State E' → Prop}
    {onAbort : State E → Prop} {onAbort' : State E' → Prop}
    (ho : o.Satisfies onOk onAbort)
    (hok : ∀ a a' t t', t.rest.length < m → rel a a' → C.States t t' → onOk a t → onOk' a' t')
    (habort : ∀ t t', C.Ends t t' → onAbort t → onAbort' t') : o'.Satisfies onOk' onAbort' :=
  h ho.bounded (fun a a' t t' ha ht hbounded => hok a a' t t' hbounded.1 ha ht hbounded.2) habort

end Outcomes

/-! ## Steps -/

section Rules

variable {limit : Option Nat} {floor : Nat} {s : State E} {s' : State E'} {left left' : Node}

theorem carries_nest (h : C.States s s') {span span' : Span} (hspan : C.spans span span')
    {e : Expr} (he : ∀ n, e = .name n → C.names n) (depth : Nat) :
    C.Carries C.Nodes (nest limit s span e depth) (nest limit s' span' e depth) := by
  intro onOk onOk' onAbort onAbort' hnest hok habort
  rw [satisfies_nest] at hnest ⊢
  split
  next hallowed =>
    rw [if_pos hallowed] at hnest
    have hnode : C.Nodes ⟨e, span, depth + 1⟩ ⟨e, span', depth + 1⟩ := ⟨rfl, hspan, rfl, he⟩
    exact hok _ _ _ _ hnode h hnest
  next hdeep =>
    rw [if_neg hdeep] at hnest
    exact habort _ _ (h.report (C.place hspan) _) hnest

theorem carries_commit (h : C.States s s') {span span' : Span} (hspan : C.spans span span')
    {change : E → Except Fault Unit × E} {change' : E' → Except Fault Unit × E'}
    (hchange : SameChange C.environments (change s.environment) (change' s'.environment)) :
    C.Carries Eq (commit s span change) (commit s' span' change') := by
  intro onOk onOk' onAbort onAbort' hcommit hok habort
  rw [satisfies_commit] at hcommit ⊢
  rw [← h.isEmpty_eq]
  split
  next faultless =>
    rw [if_pos faultless] at hcommit
    obtain ⟨hresult, henv⟩ := hchange
    generalize change s.environment = changed at hresult henv hcommit
    generalize change' s'.environment = changed' at hresult henv
    obtain ⟨result, env⟩ := changed
    obtain ⟨result', env'⟩ := changed'
    cases hresult
    have ht : C.States { s with environment := env } { s' with environment := env' } :=
      { h with environment := henv }
    cases result with
    | ok _ => exact hok () () _ _ rfl ht hcommit
    | error fault => exact habort _ _ (ht.report (C.place hspan) fault) hcommit
  next hfaulty =>
    rw [if_neg hfaulty] at hcommit
    exact habort _ _ h.toEnds hcommit

theorem carries_closingParen (h : C.States s s') :
    C.Carries C.Tokens (closingParen s) (closingParen s') := by
  intro onOk onOk' onAbort onAbort' hclosing hok habort
  rw [satisfies_closingParen] at hclosing ⊢
  rw [← h.next.1]
  split
  next hparen =>
    rw [if_pos hparen] at hclosing
    rcases s.rest_cases with hrest | ⟨token, rest, hrest⟩
    · rw [State.next_of_nil hrest] at hparen
      cases hparen
    · obtain ⟨token', rest', hrest', htoken, hread⟩ := h.read hrest
      rw [State.next_of_rest hrest, hrest] at hclosing
      rw [State.next_of_rest hrest', hrest']
      exact hok _ _ _ _ htoken hread hclosing
  next hparen =>
    rw [if_neg hparen] at hclosing
    exact habort _ _ (h.report h.next.2 _) hclosing

/-- Two runs from a state that stands for this one go the same way. -/
structure Mirrors (C : Correspondence E E') (limit : Option Nat) (s : State E) : Prop where
  expr {s' : State E'} (h : C.States s s') (floor : Nat) :
    C.Carries C.Nodes (Parser.expr limit floor s) (Parser.expr limit floor s')
  extend {s' : State E'} {left left' : Node} (h : C.States s s') (hleft : C.Nodes left left')
    (floor : Nat) :
    C.Carries C.Nodes (Parser.extend limit floor left s) (Parser.extend limit floor left' s')
  chain {s' : State E'} {left left' : Node} (h : C.States s s') (hleft : C.Nodes left left')
    (floor : Nat) :
    C.Carries C.Nodes (Parser.chain limit floor left s) (Parser.chain limit floor left' s')

theorem carries_grouping (ih : C.Mirrors limit s) (h : C.States s s') {opening opening' : Span}
    (hopening : C.spans opening opening') :
    C.Carries C.Nodes (grouping limit opening s) (grouping limit opening' s') := by
  intro onOk onOk' onAbort onAbort' hgroup hok habort
  rw [satisfies_grouping] at hgroup ⊢
  refine ih.expr h 0 hgroup (fun inner inner' t t' hinner ht hclosing => ?_) habort
  refine carries_closingParen ht hclosing (fun closing closing' u u' hc hu hnest => ?_) habort
  rw [← hinner.expr, ← hinner.depth]
  exact carries_nest hu (C.cover hopening hc.span) (by simp) _ hnest hok habort

theorem carries_callOrProduct (ih : C.Mirrors limit s) (h : C.States s s')
    (hleft : C.Nodes left left') {opening opening' : Span} (hopening : C.spans opening opening') :
    C.Carries C.Nodes (callOrProduct limit left opening s)
      (callOrProduct limit left' opening' s') := by
  intro onOk onOk' onAbort onAbort' hcall hok habort
  by_cases hname : ∃ n, left.expr = .name n
  · obtain ⟨n, hname⟩ := hname
    have hname' : left'.expr = .name n := hleft.expr ▸ hname
    rw [satisfies_call hname] at hcall
    rw [satisfies_call hname', ← callee?_eq h.environment (hleft.named n hname)]
    cases hcallee : callee? s.environment n with
    | none =>
        rw [hcallee] at hcall
        exact habort _ _ (h.report (C.place hleft.span) _) hcall
    | some call =>
        rw [hcallee] at hcall
        refine ih.expr h 0 hcall (fun arg arg' t t' harg ht hclosing => ?_) habort
        refine carries_closingParen ht hclosing (fun closing closing' u u' hc hu hnest => ?_) habort
        rw [← harg.expr, ← harg.depth]
        have hnot (m : String) (hm : call arg.expr = .name m) : C.names m :=
          absurd hm (call_ne_name hcallee arg.expr m)
        exact carries_nest hu (C.cover hleft.span hc.span) hnot _ hnest hok habort
  · have hnot : ∀ n, left.expr ≠ .name n := fun n he => hname ⟨n, he⟩
    have hnot' : ∀ n, left'.expr ≠ .name n := hleft.expr ▸ hnot
    rw [satisfies_product hnot] at hcall
    rw [satisfies_product hnot']
    refine carries_grouping ih h hopening hcall (fun group group' t t' hgroup ht hnest => ?_) habort
    rw [← hleft.expr, ← hleft.depth, ← hgroup.expr, ← hgroup.depth]
    exact carries_nest ht (C.cover hleft.span hgroup.span) (by simp) _ hnest hok habort

theorem carries_assignment (ih : C.Mirrors limit s) (h : C.States s s') {n : String}
    (hn : C.names n) {target target' : Span} (htarget : C.spans target target') :
    C.Carries C.Nodes (assignment limit n target s) (assignment limit n target' s') := by
  intro onOk onOk' onAbort onAbort' hassign hok habort
  rw [satisfies_assignment] at hassign ⊢
  refine ih.expr h 0 hassign (fun value value' t t' hvalue ht hcommit => ?_) habort
  rw [← hvalue.expr, ← hvalue.depth]
  have hchange := C.declare value.expr.evaluate ht.environment hn
  refine carries_commit ht htarget hchange hcommit (fun _ _ u u' _ hu hnest => ?_) habort
  exact carries_nest hu (C.cover htarget hvalue.span) (by simp) _ hnest hok habort

theorem carries_definition (ih : C.Mirrors limit { s with inBody := true }) (h : C.States s s')
    {n : String} (hn : C.names n) {target target' : Span} (htarget : C.spans target target') :
    C.Carries C.Nodes (definition limit n target s) (definition limit n target' s') := by
  intro onOk onOk' onAbort onAbort' hdefine hok habort
  rw [satisfies_definition] at hdefine ⊢
  have hinside : C.States { s with inBody := true } { s' with inBody := true } :=
    { h with inBody := rfl }
  refine ih.expr hinside 0 hdefine (fun body body' t t' hbody ht hcommit => ?_) fun t t' ht =>
    habort _ _ ⟨ht.environment, ht.diagnostics⟩
  rw [← hbody.expr, ← hbody.depth]
  have houtside : C.States { t with inBody := false } { t' with inBody := false } :=
    { ht with inBody := rfl }
  have hchange := C.define body.expr ht.environment hn
  refine carries_commit houtside htarget hchange hcommit (fun _ _ u u' _ hu hnest => ?_) habort
  exact carries_nest hu (C.cover htarget hbody.span) (by simp) _ hnest hok habort

/-! ## What follows an operand -/

theorem carries_chain (ih : ∀ u : State E, u.rest.length < s.rest.length → C.Mirrors limit u)
    (h : C.States s s') (hleft : C.Nodes left left') (floor : Nat) :
    C.Carries C.Nodes (chain limit floor left s) (chain limit floor left' s') := by
  intro onOk onOk' onAbort onAbort' hchain hok habort
  by_cases hfloor : s.next.kind.precedence ≤ floor
  · have hfloor' : s'.next.kind.precedence ≤ floor := h.next.1 ▸ hfloor
    rw [satisfies_chain_closed hfloor] at hchain
    rw [satisfies_chain_closed hfloor']
    exact hok _ _ _ _ hleft h hchain
  · obtain ⟨token, rest, op, hrest, hop, hop_floor⟩ := operator_of_precedence hfloor
    obtain ⟨token', rest', hrest', htoken, hread⟩ := h.read hrest
    have hlt : rest.length < s.rest.length := by simp [hrest]
    rw [satisfies_chain_operator hrest hop, if_neg (Nat.not_le.2 hop_floor)] at hchain
    rw [satisfies_chain_operator hrest' (htoken.kind ▸ hop), if_neg (Nat.not_le.2 hop_floor)]
    refine ((ih _ hlt).expr hread _).bounded hchain ?_ habort
    intro right right' t t' hshort hright ht hnest
    have hshort : t.rest.length < s.rest.length := Nat.lt_trans hshort hlt
    rw [← hleft.expr, ← hleft.depth, ← hright.expr, ← hright.depth]
    refine (carries_nest ht (C.cover hleft.span hright.span) (by simp) _).bounded hnest ?_ habort
    intro node node' u u' hnested hnode hu hextend
    have hnested : u.rest.length < s.rest.length := by omega
    refine ((ih u hnested).extend hu hnode _).bounded hextend ?_ habort
    intro folded folded' v v' hfolded_short hfolded hv hrepeat
    exact (ih v (by omega)).chain hv hfolded floor hrepeat hok habort

theorem carries_extend (ih : ∀ u : State E, u.rest.length < s.rest.length → C.Mirrors limit u)
    (h : C.States s s') (hleft : C.Nodes left left') (floor : Nat) :
    C.Carries C.Nodes (extend limit floor left s) (extend limit floor left' s') := by
  intro onOk onOk' onAbort onAbort' hextend hok habort
  by_cases hattach : s.next.kind.attaches = false
  · have hattach' : s'.next.kind.attaches = false := h.next.1 ▸ hattach
    rw [satisfies_extend_chain hattach] at hextend
    rw [satisfies_extend_chain hattach']
    exact carries_chain ih h hleft floor hextend hok habort
  · rcases s.rest_cases with hrest | ⟨token, rest, hrest⟩
    · rw [State.next_of_nil hrest] at hattach
      exact absurd rfl hattach
    · rw [State.next_of_rest hrest] at hattach
      obtain ⟨token', rest', hrest', htoken, hread⟩ := h.read hrest
      have hlt : rest.length < s.rest.length := by simp [hrest]
      have continued (node node' : Node) (t : State E) (t' : State E')
          (hshort : t.rest.length < rest.length + 1)
          (hnode : C.Nodes node node') (ht : C.States t t')
          (hmore : (Parser.extend limit floor node t).Satisfies onOk onAbort) :
          (Parser.extend limit floor node' t').Satisfies onOk' onAbort' := by
        have hshort : t.rest.length < s.rest.length := by omega
        exact (ih t hshort).extend ht hnode floor hmore hok habort
      cases hk : token.kind with
      | leftParen =>
          rw [satisfies_extend_leftParen hrest hk] at hextend
          rw [satisfies_extend_leftParen hrest' (htoken.kind ▸ hk)]
          exact (carries_callOrProduct (ih _ hlt) hread hleft htoken.span).bounded hextend continued
            habort
      | bang =>
          rw [satisfies_extend_bang hrest hk] at hextend
          rw [satisfies_extend_bang hrest' (htoken.kind ▸ hk), ← hleft.expr, ← hleft.depth]
          split
          next natural =>
            rw [if_pos natural] at hextend
            exact (carries_nest hread (C.cover hleft.span htoken.span) (by simp) _).bounded hextend
              continued habort
          next unnatural =>
            rw [if_neg unnatural] at hextend
            exact habort _ _ (hread.report (C.place htoken.span) _) hextend
      | equals =>
          rw [satisfies_extend_equals hrest hk] at hextend
          rw [satisfies_extend_equals hrest' (htoken.kind ▸ hk)]
          rcases declared_cases h hleft htoken.span .assignmentInFunction .assignmentTarget with
            ⟨n, hn, hdeclared, hdeclared'⟩ | ⟨span, span', fault, hspan, hrefused, hrefused'⟩
          · rw [hdeclared] at hextend
            rw [hdeclared']
            exact (carries_assignment (ih _ hlt) hread hn hleft.span).bounded hextend continued
              habort
          · rw [hrefused] at hextend
            rw [hrefused']
            exact habort _ _ (h.report hspan fault) hextend
      | colon =>
          rw [satisfies_extend_colon hrest hk] at hextend
          rw [satisfies_extend_colon hrest' (htoken.kind ▸ hk)]
          rcases declared_cases h hleft htoken.span .definitionInFunction .definitionTarget with
            ⟨n, hn, hdeclared, hdeclared'⟩ | ⟨span, span', fault, hspan, hrefused, hrefused'⟩
          · rw [hdeclared] at hextend
            rw [hdeclared']
            exact (carries_definition (ih _ hlt) hread hn hleft.span).bounded hextend continued
              habort
          · rw [hrefused] at hextend
            rw [hrefused']
            exact habort _ _ (h.report hspan fault) hextend
      | _ => exact absurd (congrArg TokenKind.attaches hk) hattach

/-! ## Expressions -/

theorem carries_operand (ih : ∀ u : State E, u.rest.length < s.rest.length → C.Mirrors limit u)
    (h : C.States s s') (floor : Nat) :
    C.Carries C.Nodes (operand limit floor s) (operand limit floor s') := by
  intro onOk onOk' onAbort onAbort' hoperand hok habort
  rcases s.rest_cases with hrest | ⟨token, rest, hrest⟩
  · rw [satisfies_operand_nil hrest] at hoperand
    rw [satisfies_operand_nil (h.rest_nil hrest)]
    exact habort _ _ (h.report h.stop _) hoperand
  · obtain ⟨token', rest', hrest', htoken, hread⟩ := h.read hrest
    have hlt : rest.length < s.rest.length := by simp [hrest]
    cases hk : token.kind with
    | number value =>
        rw [satisfies_operand_number hrest hk] at hoperand
        rw [satisfies_operand_number hrest' (htoken.kind ▸ hk)]
        have hleaf : C.Nodes (.leaf (.literal value) token.span)
            (.leaf (.literal value) token'.span) := ⟨rfl, htoken.span, rfl, by simp [Node.leaf]⟩
        exact (ih _ hlt).extend hread hleaf floor hoperand hok habort
    | identifier =>
        have hn := htoken.named hk
        rw [satisfies_operand_identifier hrest hk] at hoperand
        rw [satisfies_operand_identifier hrest' (htoken.kind ▸ hk), ← htoken.lexeme,
          ← resolve_eq hread hn]
        cases hresolve : resolve { s with rest := rest } token.lexeme with
        | ok e =>
            rw [hresolve] at hoperand
            have hnamed (m : String) (hm : e = .name m) : C.names m :=
              eq_of_resolve (hm ▸ hresolve) ▸ hn
            have hleaf : C.Nodes (.leaf e token.span) (.leaf e token'.span) :=
              ⟨rfl, htoken.span, rfl, hnamed⟩
            exact (ih _ hlt).extend hread hleaf floor hoperand hok habort
        | error fault =>
            rw [hresolve] at hoperand
            exact habort _ _ (hread.report (C.place htoken.span) fault) hoperand
    | minus =>
        rw [satisfies_operand_minus hrest hk] at hoperand
        rw [satisfies_operand_minus hrest' (htoken.kind ▸ hk)]
        refine ((ih _ hlt).expr hread _).bounded hoperand ?_ habort
        intro inner inner' t t' hshort hinner ht hnest
        have hshort : t.rest.length < s.rest.length := Nat.lt_trans hshort hlt
        rw [← hinner.expr, ← hinner.depth]
        refine (carries_nest ht (C.cover htoken.span hinner.span) (by simp) _).bounded hnest ?_
          habort
        intro node node' u u' hnested hnode hu hextend
        exact (ih u (by omega)).extend hu hnode floor hextend hok habort
    | leftParen =>
        rw [satisfies_operand_leftParen hrest hk] at hoperand
        rw [satisfies_operand_leftParen hrest' (htoken.kind ▸ hk)]
        refine (carries_grouping (ih _ hlt) hread htoken.span).bounded hoperand ?_ habort
        intro node node' t t' hshort hnode ht hextend
        exact (ih t (Nat.lt_trans hshort hlt)).extend ht hnode floor hextend hok habort
    | _ =>
        rw [satisfies_operand_other hrest (by simp [hk]) (by simp [hk]) (by simp [hk])
          (by simp [hk])] at hoperand
        rw [htoken.kind] at hk hoperand
        rw [satisfies_operand_other hrest' (by simp [hk]) (by simp [hk]) (by simp [hk])
          (by simp [hk])]
        exact habort _ _ (hread.report (C.place htoken.span) _) hoperand

theorem carries_expr (ih : ∀ u : State E, u.rest.length < s.rest.length → C.Mirrors limit u)
    (h : C.States s s') (floor : Nat) :
    C.Carries C.Nodes (expr limit floor s) (expr limit floor s') := by
  intro onOk onOk' onAbort onAbort' hexpr hok habort
  rw [satisfies_expr] at hexpr ⊢
  rw [← h.nesting]
  split
  next hallowed =>
    rw [if_pos hallowed] at hexpr
    have hinside : C.States { s with nesting := s.nesting + 1 }
        { s' with nesting := s.nesting + 1 } := { h with nesting := rfl }
    refine carries_operand ?_ hinside floor hexpr ?_ ?_
    · exact ih
    · intro node node' t t' hnode ht
      have houtside : C.States { t with nesting := t.nesting - 1 }
          { t' with nesting := t'.nesting - 1 } := { ht with nesting := by rw [ht.nesting] }
      exact hok _ _ _ _ hnode houtside
    · exact fun t t' ht => habort _ _ ⟨ht.environment, ht.diagnostics⟩
  next hdeep =>
    rw [if_neg hdeep] at hexpr
    exact habort _ _ (h.report h.next.2 _) hexpr

theorem mirrors (C : Correspondence E E') (limit : Option Nat) (s : State E) :
    C.Mirrors limit s := by
  -- Induction on the tokens left: each rule reads one before it comes to one of the three.
  have ih (u : State E) (_ : u.rest.length < s.rest.length) : C.Mirrors limit u := mirrors C limit u
  exact ⟨carries_expr ih, carries_extend ih, carries_chain ih⟩
termination_by s.rest.length

/-! ## Lines -/

theorem carries_deletion (h : C.States s s') : C.Carries Eq (deletion s) (deletion s') := by
  intro onOk onOk' onAbort onAbort' hdelete hok habort
  rw [satisfies_deletion] at hdelete ⊢
  rw [← h.next.1]
  split
  next hk =>
    rw [if_pos hk] at hdelete
    rcases s.rest_cases with hrest | ⟨token, rest, hrest⟩
    · rw [State.next_of_nil hrest] at hk
      cases hk
    · obtain ⟨token', rest', hrest', htoken, hread⟩ := h.read hrest
      rw [State.next_of_rest hrest] at hk hdelete
      rw [State.next_of_rest hrest', ← htoken.lexeme]
      rw [hrest] at hdelete
      rw [hrest']
      have hchange := C.remove hread.environment (htoken.named hk)
      refine carries_commit hread htoken.span hchange hdelete (fun _ _ t t' _ ht hdeleted => ?_)
        habort
      exact hok _ _ _ _ rfl ht hdeleted
  next hk =>
    rw [if_neg hk] at hdelete
    have hends : C.Ends { s with rest := s.rest.tail } { s' with rest := s'.rest.tail } :=
      ⟨h.environment, h.diagnostics⟩
    exact habort _ _ (hends.report h.next.2 _) hdelete

theorem carries_statement (limit : Option Nat) (h : C.States s s') :
    C.Carries Eq (statement limit s) (statement limit s') := by
  intro onOk onOk' onAbort onAbort' hstatement hok habort
  rw [satisfies_statement] at hstatement ⊢
  rw [← h.next.1]
  split
  next hk =>
    rw [if_pos hk] at hstatement
    rcases s.rest_cases with hrest | ⟨token, rest, hrest⟩
    · rw [State.next_of_nil hrest] at hk
      cases hk
    · obtain ⟨token', rest', hrest', -, hread⟩ := h.read hrest
      rw [hrest] at hstatement
      rw [hrest']
      exact carries_deletion hread hstatement hok habort
  next hk =>
    rw [if_neg hk] at hstatement
    refine (mirrors C limit s).expr h 0 hstatement (fun node node' t t' hnode ht hread => ?_) habort
    exact hok _ _ _ _ hnode.expr ht hread

/-- Runs from states that correspond read the same tree, and end in what corresponds. -/
theorem run_corresponds (limit : Option Nat) (h : C.States s s') :
    (run limit s).1 = (run limit s').1 ∧ C.Ends (run limit s).2 (run limit s').2 := by
  have hself := (statement limit s).satisfies_self
  have hcarried : (statement limit s').Satisfies
      (fun e t' => ∃ t, C.States t t' ∧ ∃ hshort, statement limit s = .ok e t hshort)
      fun t' => ∃ t, C.Ends t t' ∧ statement limit s = .abort t := by
    refine carries_statement limit h hself (fun e e' t t' he ht hstatement => ?_)
      fun t t' ht hstatement => ⟨t, ht, hstatement⟩
    subst he
    exact ⟨t, ht, hstatement⟩
  unfold run
  cases hstatement : statement limit s' with
  | ok e t' hshort =>
      rw [hstatement] at hcarried
      obtain ⟨t, ht, _, hs⟩ := hcarried
      rw [hs]
      have hempty : t.rest.isEmpty = t'.rest.isEmpty := by
        rw [Bool.eq_iff_iff, List.isEmpty_iff_length_eq_zero, List.isEmpty_iff_length_eq_zero,
          ht.rest.length_eq]
      dsimp only
      rw [← hempty]
      split
      next => exact ⟨rfl, ht.toEnds⟩
      next => exact ⟨rfl, ht.report ht.next.2 _⟩
  | abort t' =>
      rw [hstatement] at hcarried
      obtain ⟨t, ht, hs⟩ := hcarried
      rw [hs]
      exact ⟨rfl, ht⟩

end Rules

end Correspondence

section SameLine

variable {E E' : Type} [Scope E] [Scope E'] (P : Counterparts E E') {env : E} {env' : E'}
  {tokens : List Token}

theorem Counterparts.states_ofTokens (henv : P.environments env env')
    (hnames : ∀ t ∈ tokens, t.kind = .identifier → P.names t.lexeme) (d : Diagnostics) :
    P.sameLine.States (.ofTokens tokens env d) (.ofTokens tokens env' d) where
  environment := henv
  diagnostics := List.forall₂_same.2 fun _ _ => ⟨rfl, rfl⟩
  rest := by
    refine List.forall₂_same.2 fun t ht => ⟨rfl, rfl, rfl, ?_⟩
    exact hnames t (List.mem_filter.1 ((List.takeWhile_sublist _).subset ht)).1
  stop := rfl
  inBody := rfl
  nesting := rfl

/-- The same line is read alike in environments that stand for each other. -/
theorem Counterparts.run_ofTokens (limit : Option Nat) (henv : P.environments env env')
    (hnames : ∀ t ∈ tokens, t.kind = .identifier → P.names t.lexeme) (d : Diagnostics) :
    (run limit (.ofTokens tokens env d)).1 = (run limit (.ofTokens tokens env' d)).1 ∧
      (run limit (.ofTokens tokens env d)).2.diagnostics =
        (run limit (.ofTokens tokens env' d)).2.diagnostics ∧
      P.environments (run limit (.ofTokens tokens env d)).2.environment
        (run limit (.ofTokens tokens env' d)).2.environment := by
  obtain ⟨hexpr, hends⟩ :=
    Correspondence.run_corresponds limit (P.states_ofTokens henv hnames d)
  exact ⟨hexpr, Table.eq_of_corresponds hends.diagnostics, hends.environment⟩

end SameLine

end Parser

end Calculator

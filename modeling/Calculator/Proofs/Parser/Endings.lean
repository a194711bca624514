import Calculator.Line
import Calculator.Proofs.Parser.Soundness

/-!
# Where expressions end

What follows an operand is taken as far as it binds tighter than the floor. So
nothing can be added to a right operand once it has been read, and operators are
folded one after another with nothing in between.
-/

namespace Calculator

namespace Parser

/-! ## What a rule gives back -/

/-- The same body, and as deep in it. -/
structure State.Restores (s t : State Environment) : Prop where
  inBody : t.inBody = s.inBody
  nesting : t.nesting = s.nesting

/-- The same body, as deep in it, and further on in the tokens or where it was. -/
structure State.Continues (s t : State Environment) : Prop extends s.Restores t where
  rest : t.rest <:+ s.rest

namespace State

variable {s t : State Environment} {token : Token} {rest : List Token}

theorem Continues.refl (s : State Environment) : s.Continues s :=
  ⟨⟨rfl, rfl⟩, List.suffix_refl _⟩

theorem Continues.read (h : s.Continues t) (hrest : t.rest = token :: rest) :
    s.Continues { t with rest := rest } :=
  ⟨⟨h.inBody, h.nesting⟩, (hrest ▸ List.suffix_cons token rest).trans h.rest⟩

theorem Continues.report (h : s.Continues t) (span : Span) (fault : Fault) :
    s.Restores (t.report span fault) :=
  ⟨h.inBody, h.nesting⟩

end State

def Outcome.Continues {α : Type} {n : Nat} (s : State Environment)
    (o : Outcome Environment n α) : Prop :=
  o.Satisfies (fun _ t => s.Continues t) s.Restores

/--
What is arrived at comes after a state, and nothing that is next binds tighter
than the floor.
-/
def Outcome.Settles {α : Type} {n : Nat} (floor : Nat) (s : State Environment)
    (o : Outcome Environment n α) : Prop :=
  o.Satisfies (fun _ t => s.Continues t ∧ t.next.kind.Closes floor) s.Restores

namespace Outcome

variable {α : Type} {n floor : Nat} {s : State Environment} {o : Outcome Environment n α}
  {onOk : α → State Environment → Prop}

theorem Continues.imp (h : o.Continues s)
    (hok : ∀ a t, t.rest.length < n → s.Continues t → onOk a t) :
    o.Satisfies onOk s.Restores :=
  Satisfies.imp (Satisfies.bounded h) (fun a t ht => hok a t ht.1 ht.2) fun _ => id

theorem Settles.imp (h : o.Settles floor s)
    (hok : ∀ a t, t.rest.length < n → s.Continues t → t.next.kind.Closes floor → onOk a t) :
    o.Satisfies onOk s.Restores :=
  Satisfies.imp (Satisfies.bounded h) (fun a t ht => hok a t ht.1 ht.2.1 ht.2.2) fun _ => id

/-- Where only one value and one state can be arrived at, they are. -/
theorem eq_ok_of_satisfies {a : α} {t : State Environment} (ht : t.rest.length < n)
    (h : o.Satisfies (fun b u => b = a ∧ u = t) fun _ => False) : o = .ok a t ht := by
  cases o with
  | ok b u hu =>
      obtain ⟨rfl, rfl⟩ := h
      rfl
  | abort u => exact h.elim

end Outcome

/-! ## Rules -/

section Rules

variable {limit : Option Nat} {left : Node} {s t : State Environment}

theorem continues_nest (h : s.Continues t) (span : Span) (e : Expr) (depth : Nat) :
    (nest limit t span e depth).Continues s := by
  unfold Outcome.Continues
  rw [satisfies_nest]
  split
  · exact h
  · exact h.report ..

theorem continues_commit (h : s.Continues t) (span : Span)
    (change : Environment → Except Fault Unit × Environment) :
    (commit t span change).Continues s := by
  unfold Outcome.Continues
  rw [satisfies_commit]
  split
  · split
    · exact ⟨⟨h.inBody, h.nesting⟩, h.rest⟩
    · exact ⟨h.inBody, h.nesting⟩
  · exact h.toRestores

theorem continues_closingParen (h : s.Continues t) : (closingParen t).Continues s := by
  unfold Outcome.Continues
  rw [satisfies_closingParen]
  split
  · exact ⟨⟨h.inBody, h.nesting⟩, (List.tail_suffix _).trans h.rest⟩
  · exact h.report ..

/-- From here on, expressions end where nothing binds tighter than the floor. -/
structure SettlesOn (limit : Option Nat) (t : State Environment) : Prop where
  expr {s : State Environment} (h : s.Continues t) (floor : Nat) :
      (expr limit floor t).Settles floor s
  extend {s : State Environment} (h : s.Continues t) (floor : Nat) (left : Node) :
    (extend limit floor left t).Settles floor s
  chain {s : State Environment} (h : s.Continues t) (floor : Nat) (left : Node)
    (hattach : t.next.kind.attaches = false) : (chain limit floor left t).Settles floor s

theorem continues_enclosed (ih : SettlesOn limit t) (h : s.Continues t)
    {onOk : Node → Token → State Environment → Prop}
    (hok : ∀ inner closing u, s.Continues u → onOk inner closing u) :
    (expr limit 0 t).Satisfies
      (fun inner u => (closingParen u).Satisfies (onOk inner) s.Restores) s.Restores := by
  refine (ih.expr h 0).imp fun inner u _ hu _ => ?_
  exact (continues_closingParen hu).imp fun closing v _ hv => hok inner closing v hv

theorem continues_grouping (ih : SettlesOn limit t) (h : s.Continues t) (opening : Span) :
    (grouping limit opening t).Continues s := by
  unfold Outcome.Continues
  rw [satisfies_grouping]
  exact continues_enclosed ih h fun inner closing u hu => continues_nest hu ..

theorem continues_callOrProduct (ih : SettlesOn limit t) (h : s.Continues t) (opening : Span) :
    (callOrProduct limit left opening t).Continues s := by
  unfold Outcome.Continues
  by_cases hname : ∃ n, left.expr = .name n
  · obtain ⟨n, hname⟩ := hname
    rw [satisfies_call hname]
    split
    · exact h.report ..
    · exact continues_enclosed ih h fun arg closing u hu => continues_nest hu ..
  · rw [satisfies_product fun n he => hname ⟨n, he⟩]
    exact (continues_grouping ih h opening).imp fun group u _ hu => continues_nest hu ..

theorem continues_assignment (ih : SettlesOn limit t) (h : s.Continues t) (n : String)
    (target : Span) : (assignment limit n target t).Continues s := by
  unfold Outcome.Continues
  rw [satisfies_assignment]
  refine (ih.expr h 0).imp fun value u _ hu _ => ?_
  exact (continues_commit hu ..).imp fun _ v _ hv => continues_nest hv ..

/-- A definition stands in no body, and so is outside of one again when it has been read. -/
theorem continues_definition (ih : SettlesOn limit { t with inBody := true }) (h : s.Continues t)
    (hbody : s.inBody = false) (n : String) (target : Span) :
    (definition limit n target t).Continues s := by
  have left_body {u : State Environment} (hu : State.Restores { t with inBody := true } u) :
      s.Restores { u with inBody := false } := ⟨hbody.symm, hu.nesting.trans h.nesting⟩
  unfold Outcome.Continues
  rw [satisfies_definition]
  refine Outcome.Satisfies.imp (ih.expr (.refl _) 0) (fun body u hu => ?_) fun u => left_body
  have hafter : s.Continues { u with inBody := false } :=
    ⟨left_body hu.1.toRestores, hu.1.rest.trans h.rest⟩
  exact (continues_commit hafter ..).imp fun _ v _ hv => continues_nest hv ..

theorem settles_chain
    (ih : ∀ u : State Environment, u.rest.length < t.rest.length → SettlesOn limit u)
    (h : s.Continues t) (floor : Nat) (left : Node) (hattach : t.next.kind.attaches = false) :
    (chain limit floor left t).Settles floor s := by
  unfold Outcome.Settles
  by_cases hfloor : t.next.kind.precedence ≤ floor
  · rw [satisfies_chain_closed hfloor]
    exact ⟨h, hattach, hfloor⟩
  · obtain ⟨token, rest, op, hrest, hop, hop_floor⟩ := operator_of_precedence hfloor
    have hlt : rest.length < t.rest.length := by simp [hrest]
    rw [satisfies_chain_operator hrest hop, if_neg (Nat.not_le.2 hop_floor)]
    refine ((ih _ hlt).expr (h.read hrest) op.precedence).imp fun right u hu hafter hcloses => ?_
    rw [satisfies_nest]
    split
    next =>
      -- The right operand has taken everything that could be added to the operation.
      rw [satisfies_extend_closed hcloses]
      exact (ih u (Nat.lt_trans hu hlt)).chain hafter floor _ hcloses.1
    next => exact hafter.report ..

theorem settles_extend
    (ih : ∀ u : State Environment, u.rest.length < t.rest.length → SettlesOn limit u)
    (h : s.Continues t) (floor : Nat) (left : Node) :
    (extend limit floor left t).Settles floor s := by
  by_cases hattach : t.next.kind.attaches = false
  · unfold Outcome.Settles
    rw [satisfies_extend_chain hattach]
    exact settles_chain ih h floor left hattach
  · rcases t.rest_cases with hrest | ⟨token, rest, hrest⟩
    · rw [State.next_of_nil hrest] at hattach
      exact absurd rfl hattach
    · rw [State.next_of_rest hrest] at hattach
      have hlt : rest.length < t.rest.length := by simp [hrest]
      have hafter : s.Continues { t with rest := rest } := h.read hrest
      have continued (node : Node) (u : State Environment) (hu : u.rest.length < rest.length + 1)
          (hafter : s.Continues u) : (extend limit floor node u).Settles floor s := by
        have hu : u.rest.length < t.rest.length := by omega
        exact (ih u hu).extend hafter floor node
      unfold Outcome.Settles
      cases hk : token.kind with
      | leftParen =>
          rw [satisfies_extend_leftParen hrest hk]
          exact (continues_callOrProduct (ih _ hlt) hafter token.span).imp continued
      | bang =>
          rw [satisfies_extend_bang hrest hk]
          split
          · exact (continues_nest hafter ..).imp continued
          · exact hafter.report ..
      | equals =>
          rw [satisfies_extend_equals hrest hk]
          split
          next => exact h.report ..
          next n _ => exact (continues_assignment (ih _ hlt) hafter n left.span).imp continued
      | colon =>
          rw [satisfies_extend_colon hrest hk]
          split
          next => exact h.report ..
          next n hdeclared =>
            have hbody : s.inBody = false := h.inBody.symm.trans (declared_eq_ok hdeclared).1
            exact (continues_definition (ih _ hlt) hafter hbody n left.span).imp continued
      | _ => exact absurd (congrArg TokenKind.attaches hk) hattach

/-- A token is read, whatever the operand is, and then what follows it. -/
theorem settles_operand
    (ih : ∀ u : State Environment, u.rest.length < t.rest.length → SettlesOn limit u)
    (h : s.Continues t) (floor : Nat) : (operand limit floor t).Settles floor s := by
  unfold Outcome.Settles
  rcases t.rest_cases with hrest | ⟨token, rest, hrest⟩
  · rw [satisfies_operand_nil hrest]
    exact h.report ..
  · have hlt : rest.length < t.rest.length := by simp [hrest]
    have hafter : s.Continues { t with rest := rest } := h.read hrest
    cases hk : token.kind with
    | number value =>
        rw [satisfies_operand_number hrest hk]
        exact (ih _ hlt).extend hafter floor _
    | identifier =>
        rw [satisfies_operand_identifier hrest hk]
        split
        next => exact (ih _ hlt).extend hafter floor _
        next => exact hafter.report ..
    | minus =>
        rw [satisfies_operand_minus hrest hk]
        refine ((ih _ hlt).expr hafter _).imp fun inner u hu hafter _ => ?_
        have hu : u.rest.length < t.rest.length := Nat.lt_trans hu hlt
        refine (continues_nest hafter ..).imp fun node v hv hafter => ?_
        exact (ih v (by omega)).extend hafter floor node
    | leftParen =>
        rw [satisfies_operand_leftParen hrest hk]
        refine (continues_grouping (ih _ hlt) hafter _).imp fun node u hu hafter => ?_
        exact (ih u (Nat.lt_trans hu hlt)).extend hafter floor node
    | _ =>
        rw [satisfies_operand_other hrest (by simp [hk]) (by simp [hk]) (by simp [hk])
          (by simp [hk])]
        exact hafter.report ..

theorem settles_expr
    (ih : ∀ u : State Environment, u.rest.length < t.rest.length → SettlesOn limit u)
    (h : s.Continues t) (floor : Nat) : (expr limit floor t).Settles floor s := by
  have left_nesting {u : State Environment}
      (hu : State.Restores { t with nesting := t.nesting + 1 } u) :
      s.Restores { u with nesting := u.nesting - 1 } := by
    refine ⟨hu.inBody.trans h.inBody, ?_⟩
    rw [hu.nesting]
    exact h.nesting
  unfold Outcome.Settles
  rw [satisfies_expr]
  split
  next =>
    have hoperand := settles_operand (t := { t with nesting := t.nesting + 1 }) ih (.refl _) floor
    refine Outcome.Satisfies.imp hoperand (fun node u hu => ?_) fun u => left_nesting
    exact ⟨⟨left_nesting hu.1.toRestores, hu.1.rest.trans h.rest⟩, hu.2⟩
  next => exact h.report ..

theorem settlesOn (limit : Option Nat) (t : State Environment) : SettlesOn limit t := by
  have ih (u : State Environment) (_ : u.rest.length < t.rest.length) : SettlesOn limit u :=
    settlesOn limit u
  exact ⟨settles_expr ih, settles_extend ih, settles_chain ih⟩
termination_by t.rest.length

end Rules

/-! ## Nothing in between -/

/-- Where an expression has been read, it is not extended any further. -/
theorem extend_of_expr {limit : Option Nat} {floor : Nat} {s t : State Environment} {right : Node}
    {ht : t.rest.length < s.rest.length} (h : expr limit floor s = .ok right t ht) (node : Node) :
    extend limit floor node t = .ok node t (Nat.lt_succ_self _) := by
  have hsettles := (settlesOn limit s).expr (.refl s) floor
  rw [h] at hsettles
  apply Outcome.eq_ok_of_satisfies
  rw [satisfies_extend_closed hsettles.2]
  exact ⟨rfl, rfl⟩

/-- Operators above the floor and their right operands, folded with nothing in between. -/
def fold (limit : Option Nat) (floor : Nat) (left : Node) (s : State Environment) :
    Outcome Environment (s.rest.length + 1) Node :=
  match h : s.rest with
  | [] => .ok left s (h ▸ Nat.lt_succ_self _)
  | token :: rest =>
      match token.kind.operator? with
      | none => .ok left s (h ▸ Nat.lt_succ_self _)
      | some op =>
          if op.precedence ≤ floor then .ok left s (h ▸ Nat.lt_succ_self _)
          else
            (expr limit op.precedence { s with rest := rest }).bind fun right t ht =>
              (nest limit t (left.span.cover right.span) (.binary left.expr op right.expr)
                (max left.depth right.depth)).bind fun node u hu =>
                  have hless : u.rest.length < (token :: rest).length :=
                    Nat.lt_succ_of_le (Nat.le_trans (Nat.le_of_lt_succ hu) (Nat.le_of_lt ht))
                  (fold limit floor node u).weaken (Nat.succ_le_succ (Nat.le_of_lt hless))
termination_by s.rest.length
decreasing_by exact h ▸ hless

theorem chain_eq_fold (limit : Option Nat) (floor : Nat) (left : Node) (s : State Environment) :
    chain limit floor left s = fold limit floor left s := by
  obtain ⟨tokens, stop, env, d, inBody, nesting⟩ := s
  cases tokens with
  | nil => rw [chain, fold]
  | cons token rest =>
      rw [chain, fold]
      dsimp only
      cases token.kind.operator? with
      | none => rfl
      | some op =>
          by_cases hfloor : op.precedence ≤ floor
          · simp only [hfloor, if_true]
          · simp only [hfloor, if_false]
            cases hexpr : expr limit op.precedence ⟨rest, stop, env, d, inBody, nesting⟩ with
            | abort t => rfl
            | ok right t ht =>
                have ht : t.rest.length < rest.length := ht
                rw [Outcome.bind_ok, Outcome.bind_ok]
                unfold nest
                split
                next =>
                  rw [Outcome.bind_ok, Outcome.bind_ok, extend_of_expr hexpr, Outcome.bind_ok,
                    chain_eq_fold limit floor _ t]
                next => rfl
termination_by s.rest.length
decreasing_by exact Nat.lt_succ_of_lt ht

/--
What binds tighter than the floor is taken. Where an expression, what follows an
operand, or a chain of operators comes to its end, nothing is next that goes with
it, and no operator above the floor; an expression has read a token. With or
without a fault, the parser is then in the body it was in and as deep in it as it
was. So an operation that has been folded is never extended by anything, and
operators are folded with nothing in between.
-/
theorem expr_takes_what_binds_tighter (limit : Option Nat) (floor : Nat) (left : Node)
    (s : State Environment) :
    ((expr limit floor s).Settles floor s ∧
        (expr limit floor s).Satisfies
          (fun _ t => ∃ token read, s.rest = token :: (read ++ t.rest)) fun _ => True) ∧
      (extend limit floor left s).Settles floor s ∧
      (s.next.kind.operator?.isSome → (chain limit floor left s).Settles floor s) ∧
      (∀ right t ht, expr limit floor s = .ok right t ht →
        ∀ node, extend limit floor node t = .ok node t (Nat.lt_succ_self _)) ∧
      chain limit floor left s = fold limit floor left s := by
  have hsettles := settlesOn limit s
  have hexpr := hsettles.expr (.refl s) floor
  refine ⟨⟨hexpr, ?_⟩, hsettles.extend (.refl s) floor left, fun hop => ?_, ?_,
    chain_eq_fold limit floor left s⟩
  · refine Outcome.Satisfies.imp (Outcome.Satisfies.bounded hexpr) ?_ fun _ _ => trivial
    rintro _ t ⟨hshort, ⟨-, read, hread⟩, -⟩
    cases read with
    | nil => exact absurd (congrArg List.length hread) (Nat.ne_of_lt hshort)
    | cons token read => exact ⟨token, read, hread.symm⟩
  · obtain ⟨op, hop⟩ := Option.isSome_iff_exists.1 hop
    exact hsettles.chain (.refl s) floor left (TokenKind.attaches_of_operator? hop)
  · exact fun right t ht hright node => extend_of_expr hright node

theorem expr_takes_what_binds_tighter_of_power :
    (State.ofTokens (tokenize "-2 ^ 2! * 3)") Environment.empty .empty).next.kind.operator?.isSome ∧
      (chain (some maxNesting) 0 (.leaf (.literal (.ofNat 5)) (.empty 0))
        (.ofTokens (tokenize "-2 ^ 2! * 3)") Environment.empty .empty)).Settles 0
          (.ofTokens (tokenize "-2 ^ 2! * 3)") Environment.empty .empty) ∧
      ∃ right t ht, expr (some maxNesting) 2
          (.ofTokens (tokenize "-2 ^ 2! * 3)") Environment.empty .empty) = .ok right t ht ∧
        t.next.kind = .star ∧
        ∀ node, extend (some maxNesting) 2 node t = .ok node t (Nat.lt_succ_self _) := by
  have hop : (State.ofTokens (tokenize "-2 ^ 2! * 3)")
      Environment.empty .empty).next.kind.operator?.isSome := by decide +kernel
  have hstar : (match expr (some maxNesting) 2
      (.ofTokens (tokenize "-2 ^ 2! * 3)") Environment.empty .empty) with
    | .ok _ t _ => t.next.kind == .star
    | .abort _ => false) = true := by decide +kernel
  obtain ⟨-, -, hchain, -, -⟩ := expr_takes_what_binds_tighter (some maxNesting) 0
    (.leaf (.literal (.ofNat 5)) (.empty 0))
    (.ofTokens (tokenize "-2 ^ 2! * 3)") Environment.empty .empty)
  obtain ⟨-, -, -, hextend, -⟩ := expr_takes_what_binds_tighter (some maxNesting) 2
    (.leaf (.literal (.ofNat 5)) (.empty 0))
    (.ofTokens (tokenize "-2 ^ 2! * 3)") Environment.empty .empty)
  refine ⟨hop, hchain hop, ?_⟩
  cases hexpr : expr (some maxNesting) 2
      (.ofTokens (tokenize "-2 ^ 2! * 3)") Environment.empty .empty) with
  | ok right t ht =>
      rw [hexpr] at hstar
      exact ⟨right, t, ht, rfl, eq_of_beq hstar, hextend right t ht hexpr⟩
  | abort t =>
      rw [hexpr] at hstar
      cases hstar

end Parser

end Calculator

import Calculator.Proofs.Parser.Soundness
import Mathlib.Logic.Relation

/-!
# What the rules do to the state

On its way a rule reads tokens, enters and leaves expressions and bodies, and
declares names while no fault has been found. Where it aborts it has reported
one fault, or has stopped for one that was there before. What holds of a line
with faults is proved from these steps.
-/

namespace Calculator

/--
A declaration that a line makes. The body of a function is what a phrase is read
as where the function is defined, and no deeper than the limit.
-/
inductive Environment.Declares (limit : Option Nat) (env env' : Environment) : Prop
  | assigned {n : String} {value : Binary64} (bound : env.declare n value = .ok env')
  | defined {n : String} {p : Phrase} {body : Expr} (read : p.Reads true env body env)
      (allowed : allowsDepth limit p.depth) (bound : env.define n body = .ok env')

theorem Environment.Declares.bind {limit : Option Nat} {env env' : Environment}
    (h : env.Declares limit env') : ∃ n b, env.bind n b = .ok env' := by
  cases h with
  | assigned bound => exact ⟨_, _, bound⟩
  | defined _ _ bound => exact ⟨_, _, bound⟩

namespace Parser

namespace State

/-- One thing that a rule does on its way. -/
inductive Step (limit : Option Nat) : State Environment → State Environment → Prop
  | read {s : State Environment} {token : Token} {rest : List Token} (h : s.rest = token :: rest) :
      Step limit s { s with rest := rest }
  | body (s : State Environment) (inBody : Bool) : Step limit s { s with inBody := inBody }
  | nesting (s : State Environment) (nesting : Nat) : Step limit s { s with nesting := nesting }
  | declares {s : State Environment} {env : Environment} (faultless : s.diagnostics.isEmpty)
      (h : s.environment.Declares limit env) : Step limit s { s with environment := env }

/-- The parser gets from one state to the other by steps, without a fault. -/
abbrev Reaches (limit : Option Nat) : State Environment → State Environment → Prop :=
  Relation.ReflTransGen (Step limit)

/-- A fault that lies in no token is reported, or one found before is the reason to stop. -/
inductive Stops (s : State Environment) : State Environment → Prop
  | report (span : Span) {fault : Fault} (h : fault.isLexical = false) :
      Stops s (s.report span fault)
  | earlier (h : s.diagnostics.isEmpty = false) : Stops s s

def Fails (limit : Option Nat) (s t : State Environment) : Prop :=
  ∃ u, s.Reaches limit u ∧ u.Stops t

section Reaches

variable {limit : Option Nat} {s t : State Environment} {token : Token} {rest : List Token}

theorem Step.diagnostics (h : s.Step limit t) : t.diagnostics = s.diagnostics := by
  cases h <;> rfl

theorem Reaches.diagnostics (h : s.Reaches limit t) : t.diagnostics = s.diagnostics := by
  induction h with
  | refl => rfl
  | tail _ hstep ih => exact hstep.diagnostics.trans ih

theorem Reaches.read (h : s.Reaches limit t) (hrest : t.rest = token :: rest) :
    s.Reaches limit { t with rest := rest } :=
  h.tail (.read hrest)

theorem Reaches.report (h : s.Reaches limit t) (span : Span) {fault : Fault}
    (hfault : fault.isLexical = false) : s.Fails limit (t.report span fault) :=
  ⟨t, h, .report span hfault⟩

theorem Fails.body (h : s.Fails limit t) (inBody : Bool) :
    s.Fails limit { t with inBody := inBody } := by
  obtain ⟨u, hu, hstops⟩ := h
  have hbody := hu.tail (Step.body u inBody)
  cases hstops with
  | report span hfault => exact ⟨_, hbody, .report span hfault⟩
  | earlier hfaulty => exact ⟨_, hbody, .earlier hfaulty⟩

theorem Fails.nesting (h : s.Fails limit t) (nesting : Nat) :
    s.Fails limit { t with nesting := nesting } := by
  obtain ⟨u, hu, hstops⟩ := h
  have hnesting := hu.tail (Step.nesting u nesting)
  cases hstops with
  | report span hfault => exact ⟨_, hnesting, .report span hfault⟩
  | earlier hfaulty => exact ⟨_, hnesting, .earlier hfaulty⟩

end Reaches

end State

/-! ## Faults of the rules -/

theorem isLexical_of_resolve {s : State Environment} {n : String} {fault : Fault}
    (h : resolve s n = .error fault) : fault.isLexical = false := by
  unfold resolve at h
  dsimp only at h
  split at h
  · cases h
  · split at h
    · cases h
    · split at h
      · cases h
        rfl
      · split at h
        · cases h
        · split at h <;> cases h <;> rfl

theorem isLexical_of_declared {s : State Environment} {left : Node} {inBody target : Fault}
    {sign span : Span}
    {fault : Fault} (hbody : inBody.isLexical = false) (htarget : target.isLexical = false)
    (h : declared s left inBody target sign = .error (span, fault)) : fault.isLexical = false := by
  unfold declared at h
  split at h
  · cases h
    exact hbody
  · split at h
    · split at h
      · cases h
        rfl
      · cases h
    · cases h
      exact htarget

theorem isLexical_of_bind {env : Environment} {n : String} {b : UserBinding} {fault : Fault}
    (h : env.bind n b = .error fault) : fault.isLexical = false := by
  unfold Environment.bind at h
  split at h <;> cases h
  rfl

/-! ## Rules -/

namespace Outcome

variable {α : Type} {n : Nat}

/-- What is arrived at has been reached by steps, and a fault by steps before it. -/
def Proceeds (limit : Option Nat) (s : State Environment) (o : Outcome Environment n α) : Prop :=
  o.Satisfies (fun _ t => s.Reaches limit t) (s.Fails limit)

theorem Proceeds.imp {limit : Option Nat} {s : State Environment} {o : Outcome Environment n α}
    {onOk : α → State Environment → Prop} (h : o.Proceeds limit s)
    (hok : ∀ a t, t.rest.length < n → s.Reaches limit t → onOk a t) :
    o.Satisfies onOk (s.Fails limit) :=
  Satisfies.imp (Satisfies.bounded h) (fun a t ht => hok a t ht.1 ht.2) fun _ => id

end Outcome

section Rules

variable {limit : Option Nat} {left : Node} {s t : State Environment}

theorem proceeds_nest (h : s.Reaches limit t) (span : Span) (e : Expr) (depth : Nat) :
    (nest limit t span e depth).Proceeds limit s := by
  unfold Outcome.Proceeds
  rw [satisfies_nest]
  split
  · exact h
  · exact h.report span rfl

theorem proceeds_commit (h : s.Reaches limit t) (span : Span) (n : String) (b : UserBinding)
    (hb : ∀ env, t.environment.bind n b = .ok env → t.environment.Declares limit env) :
    (commit t span (Environment.attempt fun env => env.bind n b)).Proceeds limit s := by
  unfold Outcome.Proceeds
  rw [satisfies_commit_attempt]
  split
  next faultless =>
    split
    next env bound => exact h.tail (.declares faultless (hb env bound))
    next fault hbind => exact h.report span (isLexical_of_bind hbind)
  next hfaulty => exact ⟨t, h, .earlier (Bool.eq_false_iff.2 hfaulty)⟩

theorem proceeds_closingParen (h : s.Reaches limit t) : (closingParen t).Proceeds limit s := by
  unfold Outcome.Proceeds
  rw [satisfies_closingParen]
  rcases t.rest_cases with hrest | ⟨token, rest, hrest⟩
  · rw [State.next_of_nil hrest, if_neg (by simp)]
    exact h.report _ rfl
  · rw [hrest, List.tail_cons]
    split
    · exact h.read hrest
    · exact h.report _ rfl

/-- From a state that has been reached, the rules go on by steps. -/
structure StepsOn (limit : Option Nat) (t : State Environment) : Prop where
  expr {s : State Environment} (h : s.Reaches limit t) (floor : Nat) :
      (expr limit floor t).Proceeds limit s
  extend {s : State Environment} (h : s.Reaches limit t) (floor : Nat) (left : Node) :
    (extend limit floor left t).Proceeds limit s
  chain {s : State Environment} (h : s.Reaches limit t) (floor : Nat) (left : Node) :
    (chain limit floor left t).Proceeds limit s

theorem proceeds_enclosed (ih : StepsOn limit t) (h : s.Reaches limit t)
    {onOk : Node → Token → State Environment → Prop}
    (hok : ∀ inner closing u, u.rest.length < t.rest.length → s.Reaches limit u →
      onOk inner closing u) :
    (expr limit 0 t).Satisfies
      (fun inner u => (closingParen u).Satisfies (onOk inner) (s.Fails limit)) (s.Fails limit) := by
  refine (ih.expr h 0).imp fun inner u hu hreaches => ?_
  refine (proceeds_closingParen hreaches).imp fun closing v hv => ?_
  exact hok inner closing v (Nat.lt_trans hv hu)

theorem proceeds_grouping (ih : StepsOn limit t) (h : s.Reaches limit t) (opening : Span) :
    (grouping limit opening t).Proceeds limit s := by
  unfold Outcome.Proceeds
  rw [satisfies_grouping]
  exact proceeds_enclosed ih h fun inner closing u _ hu => proceeds_nest hu ..

theorem proceeds_callOrProduct (ih : StepsOn limit t) (h : s.Reaches limit t) (opening : Span) :
    (callOrProduct limit left opening t).Proceeds limit s := by
  unfold Outcome.Proceeds
  by_cases hname : ∃ n, left.expr = .name n
  · obtain ⟨n, hname⟩ := hname
    rw [satisfies_call hname]
    split
    · exact h.report _ rfl
    · exact proceeds_enclosed ih h fun arg closing u _ hu => proceeds_nest hu ..
  · rw [satisfies_product fun n he => hname ⟨n, he⟩]
    exact (proceeds_grouping ih h opening).imp fun group u _ hu => proceeds_nest hu ..

theorem proceeds_assignment (ih : StepsOn limit t) (h : s.Reaches limit t) (n : String)
    (target : Span) : (assignment limit n target t).Proceeds limit s := by
  unfold Outcome.Proceeds
  rw [satisfies_assignment]
  refine (ih.expr h 0).imp fun value u _ hu => ?_
  refine (proceeds_commit hu target n (.assigned value.expr.evaluate)
    fun env bound => .assigned bound).imp fun _ v _ hv => ?_
  exact proceeds_nest hv ..

theorem proceeds_definition (ih : StepsOn limit { t with inBody := true }) (h : s.Reaches limit t)
    (n : String) (target : Span) : (definition limit n target t).Proceeds limit s := by
  have hbody : s.Reaches limit { t with inBody := true } := h.tail (.body t true)
  unfold Outcome.Proceeds
  rw [satisfies_definition]
  have hread := (readsPhrases limit { t with inBody := true }).expr 0
  refine ((ih.expr hbody 0).and hread).imp (fun body u hu => ?_) fun u hu => hu.body false
  obtain ⟨hreaches, p, hp, -, -⟩ := hu
  have hreads := hp.reads
  rw [← hreads.environment_of_inBody] at hreads
  refine (proceeds_commit (hreaches.tail (.body u false)) target n (.defined body.expr)
    fun env bound => .defined hreads hp.allowed bound).imp fun _ v _ hv => ?_
  exact proceeds_nest hv ..

theorem proceeds_chain
    (ih : ∀ u : State Environment, u.rest.length < t.rest.length → StepsOn limit u)
    (h : s.Reaches limit t) (floor : Nat) (left : Node) :
    (chain limit floor left t).Proceeds limit s := by
  unfold Outcome.Proceeds
  by_cases hfloor : t.next.kind.precedence ≤ floor
  · rw [satisfies_chain_closed hfloor]
    exact h
  · obtain ⟨token, rest, op, hrest, hop, hop_floor⟩ := operator_of_precedence hfloor
    have hlt : rest.length < t.rest.length := by simp [hrest]
    rw [satisfies_chain_operator hrest hop, if_neg (Nat.not_le.2 hop_floor)]
    refine ((ih _ hlt).expr (h.read hrest) op.precedence).imp fun right u hu hreaches => ?_
    have hu : u.rest.length < t.rest.length := Nat.lt_trans hu hlt
    refine (proceeds_nest hreaches ..).imp fun node v hv hreaches => ?_
    have hv : v.rest.length < t.rest.length := by omega
    refine ((ih v hv).extend hreaches op.precedence node).imp fun folded w hw hreaches => ?_
    exact (ih w (by omega)).chain hreaches floor folded

theorem proceeds_extend
    (ih : ∀ u : State Environment, u.rest.length < t.rest.length → StepsOn limit u)
    (h : s.Reaches limit t) (floor : Nat) (left : Node) :
    (extend limit floor left t).Proceeds limit s := by
  unfold Outcome.Proceeds
  by_cases hattach : t.next.kind.attaches = false
  · rw [satisfies_extend_chain hattach]
    exact proceeds_chain ih h floor left
  · rcases t.rest_cases with hrest | ⟨token, rest, hrest⟩
    · rw [State.next_of_nil hrest] at hattach
      exact absurd rfl hattach
    · rw [State.next_of_rest hrest] at hattach
      have hlt : rest.length < t.rest.length := by simp [hrest]
      have hreaches : s.Reaches limit { t with rest := rest } := h.read hrest
      have continued (node : Node) (u : State Environment) (hu : u.rest.length < rest.length + 1)
          (hreaches : s.Reaches limit u) :
          (extend limit floor node u).Satisfies (fun _ v => s.Reaches limit v)
            (s.Fails limit) := by
        have hu : u.rest.length < t.rest.length := by omega
        exact (ih u hu).extend hreaches floor node
      cases hk : token.kind with
      | leftParen =>
          rw [satisfies_extend_leftParen hrest hk]
          exact (proceeds_callOrProduct (ih _ hlt) hreaches token.span).imp continued
      | bang =>
          rw [satisfies_extend_bang hrest hk]
          split
          · exact (proceeds_nest hreaches ..).imp continued
          · exact hreaches.report _ rfl
      | equals =>
          rw [satisfies_extend_equals hrest hk]
          split
          next hdeclared => exact h.report _ (isLexical_of_declared rfl rfl hdeclared)
          next n _ =>
            exact (proceeds_assignment (ih _ hlt) hreaches n left.span).imp continued
      | colon =>
          rw [satisfies_extend_colon hrest hk]
          split
          next hdeclared => exact h.report _ (isLexical_of_declared rfl rfl hdeclared)
          next n _ =>
            exact (proceeds_definition (ih _ hlt) hreaches n left.span).imp continued
      | _ => exact absurd (congrArg TokenKind.attaches hk) hattach

theorem proceeds_operand
    (ih : ∀ u : State Environment, u.rest.length < t.rest.length → StepsOn limit u)
    (h : s.Reaches limit t) (floor : Nat) : (operand limit floor t).Proceeds limit s := by
  unfold Outcome.Proceeds
  rcases t.rest_cases with hrest | ⟨token, rest, hrest⟩
  · rw [satisfies_operand_nil hrest]
    exact h.report _ rfl
  · have hlt : rest.length < t.rest.length := by simp [hrest]
    have hreaches : s.Reaches limit { t with rest := rest } := h.read hrest
    cases hk : token.kind with
    | number value =>
        rw [satisfies_operand_number hrest hk]
        exact (ih _ hlt).extend hreaches floor _
    | identifier =>
        rw [satisfies_operand_identifier hrest hk]
        split
        next e _ => exact (ih _ hlt).extend hreaches floor _
        next fault hresolve => exact hreaches.report _ (isLexical_of_resolve hresolve)
    | minus =>
        rw [satisfies_operand_minus hrest hk]
        refine ((ih _ hlt).expr hreaches _).imp fun inner u hu hreaches => ?_
        have hu : u.rest.length < t.rest.length := Nat.lt_trans hu hlt
        refine (proceeds_nest hreaches ..).imp fun node v hv hreaches => ?_
        exact (ih v (by omega)).extend hreaches floor node
    | leftParen =>
        rw [satisfies_operand_leftParen hrest hk]
        refine (proceeds_grouping (ih _ hlt) hreaches _).imp fun node u hu hreaches => ?_
        exact (ih u (Nat.lt_trans hu hlt)).extend hreaches floor node
    | _ =>
        rw [satisfies_operand_other hrest (by simp [hk]) (by simp [hk]) (by simp [hk])
          (by simp [hk])]
        refine hreaches.report _ ?_
        split <;> rfl

theorem proceeds_expr
    (ih : ∀ u : State Environment, u.rest.length < t.rest.length → StepsOn limit u)
    (h : s.Reaches limit t) (floor : Nat) : (expr limit floor t).Proceeds limit s := by
  unfold Outcome.Proceeds
  rw [satisfies_expr]
  split
  next =>
    have hinside := h.tail (.nesting t (t.nesting + 1))
    have hoperand := proceeds_operand (t := { t with nesting := t.nesting + 1 }) ih hinside floor
    exact Outcome.Satisfies.imp hoperand (fun node u hu => hu.tail (.nesting u _))
      fun u hu => hu.nesting _
  next => exact h.report _ rfl

theorem stepsOn (limit : Option Nat) (t : State Environment) : StepsOn limit t := by
  have ih (u : State Environment) (_ : u.rest.length < t.rest.length) : StepsOn limit u :=
    stepsOn limit u
  exact ⟨proceeds_expr ih, proceeds_extend ih, proceeds_chain ih⟩
termination_by t.rest.length

end Rules

end Parser

end Calculator

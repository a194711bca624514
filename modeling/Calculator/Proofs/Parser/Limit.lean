import Calculator.Line
import Calculator.Proofs.Parser.Completeness
import Calculator.Proofs.Parser.Steps

/-!
# The limit on depth

With a limit on the depth of trees the rules arrive where they do without one,
or they abort because the line is nested too deeply, and report nothing else.
-/

namespace Calculator

namespace Parser

/-- Where the parser arrives, the diagnostics are as they were. -/
theorem Outcome.Proceeds.imp_of_diagnostics {α : Type} {n : Nat} {o : Outcome Environment n α}
    {limit : Option Nat} {s : State Environment} {onOk onOk' : α → State Environment → Prop}
    {onAbort : State Environment → Prop}
    (hsteps : o.Proceeds limit s) (h : o.Satisfies onOk onAbort)
    (hok : ∀ a t, t.rest.length < n → t.diagnostics = s.diagnostics → onOk a t → onOk' a t) :
    o.Satisfies onOk' onAbort := by
  cases o with
  | ok a t hbound => exact hok a t hbound (State.Reaches.diagnostics hsteps) h
  | abort t => exact h

section Limit

variable {limit : Option Nat} {floor : Nat} {left : Node} {s : State Environment}
  {onOk onOk' : Node → State Environment → Prop} {onAbort : State Environment → Prop}

/-- What holds wherever the unlimited rules lead holds with a limit, if being too deep will do. -/
structure Limits (limit : Option Nat) (s : State Environment) : Prop where
  expr {floor : Nat} {onOk : Node → State Environment → Prop} {onAbort : State Environment → Prop}
    (h : (expr none floor s).Satisfies onOk onAbort)
    (hdeep : Aborts onAbort s.diagnostics .tooDeep) : (expr limit floor s).Satisfies onOk onAbort
  extend {floor : Nat} {left : Node} {onOk : Node → State Environment → Prop}
      {onAbort : State Environment → Prop}
    (h : (extend none floor left s).Satisfies onOk onAbort)
    (hdeep : Aborts onAbort s.diagnostics .tooDeep) :
    (extend limit floor left s).Satisfies onOk onAbort
  chain {floor : Nat} {left : Node} {onOk : Node → State Environment → Prop}
      {onAbort : State Environment → Prop}
    (h : (chain none floor left s).Satisfies onOk onAbort)
    (hdeep : Aborts onAbort s.diagnostics .tooDeep) :
    (chain limit floor left s).Satisfies onOk onAbort

theorem limits_nest (limit : Option Nat) {span : Span} {e : Expr} {depth : Nat}
    (h : (nest none s span e depth).Satisfies onOk onAbort)
    (hdeep : Aborts onAbort s.diagnostics .tooDeep) :
    (nest limit s span e depth).Satisfies onOk onAbort := by
  rw [satisfies_nest] at h ⊢
  split
  · exact h
  · exact hdeep _ span rfl

theorem commit_imp {change : Environment → Except Fault Unit × Environment} {span : Span}
    {onOk onOk' : Unit → State Environment → Prop}
    (h : (commit s span change).Satisfies onOk onAbort)
    (hok : ∀ a t, t.diagnostics = s.diagnostics → onOk a t → onOk' a t) :
    (commit s span change).Satisfies onOk' onAbort := by
  rw [satisfies_commit] at h ⊢
  split
  next faultless =>
    rw [if_pos faultless] at h
    generalize change s.environment = changed at h
    obtain ⟨result, env⟩ := changed
    cases result with
    | ok _ => exact hok _ _ rfl h
    | error fault => exact h
  next hfaulty => rwa [if_neg hfaulty] at h

theorem Limits.expr_imp (ih : Limits limit s)
    (h : (Parser.expr none floor s).Satisfies onOk onAbort)
    (hdeep : Aborts onAbort s.diagnostics .tooDeep)
    (hok : ∀ node t, t.rest.length < s.rest.length → t.diagnostics = s.diagnostics →
      onOk node t → onOk' node t) : (Parser.expr limit floor s).Satisfies onOk' onAbort :=
  ((stepsOn limit s).expr .refl floor).imp_of_diagnostics (ih.expr h hdeep) hok

theorem Limits.enclosed_imp (ih : Limits limit s)
    {onOk onOk' : Node → Token → State Environment → Prop}
    (h : (Parser.expr none 0 s).Satisfies
      (fun inner t => (closingParen t).Satisfies (onOk inner) onAbort) onAbort)
    (hdeep : Aborts onAbort s.diagnostics .tooDeep)
    (hok : ∀ inner closing t, t.diagnostics = s.diagnostics →
      onOk inner closing t → onOk' inner closing t) :
    (Parser.expr limit 0 s).Satisfies
      (fun inner t => (closingParen t).Satisfies (onOk' inner) onAbort) onAbort := by
  refine ih.expr_imp h hdeep fun inner t _ ht hclosing => ?_
  have hsteps : (closingParen t).Proceeds limit t := proceeds_closingParen .refl
  refine hsteps.imp_of_diagnostics hclosing fun closing u _ hu => ?_
  exact hok inner closing u (hu.trans ht)

theorem limits_grouping (ih : Limits limit s) {opening : Span}
    (h : (grouping none opening s).Satisfies onOk onAbort)
    (hdeep : Aborts onAbort s.diagnostics .tooDeep) :
    (grouping limit opening s).Satisfies onOk onAbort := by
  rw [satisfies_grouping] at h ⊢
  exact ih.enclosed_imp h hdeep fun inner closing t ht hnest => limits_nest limit hnest (ht ▸ hdeep)

theorem limits_callOrProduct (ih : Limits limit s) {opening : Span}
    (h : (callOrProduct none left opening s).Satisfies onOk onAbort)
    (hdeep : Aborts onAbort s.diagnostics .tooDeep) :
    (callOrProduct limit left opening s).Satisfies onOk onAbort := by
  by_cases hname : ∃ n, left.expr = .name n
  · obtain ⟨n, hname⟩ := hname
    rw [satisfies_call hname] at h ⊢
    cases hcallee : callee? s.environment n with
    | none =>
        rw [hcallee] at h
        exact h
    | some call =>
        rw [hcallee] at h
        exact ih.enclosed_imp h hdeep fun arg closing t ht hnest =>
          limits_nest limit hnest (ht ▸ hdeep)
  · have hnot : ∀ n, left.expr ≠ .name n := fun n he => hname ⟨n, he⟩
    rw [satisfies_product hnot] at h ⊢
    have hgroup := limits_grouping ih h hdeep
    exact (proceeds_grouping (stepsOn limit s) .refl opening).imp_of_diagnostics hgroup
      fun group t _ ht hnest => limits_nest limit hnest (ht ▸ hdeep)

theorem limits_assignment (ih : Limits limit s) {n : String} {target : Span}
    (h : (assignment none n target s).Satisfies onOk onAbort)
    (hdeep : Aborts onAbort s.diagnostics .tooDeep) :
    (assignment limit n target s).Satisfies onOk onAbort := by
  rw [satisfies_assignment] at h ⊢
  refine ih.expr_imp h hdeep fun value t _ ht hcommit => ?_
  refine commit_imp hcommit fun _ u hu hnest => ?_
  exact limits_nest limit hnest (hu.trans ht ▸ hdeep)

theorem limits_definition (ih : Limits limit { s with inBody := true }) {n : String} {target : Span}
    (h : (definition none n target s).Satisfies onOk onAbort)
    (hdeep : Aborts onAbort s.diagnostics .tooDeep) :
    (definition limit n target s).Satisfies onOk onAbort := by
  rw [satisfies_definition] at h ⊢
  refine ih.expr_imp h (fun t => hdeep { t with inBody := false }) fun body t _ ht hcommit => ?_
  refine commit_imp hcommit fun _ u hu hnest => ?_
  exact limits_nest limit hnest (hu.trans ht ▸ hdeep)

theorem limits_chain (ih : ∀ u : State Environment, u.rest.length < s.rest.length → Limits limit u)
    (h : (chain none floor left s).Satisfies onOk onAbort)
    (hdeep : Aborts onAbort s.diagnostics .tooDeep) :
    (chain limit floor left s).Satisfies onOk onAbort := by
  by_cases hfloor : s.next.kind.precedence ≤ floor
  · rw [satisfies_chain_closed hfloor] at h ⊢
    exact h
  · obtain ⟨token, rest, op, hrest, hop, hop_floor⟩ := operator_of_precedence hfloor
    have hlt : rest.length < s.rest.length := by simp [hrest]
    rw [satisfies_chain_operator hrest hop, if_neg (Nat.not_le.2 hop_floor)] at h ⊢
    refine (ih _ hlt).expr_imp h hdeep fun right t hbound ht hnest => ?_
    have hbound : t.rest.length < s.rest.length := Nat.lt_trans hbound hlt
    have hnode := limits_nest limit hnest (ht ▸ hdeep)
    refine (proceeds_nest .refl ..).imp_of_diagnostics hnode fun node u hshort hu hextend => ?_
    have hdeep : Aborts onAbort u.diagnostics .tooDeep := hu.trans ht ▸ hdeep
    have hfolded := (ih u (by omega)).extend hextend hdeep
    refine ((stepsOn limit u).extend .refl _ node).imp_of_diagnostics hfolded ?_
    intro folded v hrest hv hchain
    exact (ih v (by omega)).chain hchain (hv ▸ hdeep)

theorem limits_extend (ih : ∀ u : State Environment, u.rest.length < s.rest.length → Limits limit u)
    (h : (extend none floor left s).Satisfies onOk onAbort)
    (hdeep : Aborts onAbort s.diagnostics .tooDeep) :
    (extend limit floor left s).Satisfies onOk onAbort := by
  by_cases hattach : s.next.kind.attaches = false
  · rw [satisfies_extend_chain hattach] at h ⊢
    exact limits_chain ih h hdeep
  · rcases s.rest_cases with hrest | ⟨token, rest, hrest⟩
    · rw [State.next_of_nil hrest] at hattach
      exact absurd rfl hattach
    · rw [State.next_of_rest hrest] at hattach
      have hlt : rest.length < s.rest.length := by simp [hrest]
      have continued (node : Node) (t : State Environment)
          (hbound : t.rest.length < rest.length + 1)
          (ht : t.diagnostics = s.diagnostics)
          (hextend : (Parser.extend none floor node t).Satisfies onOk onAbort) :
          (Parser.extend limit floor node t).Satisfies onOk onAbort := by
        have hbound : t.rest.length < s.rest.length := by omega
        exact (ih t hbound).extend hextend (ht ▸ hdeep)
      cases hk : token.kind with
      | leftParen =>
          rw [satisfies_extend_leftParen hrest hk] at h ⊢
          exact (proceeds_callOrProduct (stepsOn limit _) .refl _).imp_of_diagnostics
            (limits_callOrProduct (ih _ hlt) h hdeep) continued
      | bang =>
          rw [satisfies_extend_bang hrest hk] at h ⊢
          split
          next natural =>
            rw [if_pos natural] at h
            exact (proceeds_nest .refl ..).imp_of_diagnostics (limits_nest limit h hdeep) continued
          next unnatural =>
            rw [if_neg unnatural] at h
            exact h
      | equals =>
          rw [satisfies_extend_equals hrest hk] at h ⊢
          split
          next hdeclared =>
            rw [hdeclared] at h
            exact h
          next n hdeclared =>
            rw [hdeclared] at h
            exact (proceeds_assignment (stepsOn limit _) .refl n _).imp_of_diagnostics
              (limits_assignment (ih _ hlt) h hdeep) continued
      | colon =>
          rw [satisfies_extend_colon hrest hk] at h ⊢
          split
          next hdeclared =>
            rw [hdeclared] at h
            exact h
          next n hdeclared =>
            rw [hdeclared] at h
            exact (proceeds_definition (stepsOn limit _) .refl n _).imp_of_diagnostics
              (limits_definition (ih _ hlt) h hdeep) continued
      | _ => exact absurd (congrArg TokenKind.attaches hk) hattach

theorem limits_operand
    (ih : ∀ u : State Environment, u.rest.length < s.rest.length → Limits limit u)
    (h : (operand none floor s).Satisfies onOk onAbort)
    (hdeep : Aborts onAbort s.diagnostics .tooDeep) :
    (operand limit floor s).Satisfies onOk onAbort := by
  rcases s.rest_cases with hrest | ⟨token, rest, hrest⟩
  · rw [satisfies_operand_nil hrest] at h ⊢
    exact h
  · have hlt : rest.length < s.rest.length := by simp [hrest]
    cases hk : token.kind with
    | number value =>
        rw [satisfies_operand_number hrest hk] at h ⊢
        exact (ih _ hlt).extend h hdeep
    | identifier =>
        rw [satisfies_operand_identifier hrest hk] at h ⊢
        split
        next e hresolve =>
          rw [hresolve] at h
          exact (ih _ hlt).extend h hdeep
        next fault hresolve =>
          rw [hresolve] at h
          exact h
    | minus =>
        rw [satisfies_operand_minus hrest hk] at h ⊢
        refine (ih _ hlt).expr_imp h hdeep fun inner t hbound ht hnest => ?_
        have hbound : t.rest.length < s.rest.length := Nat.lt_trans hbound hlt
        have hnode := limits_nest limit hnest (ht ▸ hdeep)
        refine (proceeds_nest .refl ..).imp_of_diagnostics hnode fun node u hshort hu hextend => ?_
        exact (ih u (by omega)).extend hextend (hu.trans ht ▸ hdeep)
    | leftParen =>
        rw [satisfies_operand_leftParen hrest hk] at h ⊢
        have hgroup := limits_grouping (ih _ hlt) h hdeep
        refine (proceeds_grouping (stepsOn limit _) .refl _).imp_of_diagnostics hgroup ?_
        intro node t hbound ht hextend
        exact (ih t (Nat.lt_trans hbound hlt)).extend hextend (ht ▸ hdeep)
    | _ =>
        rw [satisfies_operand_other hrest (by simp [hk]) (by simp [hk]) (by simp [hk])
          (by simp [hk])] at h ⊢
        exact h

theorem limits_expr (ih : ∀ u : State Environment, u.rest.length < s.rest.length → Limits limit u)
    (h : (expr none floor s).Satisfies onOk onAbort)
    (hdeep : Aborts onAbort s.diagnostics .tooDeep) :
    (expr limit floor s).Satisfies onOk onAbort := by
  rw [satisfies_expr] at h ⊢
  split
  next => exact limits_operand ih h fun t => hdeep { t with nesting := t.nesting - 1 }
  next => exact hdeep _ s.next.span rfl

theorem limits (limit : Option Nat) (s : State Environment) : Limits limit s := by
  have ih (u : State Environment) (_ : u.rest.length < s.rest.length) : Limits limit u :=
    limits limit u
  exact ⟨limits_expr ih, limits_extend ih, limits_chain ih⟩
termination_by s.rest.length

/-! ## Lines -/

theorem limits_statement {onOk : Expr → State Environment → Prop}
    (h : (statement none s).Satisfies onOk onAbort)
    (hdeep : Aborts onAbort s.diagnostics .tooDeep) :
    (statement limit s).Satisfies onOk onAbort := by
  rw [satisfies_statement] at h ⊢
  split
  next hnext =>
    rw [if_pos hnext] at h
    exact h
  next hnext =>
    rw [if_neg hnext] at h
    exact (limits limit s).expr h hdeep

end Limit

/-- A line is read as it is without a limit, or its one fault is that it is nested too deeply. -/
theorem run_limited (limit : Option Nat) (s : State Environment) :
    run limit s = run none s ∨
      ∃ span, (run limit s).1 = .error ∧
        (run limit s).2.diagnostics = s.diagnostics.report span .tooDeep := by
  have hself := (statement none s).satisfies_self
  have hlimited : (statement limit s).Satisfies (fun e t => ∃ h, statement none s = .ok e t h)
      fun t => statement none s = .abort t ∨
        ∃ span, t.diagnostics = s.diagnostics.report span .tooDeep :=
    limits_statement (hself.imp (fun _ _ => id) fun _ => .inl) fun t span ht => .inr ⟨span, ht⟩
  unfold run
  cases hstatement : statement limit s with
  | ok e t hbound =>
      rw [hstatement] at hlimited
      obtain ⟨_, hnone⟩ := hlimited
      rw [hnone]
      exact .inl rfl
  | abort t =>
      rw [hstatement] at hlimited
      rcases hlimited with hnone | ⟨span, ht⟩
      · rw [hnone]
        exact .inl rfl
      · exact .inr ⟨span, rfl, ht⟩

/-- A deletion has no depth. -/
theorem run_of_del (limit : Option Nat) {s : State Environment} (h : s.next.kind = .del) :
    run limit s = run none s := by
  unfold run statement
  rw [if_pos h, if_pos h]

end Parser

end Calculator

import Calculator.Proofs.Grammar.Phrase

/-!
# Conditions on readings

A condition on what a phrase is read as is traced back through its parts, as one
on where a rule arrives is in the calculus for the rules.
-/

namespace Calculator

namespace Phrase

/--
`onOk` holds of the tree and the environment that the phrase leads to, or
`onFault` of its fault.
-/
def Resolves (p : Phrase) (inBody : Bool) (env : Environment)
    (onOk : Expr → Environment → Prop) (onFault : Fault → Prop) : Prop :=
  match p.resolve inBody env with
  | .ok (e, env') => onOk e env'
  | .error fault => onFault fault

section Resolves

variable {inBody : Bool} {env : Environment} {onOk : Expr → Environment → Prop}
  {onFault : Fault → Prop} {p l r : Phrase} {n : String}

theorem Resolves.imp {onOk' : Expr → Environment → Prop} {onFault' : Fault → Prop}
    (h : p.Resolves inBody env onOk onFault)
    (hok : ∀ e env', p.Reads inBody env e env' → onOk e env' → onOk' e env')
    (hfault : ∀ fault, onFault fault → onFault' fault) :
    p.Resolves inBody env onOk' onFault' := by
  unfold Resolves at h ⊢
  cases hp : p.resolve inBody env with
  | ok result =>
      rw [hp] at h
      exact hok _ _ (reads_of_resolve hp) h
  | error fault =>
      rw [hp] at h
      exact hfault _ h

theorem resolves_name :
    (name n).Resolves inBody env onOk onFault ↔
      match readName inBody env n with
      | .ok e => onOk e env
      | .error fault => onFault fault := by
  unfold Resolves resolve
  cases readName inBody env n <;> rfl

theorem resolves_neg :
    (neg p).Resolves inBody env onOk onFault ↔
      p.Resolves inBody env (fun e env' => onOk (.unary .neg e) env') onFault := by
  unfold Resolves
  rw [resolve]
  cases p.resolve inBody env <;> rfl

theorem resolves_factorial :
    (factorial p).Resolves inBody env onOk onFault ↔
      p.Resolves inBody env
        (fun e env' =>
          if e.evaluate.isNatural then onOk (.unary .factorial e) env'
          else onFault .nonNaturalFactorial) onFault := by
  unfold Resolves
  rw [resolve]
  cases p.resolve inBody env with
  | error fault => rfl
  | ok result =>
      by_cases natural : result.1.evaluate.isNatural
      · simp only [bind, Except.bind, natural, if_true]
        rfl
      · simp only [bind, Except.bind, natural, Bool.false_eq_true, if_false]
        rfl

theorem resolves_binary {op : BinaryOp} :
    (binary l op r).Resolves inBody env onOk onFault ↔
      l.Resolves inBody env
        (fun e env' =>
          r.Resolves inBody env' (fun d env'' => onOk (.binary e op d) env'') onFault) onFault := by
  unfold Resolves
  rw [resolve]
  cases l.resolve inBody env with
  | error fault => rfl
  | ok result =>
      simp only [bind, Except.bind]
      cases r.resolve inBody result.2 <;> rfl

theorem resolves_product :
    (product l p).Resolves inBody env onOk onFault ↔
      l.Resolves inBody env
        (fun e env' =>
          p.Resolves inBody env' (fun d env'' => onOk (.binary e .mul (.grouping d)) env'')
            onFault) onFault := by
  unfold Resolves
  rw [resolve]
  cases l.resolve inBody env with
  | error fault => rfl
  | ok result =>
      simp only [bind, Except.bind]
      cases p.resolve inBody result.2 <;> rfl

theorem resolves_grouping :
    (grouping p).Resolves inBody env onOk onFault ↔
      p.Resolves inBody env (fun e env' => onOk (.grouping e) env') onFault := by
  unfold Resolves
  rw [resolve]
  cases p.resolve inBody env <;> rfl

theorem resolves_call :
    (call n p).Resolves inBody env onOk onFault ↔
      match readCallee inBody env n with
      | .ok apply => p.Resolves inBody env (fun e env' => onOk (apply e) env') onFault
      | .error fault => onFault fault := by
  unfold Resolves
  rw [resolve]
  cases readCallee inBody env n with
  | error fault => rfl
  | ok apply =>
      simp only [bind, Except.bind]
      cases p.resolve inBody env <;> rfl

theorem resolves_assignment :
    (assignment n p).Resolves inBody env onOk onFault ↔
      if inBody then onFault .assignmentInFunction
      else if env.contains n then onFault (.alreadyExists n)
      else
        p.Resolves false env
          (fun e env' =>
            match env'.declare n e.evaluate with
            | .ok env'' => onOk (.assignment n e) env''
            | .error fault => onFault fault) onFault := by
  unfold Resolves
  rw [resolve]
  cases inBody with
  | true => rfl
  | false =>
      cases env.contains n with
      | true => rfl
      | false =>
          simp only [Bool.false_eq_true, if_false, bind, Except.bind]
          cases p.resolve false env with
          | error fault => rfl
          | ok result =>
              dsimp only
              cases result.2.declare n result.1.evaluate <;> rfl

theorem resolves_definition :
    (definition n p).Resolves inBody env onOk onFault ↔
      if inBody then onFault .definitionInFunction
      else if env.contains n then onFault (.alreadyExists n)
      else
        p.Resolves true env
          (fun e env' =>
            match env'.define n e with
            | .ok env'' => onOk (.definition n e) env''
            | .error fault => onFault fault) onFault := by
  unfold Resolves
  rw [resolve]
  cases inBody with
  | true => rfl
  | false =>
      cases env.contains n with
      | true => rfl
      | false =>
          simp only [Bool.false_eq_true, if_false, bind, Except.bind]
          cases p.resolve true env with
          | error fault => rfl
          | ok result =>
              dsimp only
              cases result.2.define n result.1 <;> rfl

end Resolves

end Phrase

end Calculator

import Calculator.Proofs.Environment.History
import Calculator.Proofs.Parser.Correspondence
import Calculator.Workspace

/-!
# Workspaces and environments

A workspace with its two maps goes through a history as an environment with its
one map does: every operation has the same answer, and the variables and the
functions that there are afterwards are the same. So it has the one namespace
that an environment has by its form.
-/

namespace Calculator

/-- What an operation is answered with. -/
inductive Operation.Answer where
  | changed (result : Except Fault Unit)
  | removed (result : Except Fault Binary64)
  | read (tree : Expr) (diagnostics : Diagnostics)

namespace Environment

def answer (env : Environment) : Operation → Operation.Answer
  | .declare n value => .changed (attempt (fun env => env.declare n value) env).1
  | .define n body => .changed (attempt (fun env => env.define n body) env).1
  | .remove n => .removed ((env.remove n).map (·.1))
  | .clear => .changed (.ok ())
  | .line source => .read (readLine env source).expr (readLine env source).diagnostics

def workspace (env : Environment) : Workspace :=
  ⟨⟨env.values, env.ascending_values⟩, ⟨env.bodies, env.ascending_bodies⟩⟩

end Environment

namespace Workspace

def perform (w : Workspace) : Operation → Operation.Answer × Workspace
  | .declare n value => (.changed (w.declare n value).1, (w.declare n value).2)
  | .define n body => (.changed (w.define n body).1, (w.define n body).2)
  | .remove n => (.removed (w.remove n).1, (w.remove n).2)
  | .clear => (.changed (.ok ()), w.clear)
  | .line source =>
      (.read (w.readLine source).1.1 (w.readLine source).1.2, (w.readLine source).2)

def after (history : List Operation) : Workspace :=
  history.foldl (fun w op => (w.perform op).2) .empty

end Workspace

namespace Environment

variable {env env' : Environment} {n : String}

/-! ## Two maps for one -/

@[simp] theorem get?_values_workspace (env : Environment) (n : String) :
    env.workspace.values.get? n = env.valueOf? n := by
  apply Option.ext
  intro value
  rw [Table.get?_eq_some_iff]
  exact mem_values

@[simp] theorem get?_bodies_workspace (env : Environment) (n : String) :
    env.workspace.bodies.get? n = env.bodyOf? n := by
  apply Option.ext
  intro body
  rw [Table.get?_eq_some_iff]
  exact mem_bodies

/-- A workspace is that of an environment if its maps bind the same. -/
theorem eq_workspace {w : Workspace} (values : ∀ m, w.values.get? m = env.valueOf? m)
    (bodies : ∀ m, w.bodies.get? m = env.bodyOf? m) : w = env.workspace := by
  have hvalues : w.values = env.workspace.values :=
    Table.ext_get? fun m => by rw [values, get?_values_workspace]
  have hbodies : w.bodies = env.workspace.bodies :=
    Table.ext_get? fun m => by rw [bodies, get?_bodies_workspace]
  cases w
  cases hvalues
  cases hbodies
  rfl

theorem lookup_workspace (env : Environment) (n : String) :
    env.workspace.lookup n = env.lookup n := by
  unfold Workspace.lookup lookup
  rw [get?_values_workspace, get?_bodies_workspace, valueOf?, bodyOf?]
  cases env.bindings.get? n with
  | none => rfl
  | some b => cases b <;> rfl

theorem contains_workspace (env : Environment) (n : String) :
    env.workspace.contains n = env.contains n := by
  unfold Workspace.contains contains Table.contains
  rw [get?_values_workspace, get?_bodies_workspace, valueOf?, bodyOf?, Bool.or_assoc]
  cases env.bindings.get? n with
  | none => rfl
  | some b => cases b <;> rfl

/-! ## Changes -/

theorem workspace_insert_assigned (value : Binary64) (h : env.bindings.get? n = none) :
    workspace ⟨env.bindings.insert n (.assigned value)⟩ =
      { env.workspace with values := env.workspace.values.insert n value } := by
  refine (eq_workspace (fun m => ?values) fun m => ?bodies).symm
  case values =>
    rw [Table.get?_insert, get?_values_workspace, valueOf?, valueOf?, Table.get?_insert]
    by_cases hm : m = n <;> simp [hm]
  case bodies =>
    rw [get?_bodies_workspace, bodyOf?, bodyOf?, Table.get?_insert]
    by_cases hm : m = n <;> simp [hm, h]

theorem workspace_insert_defined (body : Expr) (h : env.bindings.get? n = none) :
    workspace ⟨env.bindings.insert n (.defined body)⟩ =
      { env.workspace with bodies := env.workspace.bodies.insert n body } := by
  refine (eq_workspace (fun m => ?values) fun m => ?bodies).symm
  case values =>
    rw [get?_values_workspace, valueOf?, valueOf?, Table.get?_insert]
    by_cases hm : m = n <;> simp [hm, h]
  case bodies =>
    rw [Table.get?_insert, get?_bodies_workspace, bodyOf?, bodyOf?, Table.get?_insert]
    by_cases hm : m = n <;> simp [hm]

theorem workspace_erase {value : Binary64} (h : env.bindings.get? n = some (.assigned value)) :
    workspace ⟨env.bindings.erase n⟩ =
      { env.workspace with values := env.workspace.values.erase n } := by
  refine (eq_workspace (fun m => ?values) fun m => ?bodies).symm
  case values =>
    rw [Table.get?_erase, get?_values_workspace, valueOf?, valueOf?, Table.get?_erase]
    by_cases hm : m = n <;> simp [hm]
  case bodies =>
    rw [get?_bodies_workspace, bodyOf?, bodyOf?, Table.get?_erase]
    by_cases hm : m = n <;> simp [hm, h]

/-! ## Operations -/

theorem declare_workspace (env : Environment) (n : String) (value : Binary64) :
    env.workspace.declare n value =
      ((Scope.declare env n value).1, (Scope.declare env n value).2.workspace) := by
  have hdeclare : Scope.declare env n value = _ := attempt_bind env n (.assigned value)
  rw [hdeclare, Workspace.declare, contains_workspace]
  cases hfresh : env.contains n with
  | true => rfl
  | false =>
      have hunbound := (contains_eq_false_iff.1 hfresh).2
      exact Prod.ext rfl (workspace_insert_assigned value hunbound).symm

theorem define_workspace (env : Environment) (n : String) (body : Expr) :
    env.workspace.define n body =
      ((Scope.define env n body).1, (Scope.define env n body).2.workspace) := by
  have hdefine : Scope.define env n body = _ := attempt_bind env n (.defined body)
  rw [hdefine, Workspace.define, contains_workspace]
  cases hfresh : env.contains n with
  | true => rfl
  | false =>
      have hunbound := (contains_eq_false_iff.1 hfresh).2
      exact Prod.ext rfl (workspace_insert_defined body hunbound).symm

theorem remove_workspace (env : Environment) (n : String) :
    env.workspace.remove n =
      ((env.remove n).map (·.1), (Scope.remove env n).2.workspace) := by
  rw [scope_remove, attempt, Workspace.remove, remove, lookup_workspace, Table.remove,
    get?_values_workspace, valueOf?]
  cases hlookup : env.lookup n with
  | none =>
      have hunbound := (contains_eq_false_iff.1 (contains_eq_false_iff_lookup.2 hlookup)).2
      have hvalue : env.workspace.values.get? n = none := by
        rw [get?_values_workspace, valueOf?, hunbound]
      rw [hunbound, Table.erase_eq_self hvalue]
      rfl
  | some binding =>
      cases binding with
      | assigned value =>
          have hbound := (bound_of_lookup (b := .assigned value) hlookup).2
          rw [hbound]
          exact Prod.ext rfl (workspace_erase hbound).symm
      | _ => rfl

end Environment

namespace Parser

def Counterparts.workspaces : Counterparts Workspace Environment where
  names _ := True
  environments w env := w = env.workspace
  lookup_eq {w env n} hw _ := by
    subst hw
    exact env.lookup_workspace n
  contains_eq {w env n} hw _ := by
    subst hw
    exact env.contains_workspace n
  declare {w env n} value hw _ := by
    subst hw
    exact ⟨congrArg Prod.fst (env.declare_workspace n value),
      congrArg Prod.snd (env.declare_workspace n value)⟩
  define {w env n} body hw _ := by
    subst hw
    exact ⟨congrArg Prod.fst (env.define_workspace n body),
      congrArg Prod.snd (env.define_workspace n body)⟩
  remove {w env n} hw _ := by
    subst hw
    refine ⟨?_, congrArg Prod.snd (env.remove_workspace n)⟩
    have hanswer := congrArg (fun r => Except.map (fun _ => ()) r.1) (env.remove_workspace n)
    rw [Environment.scope_remove, Environment.attempt]
    refine hanswer.trans ?_
    cases env.remove n <;> rfl

end Parser

namespace Environment

/-- A line is read alike, and what it declares or deletes comes into the right map. -/
theorem readLine_workspace (env : Environment) (source : String) :
    env.workspace.readLine source =
      (((readLine env source).expr, (readLine env source).diagnostics),
        (readLine env source).environment.workspace) := by
  have hstart : Parser.Counterparts.workspaces.environments env.workspace env := rfl
  obtain ⟨hexpr, hdiagnostics, henvironment⟩ :=
    Parser.Counterparts.workspaces.run_ofTokens (some maxNesting) hstart
      (fun _ _ _ => trivial) (lexicalFaults (tokenize source))
  exact Prod.ext (Prod.ext hexpr hdiagnostics) henvironment

theorem apply_eq_attempt (env : Environment) (op : Operation) :
    env.apply op = (attempt op.run env).2 := by
  unfold apply attempt
  cases op.run env <;> rfl

theorem perform_workspace (env : Environment) (op : Operation) :
    env.workspace.perform op = (env.answer op, (env.apply op).workspace) := by
  rw [apply_eq_attempt]
  cases op with
  | declare n value =>
      rw [Workspace.perform, declare_workspace]
      rfl
  | define n body =>
      rw [Workspace.perform, define_workspace]
      rfl
  | remove n =>
      rw [Workspace.perform, remove_workspace]
      rfl
  | clear => rfl
  | line source =>
      rw [Workspace.perform, readLine_workspace]
      rfl

end Environment

namespace Workspace

/-- After any history the workspace is that of the environment. -/
theorem after_eq_workspace (history : List Operation) :
    after history = (Environment.after history).workspace := by
  have hempty : empty = Environment.empty.workspace := rfl
  unfold after Environment.after
  rw [hempty]
  generalize Environment.empty = env
  induction history generalizing env with
  | nil => rfl
  | cons op rest ih =>
      rw [List.foldl_cons, List.foldl_cons, Environment.perform_workspace]
      exact ih _

/-! ## Refusals -/

section Refusals

variable {w : Workspace} {n : String} {fault : Fault}

theorem declare_of_error {value : Binary64} (h : (w.declare n value).1 = .error fault) :
    (w.declare n value).2 = w := by
  unfold declare at h ⊢
  split at h
  next hbound => rw [if_pos hbound]
  next => cases h

theorem define_of_error {body : Expr} (h : (w.define n body).1 = .error fault) :
    (w.define n body).2 = w := by
  unfold define at h ⊢
  split at h
  next hbound => rw [if_pos hbound]
  next => cases h

theorem remove_of_error (h : (w.remove n).1 = .error fault) : (w.remove n).2 = w := by
  unfold remove Table.remove at h ⊢
  cases hvalue : w.values.get? n with
  | none =>
      rw [Table.erase_eq_self hvalue]
      split <;> rfl
  | some value =>
      rw [hvalue] at h
      split at h
      · rfl
      · rfl
      · rfl
      · cases h

end Refusals

/--
After any history the names of the builtins, of the variables and of the
functions are all distinct, and each is found for what it is. A builtin stands
for itself whatever has been bound. A declaration, a definition or a removal
that is refused leaves everything as it was.
-/
theorem after_has_one_namespace (history : List Operation) :
    (Builtin.table.map Prod.fst ++ (after history).values.entries.map Prod.fst ++
        (after history).bodies.entries.map Prod.fst).Nodup ∧
      (∀ n builtin, Builtin.ofName? n = some builtin →
        (after history).lookup n = some builtin.binding) ∧
      (∀ n value, (after history).values.get? n = some value →
        (after history).lookup n = some (.assigned value)) ∧
      (∀ n body, (after history).bodies.get? n = some body →
        (after history).lookup n = some (.defined body)) ∧
      (∀ n, (after history).contains n ↔ (after history).lookup n ≠ none) ∧
      (∀ n value fault, ((after history).declare n value).1 = .error fault →
        ((after history).declare n value).2 = after history) ∧
      (∀ n body fault, ((after history).define n body).1 = .error fault →
        ((after history).define n body).2 = after history) ∧
      ∀ n fault, ((after history).remove n).1 = .error fault →
        ((after history).remove n).2 = after history := by
  have havoids := Environment.avoidsBuiltins_after history
  rw [after_eq_workspace]
  generalize Environment.after history = env at havoids
  refine ⟨havoids.nodup_names, ?builtin, ?value, ?body, fun n => ?contains,
    fun n value fault => declare_of_error, fun n body fault => define_of_error,
    fun n fault => remove_of_error⟩
  case builtin =>
    intro n builtin hn
    simp [lookup, hn]
  case value =>
    intro n value hn
    rw [Environment.get?_values_workspace, Environment.valueOf?_eq_some_iff] at hn
    rw [Environment.lookup_workspace]
    exact havoids.lookup hn
  case body =>
    intro n body hn
    rw [Environment.get?_bodies_workspace, Environment.bodyOf?_eq_some_iff] at hn
    rw [Environment.lookup_workspace]
    exact havoids.lookup hn
  case contains =>
    rw [Environment.contains_workspace, Environment.lookup_workspace]
    exact Environment.contains_iff_lookup

/-- A function stays defined where the rest of its line is at fault, and its name is taken. -/
theorem after_has_one_namespace_of_late_fault :
    (after [.line "f: x 3", .declare "a" (.zero false)]).bodies.get? "f" = some (.name "x") ∧
      (after [.line "f: x 3", .declare "a" (.zero false)]).lookup "f" =
        some (.defined (.name "x")) ∧
      ((after [.line "f: x 3", .declare "a" (.zero false)]).declare "f" (.zero true)).1 =
        .error (.alreadyExists "f") ∧
      ((after [.line "f: x 3", .declare "a" (.zero false)]).declare "f" (.zero true)).2 =
        after [.line "f: x 3", .declare "a" (.zero false)] ∧
      ((after [.line "f: x 3", .declare "a" (.zero false)]).remove "f").1 =
        .error .deleteFunction ∧
      ((after [.line "f: x 3", .declare "a" (.zero false)]).remove "f").2 =
        after [.line "f: x 3", .declare "a" (.zero false)] := by
  obtain ⟨-, -, -, hdefined, -, hdeclare, -, hremove⟩ :=
    after_has_one_namespace [.line "f: x 3", .declare "a" (.zero false)]
  have hf : (after [.line "f: x 3", .declare "a" (.zero false)]).bodies.get? "f" =
      some (.name "x") := by decide +kernel
  have htaken : ((after [.line "f: x 3", .declare "a" (.zero false)]).declare "f"
      (.zero true)).1 = .error (.alreadyExists "f") := by decide +kernel
  have hfunction : ((after [.line "f: x 3", .declare "a" (.zero false)]).remove "f").1 =
      .error .deleteFunction := by decide +kernel
  exact ⟨hf, hdefined _ _ hf, htaken, hdeclare _ _ _ htaken, hfunction, hremove _ _ hfunction⟩

end Workspace

end Calculator

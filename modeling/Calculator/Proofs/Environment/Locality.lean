import Calculator.Proofs.Parser.Correspondence
import Calculator.Proofs.Token.Lexemes

/-!
# The names on a line

A line depends on what the names on it stand for and on nothing else of the
environment, and it changes what these names stand for and nothing else.
-/

namespace Calculator

def namesOf (source : String) : List String :=
  ((tokenize source).filter (·.kind = .identifier)).map Token.lexeme

namespace Environment

variable {env env' : Environment} {n : String}

def AgreeOn (names : List String) (env env' : Environment) : Prop :=
  ∀ n ∈ names, env.lookup n = env'.lookup n

instance (names : List String) (env env' : Environment) : Decidable (AgreeOn names env env') :=
  inferInstanceAs (Decidable (∀ n ∈ names, env.lookup n = env'.lookup n))

def AgreeOff (names : List String) (env env' : Environment) : Prop :=
  ∀ n, n ∉ names → env.lookup n = env'.lookup n

/--
Two runs of a line keep in step: their environments agree on the names of the
line, and each is at all other names as it was at first.
-/
structure InStep (names : List String) (start start' env env' : Environment) : Prop where
  agree : AgreeOn names env env'
  unchanged : AgreeOff names start env
  unchanged' : AgreeOff names start' env'

/-- They keep in step when the same name of the line comes to stand for the same in both. -/
theorem InStep.update {names : List String} {start start' next next' : Environment}
    {binding : Option Binding} (h : InStep names start start' env env') (hn : n ∈ names)
    (hnext : ∀ m, next.lookup m = if m = n then binding else env.lookup m)
    (hnext' : ∀ m, next'.lookup m = if m = n then binding else env'.lookup m) :
    InStep names start start' next next' where
  agree m hm := by rw [hnext, hnext', h.agree m hm]
  unchanged m hm := by
    have hne : m ≠ n := fun heq => hm (heq ▸ hn)
    rw [hnext, if_neg hne, h.unchanged m hm]
  unchanged' m hm := by
    have hne : m ≠ n := fun heq => hm (heq ▸ hn)
    rw [hnext', if_neg hne, h.unchanged' m hm]

theorem InStep.contains_eq {names : List String} {start start' : Environment}
    (h : InStep names start start' env env') (hn : n ∈ names) :
    env.contains n = env'.contains n := by
  rw [Bool.eq_iff_iff, contains_iff_lookup, contains_iff_lookup, h.agree n hn]

theorem InStep.bind {names : List String} {start start' : Environment}
    (h : InStep names start start' env env') (hn : n ∈ names) (b : UserBinding) :
    Parser.SameChange (InStep names start start') (attempt (fun env => env.bind n b) env)
      (attempt (fun env => env.bind n b) env') := by
  have hcontains := h.contains_eq hn
  rw [attempt_bind, attempt_bind, ← hcontains]
  cases hfresh : env.contains n with
  | true => exact ⟨rfl, h⟩
  | false =>
      have bound : env.bind n b = .ok _ := bind_eq_ok.2 ⟨hfresh, rfl⟩
      have bound' : env'.bind n b = .ok _ := bind_eq_ok.2 ⟨hcontains ▸ hfresh, rfl⟩
      exact ⟨rfl, h.update hn (lookup_of_bind bound) (lookup_of_bind bound')⟩

theorem InStep.remove {names : List String} {start start' : Environment}
    (h : InStep names start start' env env') (hn : n ∈ names) :
    Parser.SameChange (InStep names start start') (Scope.remove env n) (Scope.remove env' n) := by
  have hagree := h.agree n hn
  rw [scope_remove, scope_remove, attempt, attempt, Environment.remove, Environment.remove,
    ← hagree]
  cases hlookup : env.lookup n with
  | none => exact ⟨rfl, h⟩
  | some binding =>
      cases binding with
      | assigned value =>
          have hloses := loses_erase hlookup
          have hloses' := loses_erase (hagree ▸ hlookup)
          exact ⟨rfl, h.update hn hloses.lookup hloses'.lookup⟩
      | _ => exact ⟨rfl, h⟩

end Environment

namespace Parser

def Counterparts.inStep (names : List String) (start start' : Environment) :
    Counterparts Environment Environment where
  names n := n ∈ names
  environments := Environment.InStep names start start'
  lookup_eq henv hn := henv.agree _ hn
  contains_eq henv hn := henv.contains_eq hn
  declare _ henv hn := henv.bind hn _
  define _ henv hn := henv.bind hn _
  remove henv hn := henv.remove hn

end Parser

/-! ## Lines -/

section Lines

variable {source : String} {env env' : Environment}

/-- What two environments in which the same line is read have in common before and after it. -/
structure ReadAlike (source : String) (env env' : Environment) : Prop where
  expr : (readLine env source).expr = (readLine env' source).expr
  diagnostics : (readLine env source).diagnostics = (readLine env' source).diagnostics
  environment : Environment.InStep (namesOf source) env env' (readLine env source).environment
    (readLine env' source).environment

theorem readAlike (h : Environment.AgreeOn (namesOf source) env env') :
    ReadAlike source env env' := by
  have hnames : ∀ t ∈ tokenize source, t.kind = .identifier → t.lexeme ∈ namesOf source :=
    fun t ht hk => List.mem_map_of_mem (List.mem_filter.2 ⟨ht, by simpa using hk⟩)
  have hstart : Environment.InStep (namesOf source) env env' env env' :=
    ⟨h, fun _ _ => rfl, fun _ _ => rfl⟩
  obtain ⟨hexpr, hdiagnostics, henvironment⟩ :=
    (Parser.Counterparts.inStep (namesOf source) env env').run_ofTokens (some maxNesting)
      hstart hnames (lexicalFaults (tokenize source))
  exact ⟨hexpr, hdiagnostics, henvironment⟩

/-- Of two lines that leave each other's names alone, either may be read first. -/
theorem lookup_either_order {other : String}
    (h : Environment.AgreeOn (namesOf other) (readLine env source).environment env)
    (h' : Environment.AgreeOn (namesOf source) (readLine env other).environment env) (n : String) :
    (readLine (readLine env source).environment other).environment.lookup n =
      (readLine (readLine env other).environment source).environment.lookup n := by
  have hother := (readAlike h).environment
  have hsource := (readAlike h').environment
  by_cases hn : n ∈ namesOf other
  · rw [hother.agree n hn]
    by_cases hm : n ∈ namesOf source
    · rw [hsource.agree n hm, h n hn, h' n hm]
    · exact hsource.unchanged n hm
  · rw [← hother.unchanged n hn]
    by_cases hm : n ∈ namesOf source
    · exact (hsource.agree n hm).symm
    · rw [← hsource.unchanged n hm, ← hother.unchanged' n hn, ← hsource.unchanged' n hm]

end Lines

/--
A line is read alike in environments that agree on the names on it. They agree
on these names afterwards as well, and all other names stand for what they stood
for before. So two lines, neither of which changes what a name on the other
stands for, may be read in either order.
-/
theorem readLine_local (source : String) (env env' : Environment)
    (h : Environment.AgreeOn (namesOf source) env env') :
    (readLine env source).expr = (readLine env' source).expr ∧
      (readLine env source).diagnostics = (readLine env' source).diagnostics ∧
      Environment.AgreeOn (namesOf source) (readLine env source).environment
        (readLine env' source).environment ∧
      Environment.AgreeOff (namesOf source) env (readLine env source).environment ∧
      Environment.AgreeOff (namesOf source) env' (readLine env' source).environment ∧
      ∀ other, Environment.AgreeOn (namesOf other) (readLine env source).environment env →
        Environment.AgreeOn (namesOf source) (readLine env other).environment env →
          (readLine (readLine env source).environment other).expr = (readLine env other).expr ∧
          (readLine (readLine env source).environment other).diagnostics =
            (readLine env other).diagnostics ∧
          (readLine (readLine env other).environment source).expr = (readLine env source).expr ∧
          (readLine (readLine env other).environment source).diagnostics =
            (readLine env source).diagnostics ∧
          ∀ n, (readLine (readLine env source).environment other).environment.lookup n =
            (readLine (readLine env other).environment source).environment.lookup n := by
  have halike := readAlike h
  refine ⟨halike.expr, halike.diagnostics, halike.environment.agree, halike.environment.unchanged,
    halike.environment.unchanged', fun other hother hsource => ?_⟩
  have hother_alike := readAlike hother
  have hsource_alike := readAlike hsource
  exact ⟨hother_alike.expr, hother_alike.diagnostics, hsource_alike.expr,
    hsource_alike.diagnostics, lookup_either_order hother hsource⟩

/-- Two assignments that use the same variable may be made in either order. -/
theorem readLine_local_of_two_assignments :
    (readLine (readLine .empty "x = 2").environment "y = x").expr =
        (readLine (readLine (readLine .empty "x = 2").environment "z = x").environment
          "y = x").expr ∧
      ∀ n, (readLine (readLine (readLine .empty "x = 2").environment "y = x").environment
          "z = x").environment.lookup n =
        (readLine (readLine (readLine .empty "x = 2").environment "z = x").environment
          "y = x").environment.lookup n := by
  have hagree : Environment.AgreeOn (namesOf "y = x") (readLine .empty "x = 2").environment
      (readLine (readLine .empty "x = 2").environment "z = x").environment := by decide +kernel
  have hother : Environment.AgreeOn (namesOf "z = x")
      (readLine (readLine .empty "x = 2").environment "y = x").environment
      (readLine .empty "x = 2").environment := by decide +kernel
  have hsource : Environment.AgreeOn (namesOf "y = x")
      (readLine (readLine .empty "x = 2").environment "z = x").environment
      (readLine .empty "x = 2").environment := by decide +kernel
  obtain ⟨hexpr, -, -, -, -, horder⟩ := readLine_local "y = x" _ _ hagree
  obtain ⟨-, -, -, -, hlookup⟩ := horder "z = x" hother hsource
  exact ⟨hexpr, hlookup⟩

end Calculator

import Calculator.Proofs.Parser.Calculus
import Calculator.Proofs.Parser.Cursor

/-!
# Runs on positions

A run on positions arrives if it ends inside of the tokens and sees none of them
beyond the one at its last position. What holds of where a parser on the tokens
that are left arrives is passed on to a cursor that stands for that parser.
-/

namespace Calculator

namespace Parser

namespace Cursor

/-! ## Runs -/

def SameUpTo (position : Nat) (tokens tokens' : List Token) : Prop :=
  tokens'.take (position + 1) = tokens.take (position + 1)

theorem SameUpTo.mono {i j : Nat} {tokens tokens' : List Token} (h : SameUpTo j tokens tokens')
    (hij : i ≤ j) : SameUpTo i tokens tokens' := by
  have htake := congrArg (List.take (i + 1)) h
  rwa [List.take_take, List.take_take, Nat.min_eq_left (Nat.succ_le_succ hij)] at htake

theorem SameUpTo.getElem?_eq {i : Nat} {tokens tokens' : List Token}
    (h : SameUpTo i tokens tokens') : tokens'[i]? = tokens[i]? := by
  have hsame := congrArg (fun l : List Token => l[i]?) h
  simpa [List.getElem?_take] using hsame

/--
A run ends, no further back than where it started, and ends in the same way on
every list of tokens that is the same up to where it ends.
-/
def Machine.Arrives {β : Type} (m : Machine β) (tokens : List Token) (c : Cursor)
    (post : β → Cursor → Prop) : Prop :=
  ∃ b d, c.position ≤ d.position ∧
    (∀ tokens', SameUpTo d.position tokens tokens' → m tokens' c = some (b, d)) ∧ post b d

section Machines

variable {β γ : Type} {tokens : List Token} {c : Cursor}

theorem Machine.Arrives.imp {m : Machine β} {post post' : β → Cursor → Prop}
    (h : m.Arrives tokens c post) (himp : ∀ b d, post b d → post' b d) :
    m.Arrives tokens c post' := by
  obtain ⟨b, d, hle, hrun, hpost⟩ := h
  exact ⟨b, d, hle, hrun, himp b d hpost⟩

theorem Machine.Arrives.bind {m : Machine β} {f : β → Machine γ} {post : γ → Cursor → Prop}
    (h : m.Arrives tokens c fun b d => (f b).Arrives tokens d post) :
    Machine.Arrives (m >>= f) tokens c post := by
  obtain ⟨b, d, hle, hrun, b', e, hle', hrun', hpost⟩ := h
  refine ⟨b', e, Nat.le_trans hle hle', fun tokens' hsame => ?_, hpost⟩
  change (m tokens' c).bind (fun p => f p.1 tokens' p.2) = some (b', e)
  rw [hrun tokens' (hsame.mono hle')]
  exact hrun' tokens' hsame

theorem arrives_pure {b : β} {post : β → Cursor → Prop} (h : post b c) :
    Machine.Arrives (pure b) tokens c post :=
  ⟨b, c, Nat.le_refl _, fun _ _ => rfl, h⟩

/-- What does not change the position sees no token. -/
theorem arrives_modify {f : Cursor → Cursor} (hf : (f c).position = c.position)
    {post : Unit → Cursor → Prop} (h : post () (f c)) :
    Machine.Arrives (modify f) tokens c post :=
  ⟨(), f c, Nat.le_of_eq hf.symm, fun _ _ => rfl, h⟩

end Machines

def Holds {α : Type} (onOk : α → Cursor → Prop) (onAbort : Cursor → Prop) :
    Except Halt α → Cursor → Prop
  | .ok a, c => onOk a c
  | .error .abort, c => onAbort c
  | .error .outside, _ => False

def Action.Arrives {α : Type} (m : Action α) (tokens : List Token) (c : Cursor)
    (onOk : α → Cursor → Prop) (onAbort : Cursor → Prop) : Prop :=
  Machine.Arrives m tokens c (Holds onOk onAbort)

section Actions

variable {α β : Type} {tokens : List Token} {c : Cursor} {onAbort : Cursor → Prop}

theorem Action.Arrives.bind {m : Action α} {f : α → Action β} {onOk : β → Cursor → Prop}
    (h : m.Arrives tokens c (fun a d => (f a).Arrives tokens d onOk onAbort) onAbort) :
    Action.Arrives (m >>= f) tokens c onOk onAbort := by
  refine Machine.Arrives.bind (Machine.Arrives.imp h fun result d hresult => ?_)
  cases result with
  | ok a => exact hresult
  | error halt =>
      cases halt with
      | abort => exact arrives_pure hresult
      | outside => exact hresult.elim

theorem arrives_peek {token : Token} (h : tokens[c.position]? = some token)
    {onOk : Token → Cursor → Prop} (hok : onOk token c) :
    Action.Arrives peek tokens c onOk onAbort := by
  refine ⟨.ok token, c, Nat.le_refl _, fun tokens' hsame => ?_, hok⟩
  have htoken : tokens'[c.position]? = some token := hsame.getElem?_eq.trans h
  change (tokens'[c.position]?.elim (throw Halt.outside : Action Token) pure) tokens' c =
    some (.ok token, c)
  rw [htoken]
  rfl

theorem arrives_move {token : Token} (h : tokens[c.position]? = some token)
    (hkind : token.kind ≠ .finish) {onOk : Token → Cursor → Prop}
    (hok : onOk token { c with position := c.position + 1 }) :
    advance.Arrives tokens c onOk onAbort := by
  refine Action.Arrives.bind (arrives_peek h ?_)
  rw [if_pos hkind]
  exact ⟨.ok token, { c with position := c.position + 1 }, Nat.le_succ _, fun _ _ => rfl, hok⟩

/-- At the end of the line the position stays where it is. -/
theorem arrives_stay {token : Token} (h : tokens[c.position]? = some token)
    (hkind : token.kind = .finish) {onOk : Token → Cursor → Prop} (hok : onOk token c) :
    advance.Arrives tokens c onOk onAbort := by
  refine Action.Arrives.bind (arrives_peek h ?_)
  rw [if_neg (not_not_intro hkind)]
  exact arrives_pure hok

theorem arrives_fail {span : Span} {fault : Fault} {onOk : α → Cursor → Prop}
    (h : onAbort { c with diagnostics := c.diagnostics.report span fault }) :
    (fail span fault : Action α).Arrives tokens c onOk onAbort :=
  ⟨.error .abort, { c with diagnostics := c.diagnostics.report span fault }, Nat.le_refl _,
    fun _ _ => rfl, h⟩

end Actions

/-! ## What a cursor stands for -/

/-- A list of tokens, split where the line ends for the first time. -/
structure Split where
  front : List Token
  stop : Token
  later : List Token
  ne_finish : ∀ t ∈ front, t.kind ≠ .finish
  finish : stop.kind = .finish

def Split.tokens (l : Split) : List Token :=
  l.front ++ l.stop :: l.later

variable {l : Split} {c : Cursor} {s : State Environment}

/-- A cursor that has not left the line, with what a parser has. -/
structure Views (l : Split) (c : Cursor) (s : State Environment) : Prop where
  position_le : c.position ≤ l.front.length
  rest : l.front.drop c.position = s.rest
  stop : l.stop.span = s.stop
  environment : c.environment = s.environment
  diagnostics : c.diagnostics = s.diagnostics
  inBody : c.inBody = s.inBody
  nesting : c.nesting = s.nesting

theorem Views.report (h : Views l c s) (span : Span) (fault : Fault) :
    Views l { c with diagnostics := c.diagnostics.report span fault } (s.report span fault) :=
  { h with diagnostics := by rw [h.diagnostics]; rfl }

/-- Only one cursor stands for a parser. -/
theorem Views.unique {d : Cursor} (h : Views l c s) (h' : Views l d s) : c = d := by
  have hposition : c.position = d.position := by
    have hlength := congrArg List.length (h.rest.trans h'.rest.symm)
    rw [List.length_drop, List.length_drop] at hlength
    have hle := h.position_le
    have hle' := h'.position_le
    omega
  exact Cursor.ext hposition (h.environment.trans h'.environment.symm)
    (h.diagnostics.trans h'.diagnostics.symm) (h.inBody.trans h'.inBody.symm)
    (h.nesting.trans h'.nesting.symm)

theorem Views.token_of_rest (h : Views l c s) {token : Token} {rest : List Token}
    (hrest : s.rest = token :: rest) : l.tokens[c.position]? = some token ∧ token.kind ≠ .finish ∧
      Views l { c with position := c.position + 1 } { s with rest := rest } := by
  have hdrop := h.rest
  rw [hrest] at hdrop
  have hlt : c.position < l.front.length := by
    refine Nat.lt_of_not_le fun hge => ?_
    rw [List.drop_eq_nil_of_le hge] at hdrop
    cases hdrop
  rw [List.drop_eq_getElem_cons hlt] at hdrop
  obtain ⟨htoken, hlater⟩ := List.cons.inj hdrop
  refine ⟨?_, ?_, { h with position_le := hlt, rest := hlater }⟩
  · rw [Split.tokens, List.getElem?_append_left hlt, List.getElem?_eq_getElem hlt, htoken]
  · exact htoken ▸ l.ne_finish _ (List.getElem_mem hlt)

theorem Views.token_of_nil (h : Views l c s) (hrest : s.rest = []) :
    l.tokens[c.position]? = some l.stop := by
  have hdrop := h.rest
  rw [hrest, List.drop_eq_nil_iff] at hdrop
  have hposition : c.position = l.front.length := Nat.le_antisymm h.position_le hdrop
  rw [hposition, Split.tokens, List.getElem?_append_right (Nat.le_refl _), Nat.sub_self]
  rfl

/-! ## What a run of the parser tells of a run on positions -/

/-- Where a run on positions arrives, it stands for where a parser arrives. -/
def Follows {α : Type} (l : Split) (m : Action α) (c : Cursor) (onOk : α → State Environment → Prop)
    (onAbort : State Environment → Prop) : Prop :=
  m.Arrives l.tokens c (fun a d => ∃ t, Views l d t ∧ onOk a t)
    fun d => ∃ t, Views l d t ∧ onAbort t

section Follows

variable {α β : Type} {onOk : α → State Environment → Prop} {onAbort : State Environment → Prop}

theorem Follows.bind {m : Action β} {f : β → Action α} {onOk' : β → State Environment → Prop}
    (h : Follows l m c onOk' onAbort)
    (hf : ∀ b d t, Views l d t → onOk' b t → Follows l (f b) d onOk onAbort) :
    Follows l (m >>= f) c onOk onAbort := by
  refine Action.Arrives.bind (Machine.Arrives.imp h fun result d hresult => ?_)
  cases result with
  | ok b =>
      obtain ⟨t, ht, hb⟩ := hresult
      exact hf b d t ht hb
  | error halt =>
      cases halt with
      | abort => exact hresult
      | outside => exact hresult.elim

theorem follows_pure (h : Views l c s) {a : α} (hok : onOk a s) :
    Follows l (pure a) c onOk onAbort :=
  arrives_pure ⟨s, h, hok⟩

theorem follows_fail (h : Views l c s) {span : Span} {fault : Fault}
    (habort : onAbort (s.report span fault)) : Follows l (fail span fault) c onOk onAbort :=
  arrives_fail ⟨s.report span fault, h.report span fault, habort⟩

theorem follows_get {f : Cursor → Action α} (h : Follows l (f c) c onOk onAbort) :
    Follows l (get >>= f) c onOk onAbort :=
  Action.Arrives.bind ⟨.ok c, c, Nat.le_refl _, fun _ _ => rfl, h⟩

theorem follows_set {d : Cursor} (hposition : d.position = c.position) (h : Views l d s)
    {onOk : Unit → State Environment → Prop} (hok : onOk () s) : Follows l (set d) c onOk onAbort :=
  ⟨.ok (), d, Nat.le_of_eq hposition.symm, fun _ _ => rfl, s, h, hok⟩

theorem follows_bracket {enter leave : Cursor → Cursor}
    {leave' : State Environment → State Environment} {m : Action α}
    (henter : (enter c).position = c.position) (hleave : ∀ d, (leave d).position = d.position)
    (h : Follows l m (enter c) (fun a t => onOk a (leave' t)) fun t => onAbort (leave' t))
    (hviews : ∀ d t, Views l d t → Views l (leave d) (leave' t)) :
    Follows l (bracket enter leave m) c onOk onAbort := by
  refine Machine.Arrives.bind (arrives_modify henter ?_)
  refine Machine.Arrives.bind (Machine.Arrives.imp h fun result d hresult => ?_)
  refine Machine.Arrives.bind (arrives_modify (hleave d) (arrives_pure ?_))
  cases result with
  | ok a =>
      obtain ⟨t, ht, ha⟩ := hresult
      exact ⟨leave' t, hviews d t ht, ha⟩
  | error halt =>
      cases halt with
      | abort =>
          obtain ⟨t, ht, habort⟩ := hresult
          exact ⟨leave' t, hviews d t ht, habort⟩
      | outside => exact hresult

/-- A look at the next token sees what the parser sees. -/
theorem follows_peek (h : Views l c s) {f : Token → Action α}
    (hf : ∀ token : Token, token.kind = s.next.kind → token.span = s.next.span →
      Follows l (f token) c onOk onAbort) : Follows l (peek >>= f) c onOk onAbort := by
  rcases s.rest_cases with hrest | ⟨token, rest, hrest⟩
  · have hstop := h.token_of_nil hrest
    refine Action.Arrives.bind (arrives_peek hstop (hf l.stop ?_ ?_))
    · rw [State.next_of_nil hrest]
      exact l.finish
    · rw [State.next_of_nil hrest]
      exact h.stop
  · refine Action.Arrives.bind (arrives_peek (h.token_of_rest hrest).1 (hf token ?_ ?_))
    · rw [State.next_of_rest hrest]
    · rw [State.next_of_rest hrest]

theorem follows_advance (h : Views l c s) {token : Token} {rest : List Token}
    (hrest : s.rest = token :: rest) {f : Token → Action α}
    (hf : ∀ d, Views l d { s with rest := rest } → Follows l (f token) d onOk onAbort) :
    Follows l (advance >>= f) c onOk onAbort := by
  obtain ⟨htoken, hkind, hviews⟩ := h.token_of_rest hrest
  exact Action.Arrives.bind (arrives_move htoken hkind (hf _ hviews))

theorem follows_advance_nil (h : Views l c s) (hrest : s.rest = []) {f : Token → Action α}
    (hf : Follows l (f l.stop) c onOk onAbort) : Follows l (advance >>= f) c onOk onAbort :=
  Action.Arrives.bind (arrives_stay (h.token_of_nil hrest) l.finish hf)

end Follows

end Cursor

end Parser

end Calculator

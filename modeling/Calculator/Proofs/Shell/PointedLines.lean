import Calculator.Proofs.Parser.Diagnosis
import Calculator.Proofs.Token.LexicalFaults
import Calculator.Shell.Command

/-!
# Lines that start with a point

A point at the start of a line starts a number, or it is a character that no
token starts with, and then the line is a command. The main statement is that no
line is a command that would have a value otherwise.
-/

namespace Calculator

/-! ## The first token -/

section FirstToken

variable {line : String} {rest : List Char}

theorem firstToken_point (rest : List Char) : firstToken '.' rest =
    if startsLiteral '.' rest then
      (.number (Literal.ofChars ('.' :: rest)).value, (Literal.ofChars ('.' :: rest)).text.tail)
    else (.unknown, []) := by
  have hsign : punctuation? '.' = none := rfl
  have hword : isWordChar '.' = false := by decide
  rw [firstToken, hsign]
  simp only [hword, Bool.false_eq_true, if_false]

theorem isCommand_of_point (h : line.toList = '.' :: rest) :
    isCommand line = !startsLiteral '.' rest := by
  unfold isCommand
  rw [h]
  cases rest with
  | nil => rfl
  | cons c rest => simp [startsLiteral]

theorem point_of_isCommand (h : isCommand line) : ∃ rest, line.toList = '.' :: rest := by
  unfold isCommand at h
  split at h
  next c rest hline => exact ⟨c :: rest, hline⟩
  next hline => exact ⟨[], hline⟩
  next => cases h

theorem tokenize_point (h : line.toList = '.' :: rest) :
    ∃ t later, tokenize line = t :: later ∧ t.kind = (firstToken '.' rest).1 := by
  rw [tokenize, h, scan]
  exact ⟨_, _, rfl, rfl⟩

theorem tokenize_command (h : line.toList = '.' :: rest)
    (hstarts : startsLiteral '.' rest = false) :
    ∃ later, tokenize line = ⟨.unknown, .ofLength 0 1, "."⟩ :: later := by
  have hfirst : firstToken '.' rest = (.unknown, []) := by
    rw [firstToken_point, if_neg (Bool.eq_false_iff.1 hstarts)]
  rw [tokenize, h, scan, hfirst]
  exact ⟨_, rfl⟩

end FirstToken

/-! ## Commands -/

/-- As a line, a command is at fault at its first character. -/
theorem mem_lexicalFaults_of_isCommand {line : String} (h : isCommand line) :
    (.ofLength 0 1, .unknownChar '.') ∈ (lexicalFaults (tokenize line)).entries := by
  obtain ⟨rest, hline⟩ := point_of_isCommand h
  rw [isCommand_of_point hline, Bool.not_eq_true'] at h
  obtain ⟨later, htokens⟩ := tokenize_command hline h
  have hentries : (lexicalFaults (tokenize line)).entries = (tokenize line).flatMap Token.faults :=
    Diagnostics.entries_ofFaults ((pairwise_flatMap_faults line).imp compare_of_foundBefore)
  rw [hentries, htokens, List.flatMap_cons]
  exact List.mem_append_left _ (List.mem_singleton.2 rfl)

/-- As a line, a command has a fault and changes nothing. -/
theorem readLine_of_isCommand {line : String} (h : isCommand line) (env : Environment) :
    (readLine env line).isOk = false ∧ (readLine env line).environment = env := by
  have hmem := mem_lexicalFaults_of_isCommand h
  refine (Parser.leaves_run (some maxNesting) (.ofTokens (tokenize line) env
    (lexicalFaults (tokenize line)))).gated ?_
  rw [Bool.eq_false_iff]
  intro hempty
  have hnone : (lexicalFaults (tokenize line)).entries = [] := List.isEmpty_iff.1 hempty
  rw [hnone] at hmem
  cases hmem

/-- As a line, a command has the fault of its point reported, whatever else is wrong with it. -/
theorem mem_diagnostics_of_isCommand {line : String} (h : isCommand line) (env : Environment) :
    (.ofLength 0 1, .unknownChar '.') ∈ (readLine env line).diagnostics.entries := by
  have hmem := mem_lexicalFaults_of_isCommand h
  rw [← lexical_readLine env line] at hmem
  exact (List.mem_filter.1 hmem).1

/--
A line that starts with a point is a command exactly if its first token is the
point, as a character that no token starts with, and otherwise its first token is
a number. In any environment a command has, as a line, a fault at its point and
changes nothing. So a line that has a value is run as one.
-/
theorem commands_lose_no_line (line : String) :
    (line.toList.head? = some '.' → ∃ t later, tokenize line = t :: later ∧
        (isCommand line ↔ t.kind = .unknown) ∧
        (isCommand line = false ↔ ∃ value, t.kind = .number value)) ∧
      (isCommand line → line.toList.head? = some '.' ∧ ∀ env,
        (readLine env line).isOk = false ∧
          (.ofLength 0 1, .unknownChar '.') ∈ (readLine env line).diagnostics.entries ∧
          (readLine env line).environment = env) ∧
      ∀ (s : Session) (writer : Writer), (readLine s.environment line).isOk →
        s.runLine writer line = s.read writer line (Session.valueLine writer.palette) := by
  refine ⟨fun hpoint => ?_, fun hcommand => ⟨?_, fun env => ?_⟩, fun s writer hok => ?_⟩
  · obtain ⟨rest, hline⟩ := List.head?_eq_some_iff.1 hpoint
    obtain ⟨t, later, htokens, hkind⟩ := tokenize_point hline
    refine ⟨t, later, htokens, ?_⟩
    rw [hkind, firstToken_point, isCommand_of_point hline]
    cases startsLiteral '.' rest with
    | true => simp
    | false => simp
  · obtain ⟨rest, hline⟩ := point_of_isCommand hcommand
    rw [hline, List.head?_cons]
  · obtain ⟨hfault, henvironment⟩ := readLine_of_isCommand hcommand env
    exact ⟨hfault, mem_diagnostics_of_isCommand hcommand env, henvironment⟩
  · have hline : ¬isCommand line = true := by
      intro hcommand
      rw [(readLine_of_isCommand hcommand s.environment).1] at hok
      cases hok
    exact if_neg hline

theorem commands_lose_no_line_of_letter :
    isCommand ".é = 5" ∧ ".é = 5".toList.head? = some '.' ∧
      (∃ t later, tokenize ".é = 5" = t :: later ∧ t.kind = .unknown) ∧
      (readLine .empty ".é = 5").isOk = false ∧
      (.ofLength 0 1, .unknownChar '.') ∈ (readLine .empty ".é = 5").diagnostics.entries ∧
      (readLine .empty ".é = 5").environment = .empty ∧
      (readLine .empty ".5 + 1").isOk ∧
      Session.initial.runLine (.rendering .plain) ".5 + 1" =
        Session.initial.read (.rendering .plain) ".5 + 1" (Session.valueLine .plain) := by
  have hcommand : isCommand ".é = 5" := by decide +kernel
  have hok : (readLine Session.initial.environment ".5 + 1").isOk := by decide +kernel
  obtain ⟨hfirst, hfault, -⟩ := commands_lose_no_line ".é = 5"
  obtain ⟨-, -, hrun⟩ := commands_lose_no_line ".5 + 1"
  obtain ⟨hpoint, hfaults⟩ := hfault hcommand
  obtain ⟨hnot, hmem, henvironment⟩ := hfaults .empty
  obtain ⟨t, later, htokens, hunknown, -⟩ := hfirst hpoint
  exact ⟨hcommand, hpoint, ⟨t, later, htokens, hunknown.1 hcommand⟩, hnot, hmem, henvironment, hok,
    hrun .initial (.rendering .plain) hok⟩

end Calculator

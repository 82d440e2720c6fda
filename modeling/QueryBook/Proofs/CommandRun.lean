import QueryBook.CommandLine.Generate

/-!
# Runs of commands

What a command does to a session, step by step: a sequence of two commands succeeds exactly if both
do, the second on the session that the first leaves.
-/

namespace QueryBook.Command

variable {α β : Type}

/-- A command that only gives a value. -/
@[simp] theorem run_pure (a : α) (s : Session) : (pure a : Command α).run s = (.ok a, s) := rfl

/-- A command that fails leaves the session. -/
@[simp] theorem run_throw (f : Failure) (s : Session) :
    (throw f : Command α).run s = (.error f, s) := rfl

/-- Asking for the files gives those of the session. -/
@[simp] theorem run_files (s : Session) : files.run s = (.ok s.files, s) := rfl

/-- Reporting adds a line. -/
@[simp] theorem run_report (line : String) (s : Session) :
    (report line).run s = (.ok (), { s with reports := s.reports ++ [line] }) := rfl

/-- Printing adds to the output. -/
@[simp] theorem run_print (text : String) (s : Session) :
    (print text).run s = (.ok (), { s with output := s.output ++ text }) := rfl

/-- A sequence does what its first part does, and if that succeeds what its second part does. -/
theorem run_bind (c : Command α) (f : α → Command β) (s : Session) :
    (c >>= f).run s =
      match c.run s with
      | (.ok a, s') => (f a).run s'
      | (.error e, s') => (.error e, s') := by
  show StateT.run (ExceptT.run (c >>= f)) s = _
  rw [ExceptT.run_bind, StateT.run_bind]
  show (match StateT.run (ExceptT.run c) s with | (a, s') => _) = _
  unfold run
  rcases StateT.run (ExceptT.run c) s with ⟨e | a, s'⟩ <;> rfl

/-- A sequence succeeds exactly if both parts do. -/
theorem run_bind_eq_ok {c : Command α} {f : α → Command β} {s s' : Session} {b : β} :
    (c >>= f).run s = (.ok b, s') ↔
      ∃ a s₁, c.run s = (.ok a, s₁) ∧ (f a).run s₁ = (.ok b, s') := by
  rw [run_bind]
  rcases c.run s with ⟨e | a, s₁⟩
  · simp
  · constructor
    · intro h
      exact ⟨a, s₁, rfl, h⟩
    · rintro ⟨a', s', ha, h⟩
      cases ha
      exact h

/-- A sequence fails exactly if its first part does, or its second part behind it. -/
theorem run_bind_eq_error {c : Command α} {f : α → Command β} {s s' : Session} {e : Failure} :
    (c >>= f).run s = (.error e, s') ↔
      c.run s = (.error e, s') ∨ ∃ a s₁, c.run s = (.ok a, s₁) ∧ (f a).run s₁ = (.error e, s') := by
  rw [run_bind]
  rcases c.run s with ⟨e' | a, s₁⟩
  · simp
  · constructor
    · intro h
      exact .inr ⟨a, s₁, rfl, h⟩
    · rintro (h | ⟨a', s', ha, h⟩)
      · cases h
      · cases ha
        exact h

/-- A change of the files is made if it is possible; else the run fails and the session stays. -/
theorem run_change (failure : FileError → Failure) (step : FileTree → Except FileError FileTree)
    (s : Session) : (change failure step).run s =
      match step s.files with
      | .ok files => (.ok (), { s with files })
      | .error e => (.error (failure e), s) := by
  unfold change
  rw [run_bind, run_files]
  dsimp only
  cases step s.files <;> rfl

/-- A change of the files succeeds exactly if it is possible. -/
theorem run_change_eq_ok {failure : FileError → Failure}
    {step : FileTree → Except FileError FileTree} {s s' : Session} {u : Unit} :
    (change failure step).run s = (.ok u, s') ↔
      ∃ files, step s.files = .ok files ∧ s' = { s with files } := by
  rw [run_change]
  cases step s.files with
  | error e => simp
  | ok files => simp [eq_comm]

/-- A change of the files that is not possible fails with the reason, and nothing else does. -/
theorem failure_of_change {failure : FileError → Failure}
    {step : FileTree → Except FileError FileTree} {s s' : Session} {f : Failure}
    (h : (change failure step).run s = (.error f, s')) : ∃ e, f = failure e := by
  rw [run_change] at h
  split at h
  · cases h
  · next e _ =>
    cases h
    exact ⟨e, rfl⟩

end QueryBook.Command

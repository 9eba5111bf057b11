import Offside.Proofs.Session.Visits

/-!
# Active settings are scoped

Which settings are active at a place of a session can be read off the session as it is written.  A
list of steps begins with the settings of the `within` that it is the body of, or with the standard
ones if it is the body of a `thread`, and from there on only the steps of the list itself count:
those that choose or reset, as far as they are reached and their fields make settings.  What happens
in bodies further inside is over when they end, in whatever way they end.

`Step.scopedAll` is this reading.  It goes through the steps without a session: no lexer is made or
asked, and nothing is put back.  `active_of_steps` compares it with the steps as they are carried
out, and says which settings are active in the end.
-/

namespace Offside.Session

/-- The settings that a step makes active where it stands. -/
def Step.chosen? : Step → Option Settings
  | .reset => some .standard
  | .choose fields _ => (Settings.ofFields fields).toOption
  | _ => none

/-- The steps in front of the first `raise`. -/
def reached : List Step → List Step
  | [] => []
  | .raise :: _ => []
  | step :: steps => step :: reached steps

/-- The steps of a list, and not of bodies in it, that are reached and make settings active. -/
def directs (steps : List Step) : List Step := (reached steps).filter (·.chosen?.isSome)

/-- The settings that are active behind steps if only their own choices count. -/
def chosenBy (active : Settings) (steps : List Step) : Settings :=
  steps.foldl (fun active step => step.chosen?.getD active) active

mutual

/-- The steps without a body that are carried out as part of a step, each with the settings that are
active for it. -/
def Step.scoped (active : Settings) : Step → List (Step × Settings)
  | .within fields watched body =>
    match Settings.ofFields fields with
    | .ok chosen => Step.scopedAll chosen body
    | .error _ => [(.within fields watched body, active)]
  | .thread body => Step.scopedAll .standard body
  | step => [(step, active)]

/-- The steps without a body that are carried out, each with the settings that are active for
it. -/
def Step.scopedAll (active : Settings) : List Step → List (Step × Settings)
  | [] => []
  | .raise :: _ => [(.raise, active)]
  | step :: steps =>
    Step.scoped active step ++ Step.scopedAll (step.chosen?.getD active) steps

end

variable {session begun : Session} {step : Step} {steps body : List Step} {active : Settings}

/-! ## What one step does to the active settings -/

theorem chosen?_of_body (h : step.body? session = some (begun, body)) : step.chosen? = none := by
  rcases cases_of_body h with ⟨fields, watched, chosen, rfl, -, -⟩ | ⟨rfl, -⟩ <;> rfl

theorem chosen?_of_operation {named : String × Operation} (h : step.operation? = some named) :
    step.chosen? = none := by
  cases step <;> simp [Step.operation?] at h <;> rfl

theorem active_run_of_operation {named : String × Operation}
    (h : step.operation? = some named) : (step.run session).2.active = session.active := by
  rw [run_of_operation h]
  cases session.lexer? named.1 <;> rfl

/-- Behind a step the settings are active that it chose itself, or else those before it. -/
theorem active_run (session : Session) (step : Step) :
    (step.run session).2.active = step.chosen?.getD session.active := by
  cases hbody : step.body? session with
  | some inner =>
      -- The body may have changed them, but they are put back.
      obtain ⟨begun, body⟩ := inner
      obtain ⟨-, -, hrun⟩ := run_of_body hbody
      rw [hrun, chosen?_of_body hbody]
      rfl
  | none =>
      cases named : step.operation? with
      | some operation => rw [active_run_of_operation named, chosen?_of_operation named]; rfl
      | none =>
          cases step with
          | current | reset | raise => rfl
          | choose fields watched =>
              rw [Step.run, Step.chosen?]
              cases Settings.ofFields fields <;> rfl
          | within fields watched body =>
              cases chosen : Settings.ofFields fields with
              | ok settings => simp [Step.body?, chosen] at hbody
              | error cause => simp only [Step.run, chosen]; rfl
          | thread body => simp [Step.body?] at hbody
          | tokenize source fields watched =>
              rw [Step.run]
              cases session.settingsFor fields with
              | error cause => rfl
              | ok settings => simp only; cases Lexer.tokenize settings source <;> rfl
          | create id source fields =>
              rw [Step.run]
              cases session.settingsFor fields <;> rfl
          | _ => simp [Step.operation?] at named

/-! ## What a list of steps does -/

theorem reached_cons (h : step ≠ .raise) : reached (step :: steps) = step :: reached steps := by
  rw [reached]
  exact h

theorem reached_eq_self (h : ∀ step ∈ steps, step ≠ .raise) : reached steps = steps := by
  induction steps with
  | nil => rfl
  | cons step steps ih =>
      obtain ⟨hstep, hsteps⟩ := List.forall_mem_cons.mp h
      rw [reached_cons hstep, ih hsteps]

theorem active_runAll (session : Session) (steps : List Step) :
    (Step.runAll session steps).2.active = chosenBy session.active (reached steps) := by
  induction steps generalizing session with
  | nil => rfl
  | cons step steps ih =>
      by_cases hraise : step = .raise
      · subst hraise
        rfl
      · rw [runAll_cons hraise, ih, active_run, reached_cons hraise]
        rfl

/-- Steps that choose nothing themselves do not count. -/
theorem chosenBy_filter (active : Settings) (steps : List Step) :
    chosenBy active (steps.filter (·.chosen?.isSome)) = chosenBy active steps := by
  rw [chosenBy, List.foldl_filter, chosenBy]
  congr
  funext active step
  cases step.chosen? <;> rfl

/-- None of the steps that choose settings raises. -/
theorem reached_directs (steps : List Step) : reached (directs steps) = directs steps := by
  apply reached_eq_self
  rintro step hmem rfl
  have hchosen := (List.mem_filter.mp hmem).2
  simp [Step.chosen?] at hchosen

/-! ## Settings read off the steps -/

theorem scoped_of_plain (h : step.body? session = none) :
    step.scoped active = [(step, active)] := by
  cases step with
  | within fields watched body =>
      cases chosen : Settings.ofFields fields with
      | ok settings => simp [Step.body?, chosen] at h
      | error cause => simp only [Step.scoped, chosen]
  | thread body => simp [Step.body?] at h
  | _ => rfl

/-- A body is read from the settings that it begins with. -/
theorem scoped_of_body (h : step.body? session = some (begun, body)) :
    step.scoped active = Step.scopedAll begun.active body := by
  rcases cases_of_body h with ⟨fields, watched, chosen, rfl, hchosen, rfl⟩ | ⟨rfl, rfl⟩
  · simp only [Step.scoped, hchosen]
  · simp only [Step.scoped]

theorem scopedAll_cons (h : step ≠ .raise) :
    Step.scopedAll active (step :: steps) =
      step.scoped active ++ Step.scopedAll (step.chosen?.getD active) steps := by
  rw [Step.scopedAll]
  exact h

/-- Each step that is carried out finds the settings active that are read off the steps. -/
theorem visitsAll_scoped (session : Session) (steps : List Step) :
    (Step.visitsAll session steps).map (fun visit => (visit.step, visit.found.active)) =
      Step.scopedAll session.active steps := by
  induction session, steps using steps_induction with
  | nil session => rfl
  | raise session steps => rfl
  | plain session step steps hraise plain more =>
      rw [visitsAll_cons hraise, scopedAll_cons hraise, visits_of_plain plain,
        scoped_of_plain plain, List.map_append, more, active_run]
      rfl
  | nested session step steps begun body hraise hbody inside more =>
      obtain ⟨-, hvisits, -⟩ := run_of_body hbody
      rw [visitsAll_cons hraise, scopedAll_cons hraise, hvisits, scoped_of_body hbody,
        List.map_append, inside, more, active_run]

/-- Steps leave the settings active that their own choices leave if nothing else is done, whatever
lexers there are.  The answers of a session are those of the steps that are carried out, and at any
depth each of these finds the settings active that can be read off the session as it is written. -/
theorem active_of_steps (session : Session) (steps : List Step) :
    (∀ lexers, (Step.runAll session steps).2.active =
        (Step.runAll ⟨session.active, lexers⟩ (directs steps)).2.active) ∧
      Answer.leavesAll (Step.runAll session steps).1 =
        (Step.visitsAll session steps).map Visit.answer ∧
      (Step.visitsAll session steps).map (fun visit => (visit.step, visit.found.active)) =
        Step.scopedAll session.active steps := by
  refine ⟨fun lexers => ?_, leavesAll_runAll session steps, visitsAll_scoped session steps⟩
  calc (Step.runAll session steps).2.active
      = chosenBy session.active (reached steps) := active_runAll session steps
    _ = chosenBy session.active (directs steps) := (chosenBy_filter _ _).symm
    _ = chosenBy session.active (reached (directs steps)) := by rw [reached_directs]
    _ = (Step.runAll ⟨session.active, lexers⟩ (directs steps)).2.active :=
        (active_runAll ⟨session.active, lexers⟩ (directs steps)).symm

/-- The tab widths that are active at each step, where a body chooses another one and then
raises. -/
example :
    (Step.scopedAll .standard
      [.within { tabWidth := some 4 } none [.current, .choose { tabWidth := some 2 } none, .raise],
        .choose { tabWidth := some 3 } none, .current, .thread [.current]]).map
      (·.2.tabWidth) = [4, 4, 2, 8, 3, 8] := by
  decide +kernel

end Offside.Session

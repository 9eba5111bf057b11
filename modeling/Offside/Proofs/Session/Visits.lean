import Offside.Proofs.Lexer.Matcher
import Offside.Session

/-!
# The steps of a session in the order in which they are carried out

A session is nested: the steps of a body are carried out where the step stands that the body belongs
to, if they are reached at all.  `Step.visitsAll` lists the steps without a body that are carried
out, each with the session that it finds.  Their answers are the answers of the session, taken out
of the blocks that they stand in (`leavesAll_runAll`).  Between two of them only the active settings
change, so each finds the lexers as the one before it has left them (`chain_visitsAll`).

What a step without a body can do about the lexers is said once (`Effect`).  It performs an
operation on one of them, or makes a new one, or leaves all of them as they are.
-/

namespace Offside.Session

/-! ## Operations on a lexer -/

/-- What a step may have a lexer do. -/
inductive Operation where
  | inspect
  | next
  | take (count : Nat)
  | drain
  | locate (position : Option Position)
  | report (category : Category) (message : String)

namespace Operation

/-- The answer to an action of a lexer, and the lexer that is left. -/
def respond {α : Type} (lexer : Lexer) (action : Lexer.Action α) (answer : α → Lexer → Answer) :
    Answer × Lexer :=
  match action lexer with
  | .ok value left => (answer value left, left)
  | .error cause left => (.failed (.lexer cause) (some left.view), left)

/-- Performs the operation on a lexer that stands alone. -/
def perform (lexer : Lexer) : Operation → Answer × Lexer
  | .inspect => respond lexer get fun lexer _ => shown lexer
  | .next => respond lexer Lexer.next fun token left => .token token left.view
  | .take count =>
    respond lexer (Lexer.take count) fun tokens left => .tokens tokens (some left.view)
  | .drain => respond lexer Lexer.drain fun tokens left => .tokens tokens (some left.view)
  | .locate position =>
    respond lexer (Lexer.located position) fun (location, text) left =>
      .location location text left.view
  | .report category message =>
    let report : Lexer.Action Answer := Lexer.fail (.reported category message)
    respond lexer report fun answer _ => answer

/-- Performs operations one after another. -/
def performAll (lexer : Lexer) : List Operation → List Answer × Lexer
  | [] => ([], lexer)
  | operation :: operations =>
    let (answer, left) := operation.perform lexer
    let (answers, final) := performAll left operations
    (answer :: answers, final)

end Operation

/-- The operation that a step performs, with the name of the lexer. -/
def Step.operation? : Step → Option (String × Operation)
  | .inspect id => some (id, .inspect)
  | .next id => some (id, .next)
  | .take id count => some (id, .take count)
  | .drain id => some (id, .drain)
  | .locate id position => some (id, .locate position)
  | .report id category message => some (id, .report category message)
  | _ => none

/-! ## Visits -/

/-- A step that is carried out, and the session that it finds. -/
structure Visit where
  found : Session
  step : Step

namespace Visit

/-- The answer of the step. -/
def answer (visit : Visit) : Answer := (visit.step.run visit.found).1

/-- The session that the step leaves. -/
def left (visit : Visit) : Session := (visit.step.run visit.found).2

/-- Whether the step puts a new lexer under a name. -/
def Renews (visit : Visit) (id : String) : Prop :=
  ∃ source fields settings, visit.step = .create id source fields ∧
    visit.found.settingsFor fields = .ok settings

end Visit

mutual

/-- The steps without a body that are carried out as part of a step, in order. -/
def Step.visits (session : Session) : Step → List Visit
  | .within fields watched body =>
    match Settings.ofFields fields with
    | .ok chosen => Step.visitsAll { session with active := chosen } body
    | .error _ => [⟨session, .within fields watched body⟩]
  | .thread body => Step.visitsAll { session with active := .standard } body
  | step => [⟨session, step⟩]

/-- The steps without a body that are carried out, in order. -/
def Step.visitsAll (session : Session) : List Step → List Visit
  | [] => []
  | .raise :: _ => [⟨session, .raise⟩]
  | step :: steps => Step.visits session step ++ Step.visitsAll (step.run session).2 steps

end

mutual

/-- The answers inside a block, or else the answer itself. -/
def Answer.leaves : Answer → List Answer
  | .block answers _ => Answer.leavesAll answers
  | answer => [answer]

/-- Answers with those inside blocks in their places. -/
def Answer.leavesAll : List Answer → List Answer
  | [] => []
  | answer :: answers => answer.leaves ++ Answer.leavesAll answers

end

/-! ## Lexers by name -/

variable {session : Session} {id other : String} {lexer : Lexer}

@[simp] theorem lexer?_put : (session.put id lexer).lexer? id = some lexer := by
  simp [put, lexer?]

theorem lexer?_put_of_ne (h : other ≠ id) :
    (session.put id lexer).lexer? other = session.lexer? other := by
  have hne : (other == id) = false := by simpa using h
  simp only [put, lexer?, List.lookup_cons, hne]
  induction session.lexers with
  | nil => rfl
  | cons entry lexers ih =>
      by_cases hentry : entry.1 = id
      · have hother : (other == entry.1) = false := by simpa [hentry] using h
        have hdropped : ¬ (entry.1 != id) = true := by simpa using hentry
        rw [List.filter_cons, if_neg hdropped, List.lookup_cons, hother]
        exact ih
      · have hkept : (entry.1 != id) = true := by simpa using hentry
        rw [List.filter_cons, if_pos hkept, List.lookup_cons, List.lookup_cons]
        split
        · rfl
        · exact ih

/-! ## Steps with a body, and the others -/

/-- The body that a step runs, behind the session that the body begins with. -/
def Step.body? (session : Session) : Step → Option (Session × List Step)
  | .within fields _ body =>
    match Settings.ofFields fields with
    | .ok chosen => some ({ session with active := chosen }, body)
    | .error _ => none
  | .thread body => some ({ session with active := .standard }, body)
  | _ => none

variable {begun : Session} {step : Step} {steps body : List Step}

/-- Only two sorts of steps have bodies. -/
theorem cases_of_body (h : step.body? session = some (begun, body)) :
    (∃ fields watched chosen, step = .within fields watched body ∧
        Settings.ofFields fields = .ok chosen ∧ begun = { session with active := chosen }) ∨
      step = .thread body ∧ begun = { session with active := .standard } := by
  cases step with
  | within fields watched inner =>
      cases chosen : Settings.ofFields fields with
      | ok settings =>
          simp only [Step.body?, chosen, Option.some.injEq, Prod.mk.injEq] at h
          obtain ⟨rfl, rfl⟩ := h
          exact Or.inl ⟨fields, watched, settings, rfl, chosen, rfl⟩
      | error cause => simp [Step.body?, chosen] at h
  | thread inner =>
      simp only [Step.body?, Option.some.injEq, Prod.mk.injEq] at h
      obtain ⟨rfl, rfl⟩ := h
      exact Or.inr ⟨rfl, rfl⟩
  | _ => simp [Step.body?] at h

/-- A body is run in the place of its step, on the same lexers and under settings of its own. -/
theorem run_of_body (h : step.body? session = some (begun, body)) :
    begun.lexers = session.lexers ∧ step.visits session = Step.visitsAll begun body ∧
      step.run session = (.block (Step.runAll begun body).1 session.active,
        { (Step.runAll begun body).2 with active := session.active }) := by
  rcases cases_of_body h with ⟨fields, watched, chosen, rfl, hchosen, rfl⟩ | ⟨rfl, rfl⟩
  · simp only [Step.visits, Step.run, hchosen, and_self]
  · simp only [Step.visits, Step.run, and_self]

/-- Any other step is carried out as it stands. -/
theorem visits_of_plain (h : step.body? session = none) :
    step.visits session = [⟨session, step⟩] := by
  cases step with
  | within fields watched body =>
      cases chosen : Settings.ofFields fields with
      | ok settings => simp [Step.body?, chosen] at h
      | error cause => simp only [Step.visits, chosen]
  | thread body => simp [Step.body?] at h
  | _ => rfl

theorem sizeOf_lt_of_body (h : step.body? session = some (begun, body)) :
    sizeOf body < sizeOf step := by
  rcases cases_of_body h with ⟨fields, watched, chosen, rfl, -, -⟩ | ⟨rfl, -⟩
  · rw [Step.within.sizeOf_spec]
    omega
  · rw [Step.thread.sizeOf_spec]
    omega

theorem runAll_cons (h : step ≠ .raise) :
    Step.runAll session (step :: steps) =
      ((step.run session).1 :: (Step.runAll (step.run session).2 steps).1,
        (Step.runAll (step.run session).2 steps).2) := by
  rw [Step.runAll]
  exact h

theorem visitsAll_cons (h : step ≠ .raise) :
    Step.visitsAll session (step :: steps) =
      step.visits session ++ Step.visitsAll (step.run session).2 steps := by
  rw [Step.visitsAll]
  exact h

/-- Induction along the steps of a session, into the bodies that are run. -/
theorem steps_induction {P : Session → List Step → Prop} (nil : ∀ session, P session [])
    (raise : ∀ session steps, P session (.raise :: steps))
    (plain : ∀ session step steps, step ≠ .raise → step.body? session = none →
      P (step.run session).2 steps → P session (step :: steps))
    (nested : ∀ session step steps begun body, step ≠ .raise →
      step.body? session = some (begun, body) → P begun body →
      P (step.run session).2 steps → P session (step :: steps))
    (session : Session) (steps : List Step) : P session steps := by
  cases steps with
  | nil => exact nil session
  | cons step steps =>
      by_cases hraise : step = .raise
      · subst hraise
        exact raise session steps
      · -- What comes behind the step is shorter in any case, and so is a body that the step runs.
        have more := steps_induction nil raise plain nested (step.run session).2 steps
        cases hbody : step.body? session with
        | none => exact plain session step steps hraise hbody more
        | some inner =>
            have inside := steps_induction nil raise plain nested inner.1 inner.2
            exact nested session step steps inner.1 inner.2 hraise hbody inside more
termination_by sizeOf steps
decreasing_by
  · simp only [List.cons.sizeOf_spec]
    omega
  · have := sizeOf_lt_of_body hbody
    simp only [List.cons.sizeOf_spec]
    omega

/-! ## What a step without a body does -/

/-- What a step does that runs no body, with its answer and the session that it leaves. -/
inductive Effect (session : Session) : Step → Answer → Session → Prop
  /-- The lexers stay as they are. -/
  | settles {step : Step} {answer : Answer} {active : Settings} (silent : step.operation? = none)
      (leaf : answer.leaves = [answer]) :
      Effect session step answer { session with active }
  /-- A lexer is asked for something, and what it leaves takes its place. -/
  | operates {step : Step} {id : String} {operation : Operation} {lexer : Lexer}
      (named : step.operation? = some (id, operation)) (known : session.lexer? id = some lexer) :
      Effect session step (operation.perform lexer).1
        (session.put id (operation.perform lexer).2)
  /-- There is no lexer of the name. -/
  | misses {step : Step} {id : String} {operation : Operation}
      (named : step.operation? = some (id, operation)) (unknown : session.lexer? id = none) :
      Effect session step (.failed (.unknownLexer id) none) session
  /-- A lexer is made. -/
  | creates {id : String} {source : Source} {fields : Option Settings.Fields} {settings : Settings}
      (chosen : session.settingsFor fields = .ok settings) :
      Effect session (.create id source fields) (shown (.start settings source))
        (session.put id (.start settings source))

/-- An action on a lexer of the session is the action on the lexer alone. -/
theorem act_eq {α : Type} (session : Session) (id : String) (action : Lexer.Action α)
    (answer : α → Lexer → Answer) :
    session.act id action answer =
      match session.lexer? id with
      | none => (.failed (.unknownLexer id) none, session)
      | some lexer =>
        ((Operation.respond lexer action answer).1,
          session.put id (Operation.respond lexer action answer).2) := by
  unfold act Operation.respond
  cases session.lexer? id with
  | none => rfl
  | some lexer =>
      simp only
      cases action lexer <;> rfl

theorem run_of_operation {operation : Operation} (h : step.operation? = some (id, operation)) :
    step.run session =
      match session.lexer? id with
      | none => (.failed (.unknownLexer id) none, session)
      | some lexer =>
        ((operation.perform lexer).1, session.put id (operation.perform lexer).2) := by
  cases step <;> simp only [Step.operation?, Option.some.injEq, Prod.mk.injEq, reduceCtorEq] at h
  all_goals
    obtain ⟨rfl, rfl⟩ := h
    rw [Step.run, act_eq]
    rfl

/-- A step that runs no body has one of these effects. -/
theorem effect_run (plain : step.body? session = none) :
    Effect session step (step.run session).1 (step.run session).2 := by
  cases named : step.operation? with
  | some operation =>
      obtain ⟨id, operation⟩ := operation
      rw [run_of_operation named]
      cases known : session.lexer? id with
      | none => exact .misses named known
      | some lexer => exact .operates named known
  | none =>
      cases step with
      | current | reset | raise => exact .settles rfl rfl
      | choose fields watched =>
          rw [Step.run]
          cases Settings.ofFields fields <;> exact .settles rfl rfl
      | within fields watched body =>
          cases chosen : Settings.ofFields fields with
          | ok settings => simp [Step.body?, chosen] at plain
          | error cause =>
              simp only [Step.run, chosen]
              exact .settles rfl rfl
      | thread body => simp [Step.body?] at plain
      | tokenize source fields watched =>
          rw [Step.run]
          cases session.settingsFor fields with
          | error cause => exact .settles rfl rfl
          | ok settings =>
              simp only
              cases Lexer.tokenize settings source <;> exact .settles rfl rfl
      | create id source fields =>
          cases chosen : session.settingsFor fields with
          | error cause =>
              simp only [Step.run, chosen]
              exact .settles rfl rfl
          | ok settings =>
              simp only [Step.run, chosen]
              exact .creates chosen
      | _ => simp [Step.operation?] at named

theorem Operation.leaves_perform (operation : Operation) (lexer : Lexer) :
    (operation.perform lexer).1.leaves = [(operation.perform lexer).1] := by
  cases operation with
  | report category message =>
      simp only [perform, respond, Lexer.fail_eq]
      rfl
  | _ =>
      simp only [perform, respond]
      split <;> rfl

/-- The answer is not a block. -/
theorem Effect.leaves {answer : Answer} {left : Session} (h : Effect session step answer left) :
    answer.leaves = [answer] := by
  cases h with
  | settles silent leaf => exact leaf
  | operates named known => exact Operation.leaves_perform _ _
  | misses named unknown => rfl
  | creates chosen => rfl

/-! ## From step to step -/

/-- The answers of a session, taken out of their blocks, are those of the steps that are carried
out. -/
theorem leavesAll_runAll (session : Session) (steps : List Step) :
    Answer.leavesAll (Step.runAll session steps).1 =
      (Step.visitsAll session steps).map Visit.answer := by
  induction session, steps using steps_induction with
  | nil session => rfl
  | raise session steps => rfl
  | plain session step steps hraise plain more =>
      rw [runAll_cons hraise, visitsAll_cons hraise, visits_of_plain plain, Answer.leavesAll,
        (effect_run plain).leaves, more]
      rfl
  | nested session step steps begun body hraise hbody inside more =>
      obtain ⟨-, hvisits, hrun⟩ := run_of_body hbody
      have hleaves : (step.run session).1.leaves = Answer.leavesAll (Step.runAll begun body).1 := by
        rw [hrun, Answer.leaves]
      rw [runAll_cons hraise, visitsAll_cons hraise, hvisits, Answer.leavesAll, hleaves, inside,
        more, List.map_append]

/-- Steps that are carried out one after another, with the lexers that the first finds and the last
leaves. -/
inductive Chain : List (String × Lexer) → List Visit → List (String × Lexer) → Prop
  | nil (lexers : List (String × Lexer)) : Chain lexers [] lexers
  | cons {visit : Visit} {visits : List Visit} {final : List (String × Lexer)}
      (effect : Effect visit.found visit.step visit.answer visit.left)
      (more : Chain visit.left.lexers visits final) :
      Chain visit.found.lexers (visit :: visits) final

theorem Chain.append {lexers middle final : List (String × Lexer)} {visits more : List Visit}
    (h : Chain lexers visits middle) (h' : Chain middle more final) :
    Chain lexers (visits ++ more) final := by
  induction h with
  | nil lexers => exact h'
  | cons effect rest ih => exact .cons effect (ih h')

theorem Chain.of_append {lexers final : List (String × Lexer)} {visits more : List Visit}
    (h : Chain lexers (visits ++ more) final) :
    ∃ middle, Chain lexers visits middle ∧ Chain middle more final := by
  induction visits generalizing lexers with
  | nil => exact ⟨lexers, .nil lexers, h⟩
  | cons visit visits ih =>
      cases h with
      | cons effect rest =>
          obtain ⟨middle, before, behind⟩ := ih rest
          exact ⟨middle, .cons effect before, behind⟩

/-- Each step finds the lexers that the one before it has left. -/
theorem chain_visitsAll (session : Session) (steps : List Step) :
    Chain session.lexers (Step.visitsAll session steps) (Step.runAll session steps).2.lexers := by
  induction session, steps using steps_induction with
  | nil session => exact .nil session.lexers
  | raise session steps =>
      -- The steps behind are not reached, and the lexers stay as they are.
      have effect : Effect session .raise .raised session := .settles rfl rfl
      exact @Chain.cons ⟨session, .raise⟩ [] _ effect (.nil session.lexers)
  | plain session step steps hraise plain more =>
      rw [runAll_cons hraise, visitsAll_cons hraise, visits_of_plain plain]
      exact @Chain.cons ⟨session, step⟩ _ _ (effect_run plain) more
  | nested session step steps begun body hraise hbody inside more =>
      -- The settings are put back behind the body, the lexers are not.
      obtain ⟨hlexers, hvisits, hrun⟩ := run_of_body hbody
      have hleft : (Step.runAll begun body).2.lexers = (step.run session).2.lexers := by rw [hrun]
      rw [runAll_cons hraise, visitsAll_cons hraise, hvisits, ← hlexers]
      exact inside.append (hleft ▸ more)

end Offside.Session

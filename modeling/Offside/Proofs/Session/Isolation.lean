import Offside.Proofs.Session.Visits

/-!
# Lexers of a session keep to themselves

What is asked of a lexer of a session has the answers that it has if the lexer stands alone.  Other
lexers make no difference, and neither do the settings that become active after it was made, be it
in a body, behind one that was left, or in a thread.  A lexer that was made without settings of its
own has those that were active where it was made.

## Strategy

A lexer is known by its name until another is made of the same name.  As long as that does not
happen, each step that is carried out leaves the lexer as it is, unless it performs an operation on
it, and then it answers and leaves what the operation does to the lexer alone
(`Effect.lexer?_left`).  The rest is induction on the steps in the order in which they are carried
out (`Chain.answers_eq`).
-/

namespace Offside.Session

variable {session left found : Session} {step : Step} {answer : Answer} {id : String}
  {lexer : Lexer} {lexers final : List (String × Lexer)} {visits : List Visit}

/-- The operation that a visit performs on the lexer of a name, with the answer. -/
def Visit.operationOn? (id : String) (visit : Visit) : Option (Operation × Answer) :=
  match visit.step.operation? with
  | some (name, operation) => if name = id then some (operation, visit.answer) else none
  | none => none

/-- What is asked of the lexer of a name, and what is answered. -/
def operationsOn (id : String) (visits : List Visit) : List (Operation × Answer) :=
  visits.filterMap (Visit.operationOn? id)

theorem Visit.operationOn?_of_named {visit : Visit} {operation : Operation}
    (named : visit.step.operation? = some (id, operation)) :
    visit.operationOn? id = some (operation, visit.answer) := by
  simp [operationOn?, named]

theorem Visit.operationOn?_eq_none {visit : Visit}
    (other : ∀ operation, visit.step.operation? ≠ some (id, operation)) :
    visit.operationOn? id = none := by
  unfold operationOn?
  cases named : visit.step.operation? with
  | none => rfl
  | some operation =>
      obtain ⟨name, operation⟩ := operation
      have hne : name ≠ id := fun heq => other operation (heq ▸ named)
      exact if_neg hne

/-- What a step does about a lexer: it performs an operation on it, or leaves it as it is, or puts
another in its place. -/
theorem Effect.lexer?_left (h : Effect session step answer left)
    (known : session.lexer? id = some lexer) :
    (∃ operation, step.operation? = some (id, operation) ∧
        answer = (operation.perform lexer).1 ∧
        left.lexer? id = some (operation.perform lexer).2) ∨
      (∀ operation, step.operation? ≠ some (id, operation)) ∧ left.lexer? id = some lexer ∨
      Visit.Renews ⟨session, step⟩ id := by
  cases h with
  | settles silent leaf =>
      right; left
      exact ⟨by simp [silent], known⟩
  | @operates _ name operation other named known' =>
      by_cases hname : name = id
      · subst hname
        obtain rfl : other = lexer := Option.some.inj (known'.symm.trans known)
        left
        exact ⟨operation, named, rfl, lexer?_put⟩
      · right; left
        have hother : ∀ operation, step.operation? ≠ some (id, operation) := by
          intro operation' named'
          rw [named] at named'
          exact hname (Prod.mk.inj (Option.some.inj named')).1
        exact ⟨hother, (lexer?_put_of_ne (Ne.symm hname)).trans known⟩
  | @misses _ name operation named unknown =>
      right; left
      refine ⟨fun operation' named' => ?_, known⟩
      rw [named] at named'
      obtain rfl := (Prod.mk.inj (Option.some.inj named')).1
      simp [unknown] at known
  | @creates name source fields settings chosen =>
      by_cases hname : name = id
      · subst hname
        right; right
        exact ⟨source, fields, settings, rfl, chosen⟩
      · right; left
        exact ⟨by simp [Step.operation?], (lexer?_put_of_ne (Ne.symm hname)).trans known⟩

/-- As long as no other lexer is made of its name, a lexer answers as it does alone, and is left as
it would be alone. -/
theorem Chain.performAll_eq (chain : Chain lexers visits final)
    (known : lexers.lookup id = some lexer) (kept : ∀ visit ∈ visits, ¬ visit.Renews id) :
    let alone := Operation.performAll lexer ((operationsOn id visits).map Prod.fst)
    (operationsOn id visits).map Prod.snd = alone.1 ∧ final.lookup id = some alone.2 := by
  induction chain generalizing lexer with
  | nil lexers => exact ⟨rfl, known⟩
  | @cons visit visits final effect more ih =>
      obtain ⟨hvisit, hvisits⟩ := List.forall_mem_cons.mp kept
      rcases effect.lexer?_left known with ⟨operation, named, hanswer, hleft⟩ | ⟨other, hleft⟩ |
        renewed
      · have hcons : operationsOn id (visit :: visits) =
            (operation, visit.answer) :: operationsOn id visits :=
          List.filterMap_cons_some (Visit.operationOn?_of_named named)
        obtain ⟨hanswers, hfinal⟩ := ih hleft hvisits
        rw [hcons, List.map_cons, List.map_cons, hanswers, hanswer]
        exact ⟨rfl, hfinal⟩
      · have hcons : operationsOn id (visit :: visits) = operationsOn id visits :=
          List.filterMap_cons_none (Visit.operationOn?_eq_none other)
        rw [hcons]
        exact ih hleft hvisits
      · exact absurd renewed hvisit

/-- All answers of a session are those of the steps that are carried out.  A lexer that is made by
one of them answers from then on as the same lexer does alone, under the settings that it was given
or else found active, until another is made of its name; and every step in between or right behind
finds it as it would be alone. -/
theorem operations_alone (session : Session) (steps : List Step) :
    Answer.leavesAll (Step.runAll session steps).1 =
        (Step.visitsAll session steps).map Visit.answer ∧
      ∀ before created life after id source fields settings,
        Step.visitsAll session steps = before ++ created :: (life ++ after) →
        created.step = .create id source fields →
        created.found.settingsFor fields = .ok settings →
        (∀ visit ∈ life, ¬ visit.Renews id) →
        let fresh := Lexer.start settings source
        let alone := Operation.performAll fresh ((operationsOn id life).map Prod.fst)
        created.answer = shown fresh ∧ (operationsOn id life).map Prod.snd = alone.1 ∧
          ∀ visit, after.head? = some visit → visit.found.lexer? id = some alone.2 := by
  refine ⟨leavesAll_runAll session steps, ?_⟩
  rintro before ⟨found, step⟩ life after id source fields settings split rfl chosen kept fresh alone
  have hrun : Step.run found (.create id source fields) = (shown fresh, found.put id fresh) := by
    simp only at chosen
    simp only [Step.run, chosen]
    rfl
  have chain := chain_visitsAll session steps
  rw [split] at chain
  obtain ⟨lexers, -, chain⟩ := chain.of_append
  cases chain with
  | cons effect more =>
      -- Of what comes behind, only the steps up to the next lexer of the name are looked at.
      obtain ⟨final, inside, behind⟩ := more.of_append
      have known : (Visit.left ⟨found, .create id source fields⟩).lexer? id = some fresh := by
        rw [Visit.left, hrun]
        exact lexer?_put
      obtain ⟨hanswers, hfinal⟩ := inside.performAll_eq known kept
      refine ⟨congrArg Prod.fst hrun, hanswers, fun visit hvisit => ?_⟩
      obtain ⟨more, rfl⟩ := List.head?_eq_some_iff.mp hvisit
      cases behind with
      | cons effect more => exact hfinal

/-- A session with a lexer that is made in a body and used behind it, in a thread and under other
settings, together with another lexer. -/
def nested : List Step :=
  [.create "a" ⟨"x y", "f"⟩ none,
    .within { tabWidth := some 4 } none [.create "b" ⟨"\tz", "g"⟩ none, .next "a", .raise],
    .choose { tabWidth := some 2 } none,
    .thread [.next "b", .next "a"],
    .reset,
    .next "b"]

/-- The lexer that is made in the body takes the settings of the body along. -/
theorem operations_alone_nested :
    (operationsOn "b" ((Step.visitsAll initial nested).drop 2)).map Prod.snd =
      (Operation.performAll (.start { tabWidth := 4 } ⟨"\tz", "g"⟩) [.next, .next]).1 := by
  let found : Session := ⟨{ tabWidth := 4 }, [("a", .start .standard ⟨"x y", "f"⟩)]⟩
  have split : Step.visitsAll initial nested =
      (Step.visitsAll initial nested).take 1 ++
        ⟨found, .create "b" ⟨"\tz", "g"⟩ none⟩ ::
          ((Step.visitsAll initial nested).drop 2 ++ []) := by
    rw [List.append_nil]
    rfl
  have steps : ((Step.visitsAll initial nested).drop 2).map Visit.step =
      [.next "a", .raise, .choose { tabWidth := some 2 } none, .next "b", .next "a", .reset,
        .next "b"] := rfl
  have kept : ∀ visit ∈ (Step.visitsAll initial nested).drop 2, ¬ visit.Renews "b" := by
    rintro visit hmem ⟨source, fields, settings, hstep, -⟩
    have hmem : visit.step ∈ ((Step.visitsAll initial nested).drop 2).map Visit.step :=
      List.mem_map_of_mem hmem
    rw [steps, hstep] at hmem
    simp at hmem
  exact ((operations_alone initial nested).2 _ _ _ [] "b" _ none _ split rfl rfl kept).2.1

end Offside.Session

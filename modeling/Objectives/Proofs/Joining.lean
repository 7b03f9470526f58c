/- # New carriers of a goal

A goal comes to a team in three ways: it is created for the team, it is shared with it, or it is handed
over to it when its owner deletes it.  The last finds the team among those that have a share already, so
that a goal that exists gets a new carrier only by a request to share, and that asks for the status of
the team.

Main definitions:

* `Memory.Locked` — the status of a team keeps goals from being shared with it;
* `Memory.Dated` — an identifier has been given, if for a goal then for one of a period.

Main results:

* `Memory.joins_of_writes` — what a command writes gives an existing goal no carrier that could not be
  named in a request to share it;
* `Memory.joined_unlocked` — **a team that comes to carry an existing goal was not locked, and as long
  as a team is locked it gets none of the goals that there were**.
-/

import Objectives.Proofs.Runs

set_option relaxedAutoImplicit false
set_option autoImplicit false

namespace Objectives.Memory

variable {m : Memory} {id : GoalId} {g : Goal} {team : TeamId} {period : PeriodId}

/-- The set of goals of the team is validated or closed. -/
def Locked (m : Memory) (team : TeamId) (period : PeriodId) : Prop :=
  m.statusOf team period = .validated ∨ m.statusOf team period = .closed

theorem locked_iff : m.Locked team period ↔ (m.statusOf team period).acceptsShares = false := by
  unfold Locked
  cases m.statusOf team period <;> simp [Status.acceptsShares]

/-- A team may be named in a request to share a goal if it exists and carries the goal already, or is
not locked. -/
theorem mayCarry_iff (h : m.Ledger) (hget : m.goals.get? id = some g) :
    m.mayCarry g team = true ↔
      m.teams.contains team = true ∧ (m.CarrierOf id team ∨ ¬ m.Locked team g.period) := by
  have hcarries : m.carries team g = true ↔ m.CarrierOf id team := by
    rw [carries_iff, h.goalKeyed id g hget]
    constructor
    · rintro (rfl | hshare)
      · exact .of_goal hget
      · exact .inr hshare
    · rintro (⟨g', hget', rfl⟩ | hshare)
      · rw [hget, Option.some_inj] at hget'
        exact .inl (congrArg Goal.team hget').symm
      · exact .inr hshare
  rw [mayCarry, get?_listStatuses, Bool.and_eq_true, Bool.or_eq_true, hcarries, locked_iff,
    Bool.not_eq_false]
  rfl

instance (m : Memory) (id : GoalId) (team : TeamId) : Decidable (m.CarrierOf id team) :=
  decidable_of_iff ((m.goals.get? id).any (·.team == team) = true ∨ m.shares.contains (id, team) = true)
    (by cases hget : m.goals.get? id <;> simp [CarrierOf, hget])

/-! ### The commands -/

/-- Calls that name no team make none a carrier. -/
theorem carrierOf_after {calls : List Call} (hnamed : ∀ c ∈ calls, c.named = []) :
    (m.after calls).CarrierOf id team → m.CarrierOf id team := by
  refine after_keeps (P := fun m' => m'.CarrierOf id team → m.CarrierOf id team) ?_ fun h => h
  intro c hc m' hbefore hafter
  have hnone := hnamed c hc
  refine hbefore ((carrierOf_carry hafter).resolve_right fun hmem => ?_)
  cases c with
  | createGoal | replaceShares | promote => cases hnone
  | _ => cases hmem

/-- A new goal is given to no team under an identifier that has been given before. -/
theorem carrierOf_of_createGoal (hgiven : id ≤ m.lastId) {owner : TeamId} {draft : GoalDraft}
    (h : (m.createGoal owner period draft).2.CarrierOf id team) : m.CarrierOf id team := by
  refine (carrierOf_createGoal h).resolve_right fun hmem => ?_
  have hid : id = m.lastId + 1 := congrArg Prod.fst (List.mem_singleton.1 hmem)
  exact Int.ne_of_lt (Int.lt_add_one_of_le hgiven) hid

/-- **What a command writes gives an existing goal no carrier that could not be named in a request to
share it.** -/
theorem joins_of_writes (hledger : m.Ledger) (hgiven : id ≤ m.lastId) {c : Command}
    {calls : List Call} (hwrites : c.Writes m calls) (h : (m.after calls).CarrierOf id team) :
    m.CarrierOf id team ∨ ∃ g, m.goals.get? id = some g ∧ m.mayCarry g team = true := by
  cases hwrites with
  | @createFirst owner p _ tidy _ _ _ _ =>
    -- the goal that is created is a new one
    have hunnamed : ∀ c ∈ [Call.setStatus owner p .forming], c.named = [] := by simp [Call.named]
    have hstatus : ((carry (.createGoal owner p tidy) m).2).CarrierOf id team :=
      carrierOf_after hunnamed h
    exact .inl (carrierOf_of_createGoal hgiven hstatus)
  | createNext => exact .inl (carrierOf_of_createGoal hgiven h)
  | @handOver i _ g' heir rest _ _ hshares =>
    -- the heir has a share of the goal that it gets
    rcases carrierOf_promote h with hbefore | hmem
    · exact .inl hbefore
    · cases List.mem_singleton.1 hmem
      have hheir := get?_heir hledger hshares
      rw [← goal_of_heir hledger hshares] at hheir
      exact .inl (.inr (Table.contains_of_get? hheir))
  | @share i _ g' plan hget hplan hteams =>
    -- every team of the plan has been checked
    refine (carrierOf_replaceShares h).imp_right fun hmem => ?_
    obtain ⟨t, ht, hkey⟩ := List.mem_map.1 hmem
    cases hkey
    exact ⟨g', SharePlan.goal_of_resolve hplan ▸ hget, hteams team ht⟩
  | _ => exact .inl (carrierOf_after (by simp [Call.named]) h)

/-- Whatever happens next, a team that comes to carry a goal that is there exists and is not locked. -/
theorem joins_happen (h : m.Reachable) (hgiven : id ≤ m.lastId) {e : Event}
    (hafter : (m.happen e).CarrierOf id team) (hbefore : ¬ m.CarrierOf id team) :
    ∃ g, m.goals.get? id = some g ∧ m.teams.contains team = true ∧ ¬ m.Locked team g.period := by
  have hledger := h.sound.ledger
  rcases happen_cases h e with hsame | ⟨c, -, -, calls, hwrites, hcalls⟩
  · rw [CarrierOf, hsame.goals, hsame.shares] at hafter
    exact absurd hafter hbefore
  · rw [hcalls] at hafter
    obtain ⟨g, hget, hmay⟩ := (joins_of_writes hledger hgiven hwrites hafter).resolve_left hbefore
    obtain ⟨hteam, hcases⟩ := (mayCarry_iff hledger hget).1 hmay
    exact ⟨g, hget, hteam, hcases.resolve_left hbefore⟩

/-! ### Runs -/

/-- The identifier has been given, and if there is a goal of it, that is one of the period. -/
structure Dated (m : Memory) (id : GoalId) (period : PeriodId) : Prop where
  given : id ≤ m.lastId
  period : ∀ g, m.goals.get? id = some g → g.period = period

/-- No call makes a goal of an identifier that has been given, or changes the period of one. -/
theorem Dated.carry (h : m.Dated id period) (c : Call) : (Memory.carry c m).2.Dated id period where
  given := Int.le_trans h.given (touched_carry c m).lastId_le
  period g hget := by
    rcases period_carry hget with ⟨g₀, hget₀, hperiod⟩ | hdated
    · exact hperiod ▸ h.period g₀ hget₀
    · cases c with
      | createGoal owner p draft =>
        have hne : m.lastId + 1 ≠ id := (Int.ne_of_lt (Int.lt_add_one_of_le h.given)).symm
        exact h.period g ((Table.get?_insert_of_ne _ _ hne).symm.trans hget)
      | _ => cases hdated

theorem Dated.happen (h : m.Dated id period) (e : Event) : (m.happen e).Dated id period := by
  refine happen_keeps (P := fun m => m.Dated id period) ?_ ?_ (fun m c hm => hm.carry c) h e
  · intro m name type parent hm
    exact ⟨Int.le_trans hm.given (Int.le_of_lt (Int.lt_succ m.lastId)), hm.period⟩
  · intro m team parent hm
    exact ⟨hm.given, hm.period⟩

theorem Dated.play (h : m.Dated id period) (events : List Event) :
    (m.play events).Dated id period :=
  play_keeps (P := fun m => m.Dated id period) (fun _ e hm => hm.happen e) h events

/-- A team that is locked all along comes to carry no goal of the period that was there before. -/
theorem not_carrierOf_throughout (h : m.Reachable) {events : List Event}
    (hlocked : m.Throughout events fun m' => m'.Locked team period) (hdated : m.Dated id period)
    (hnot : ¬ m.CarrierOf id team) :
    m.Throughout events fun m' => m'.Dated id period ∧ ¬ m'.CarrierOf id team := by
  refine .of_step h hlocked ⟨hdated, hnot⟩ ?_
  rintro m' e hm' hnow - ⟨hdated', hnot'⟩
  refine ⟨hdated'.happen e, fun hafter => ?_⟩
  obtain ⟨g, hget, -, hopen⟩ := joins_happen hm' hdated'.given hafter hnot'
  exact hopen (hdated'.period g hget ▸ hnow)

/-- **A team that owns or shares in a goal after an event, and did neither before though the goal was
there, exists and had neither validated nor closed its set of goals; and while a team has, whatever
happens, it carries only such of the goals that there were at the start as it has carried before.** -/
theorem joined_unlocked :
    (∀ (m : Memory), m.Reachable → ∀ (e : Event) (id : GoalId) (g : Goal) (team : TeamId),
      m.goals.get? id = some g → (m.happen e).CarrierOf id team → ¬ m.CarrierOf id team →
        m.teams.contains team = true ∧ m.statusOf team g.period ≠ .validated ∧
          m.statusOf team g.period ≠ .closed) ∧
    ∀ (m : Memory), m.Reachable → ∀ (team : TeamId) (period : PeriodId) (first second : List Event),
      (m.Throughout (first ++ second) fun m' =>
        m'.statusOf team period = .validated ∨ m'.statusOf team period = .closed) →
      ∀ (id : GoalId) (g : Goal), m.goals.get? id = some g → g.period = period →
        (m.play (first ++ second)).CarrierOf id team → (m.play first).CarrierOf id team := by
  constructor
  · intro m hm e id g team hget hafter hbefore
    have hgiven := hm.sound.ledger.given id g hget
    obtain ⟨g', hget', hteam, hopen⟩ := joins_happen hm hgiven hafter hbefore
    rw [hget, Option.some_inj] at hget'
    subst hget'
    exact ⟨hteam, not_or.1 hopen⟩
  · rintro m hm team period first second hlocked id g hget rfl hafter
    have hdated : m.Dated id g.period := by
      refine ⟨hm.sound.ledger.given id g hget, fun g' hget' => ?_⟩
      rw [hget, Option.some_inj] at hget'
      rw [hget']
    by_contra hnot
    have hrest := not_carrierOf_throughout (hm.play first) hlocked.of_append.2 (hdated.play first) hnot
    have hend := (hrest second [] (List.append_nil second).symm).2
    rw [play, List.foldl_append] at hafter
    exact hend hafter

/-- The store `oneShare` once the team with a share has validated its goals. -/
def validatedShare : Memory := ((Command.setStatus 2 3 .validated).program.run carry oneShare).2

/-- A goal is shared with a team; another comes by handover to a team that has validated its goals, but
has had a share in it. -/
theorem joined_unlocked_handover :
    let share : Event := .command (.shareGoal 4 [⟨1, ⟨60, by decide⟩⟩, ⟨2, ⟨40, by decide⟩⟩])
    let delete : Event := .command (.deleteGoal 4 (some 1))
    ∃ g, oneGoal.Reachable ∧ oneGoal.goals.get? 4 = some g ∧
      (oneGoal.happen share).CarrierOf 4 2 ∧ ¬ oneGoal.CarrierOf 4 2 ∧
      (oneGoal.teams.contains 2 = true ∧ oneGoal.statusOf 2 g.period ≠ .validated ∧
        oneGoal.statusOf 2 g.period ≠ .closed) ∧
      validatedShare.Reachable ∧ validatedShare.goals.get? 4 = some g ∧
      (validatedShare.Throughout ([] ++ [delete]) fun m' =>
        m'.statusOf 2 3 = .validated ∨ m'.statusOf 2 3 = .closed) ∧
      ((validatedShare.play [delete]).goals.get? 4).map Goal.team = some 2 ∧
      (validatedShare.play ([] ++ [delete])).CarrierOf 4 2 ∧ (validatedShare.play []).CarrierOf 4 2 := by
  intro share delete
  have hone : oneGoal.Reachable :=
    (((Reachable.empty.addTeam _ _ _).addTeam _ _ _).createPeriod _ _ _).run _
  have hget : oneGoal.goals.get? 4 = some grow := by decide +kernel
  have hjoins : (oneGoal.happen share).CarrierOf 4 2 := by decide +kernel
  have hnew : ¬ oneGoal.CarrierOf 4 2 := by decide +kernel
  have hvalidated : validatedShare.Reachable := reachable_oneShare.run _
  have hget' : validatedShare.goals.get? 4 = some grow := by decide +kernel
  have hlocked : validatedShare.Throughout ([] ++ [delete]) fun m' =>
      m'.statusOf 2 3 = .validated ∨ m'.statusOf 2 3 = .closed :=
    .cons (by decide +kernel) (.nil (by decide +kernel))
  have hafter : (validatedShare.play ([] ++ [delete])).CarrierOf 4 2 := by decide +kernel
  exact ⟨_, hone, hget, hjoins, hnew, joined_unlocked.1 oneGoal hone share 4 _ 2 hget hjoins hnew,
    hvalidated, hget', hlocked, by decide +kernel, hafter,
    joined_unlocked.2 validatedShare hvalidated 2 3 [] [delete] hlocked 4 _ hget' rfl hafter⟩

end Objectives.Memory

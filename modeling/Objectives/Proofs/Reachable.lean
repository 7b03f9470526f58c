/- # What commands leave behind

Commands of any number of clients are carried out side by side, call by call; meanwhile teams are
added and moved, and periods are created.  A command acts on what it has read, and what it has read
may have changed.  All the same, every goal is one of a period that exists, and carried by teams that
exist.

Main definitions:

* `Memory.CarrierOf`, `Memory.Carrier` — a team that owns a goal, or some goal, or has a share in it;
* `Memory.Sound` — owners and shares fit each other, and all carriers and all periods of goals exist;
* `System`, `System.Step` — a store with the commands that run on it, and what can happen next;
* `Memory.Reachable` — a store that can come about;
* `Call.Unnaming` — a call that names no team and no period that has to exist;
* `Program.Assured` — whatever others do in between, a program makes only calls that keep a store
  sound.

Main results:

* `Memory.carrierOf_carry`, `Memory.carrier_carry`, `Memory.period_carry` — a call adds only the
  carriers and the periods of goals that it names;
* `Command.assured` — **every command is assured**;
* `Memory.Reachable.sound` — **every store that can come about is sound**.
-/

import Mathlib.Logic.Relation
import Objectives.Proofs.Calls
import Objectives.Proofs.Ledger
import Objectives.Proofs.Links

set_option relaxedAutoImplicit false
set_option autoImplicit false

namespace Objectives

/-! ### Carriers -/

/-- The teams that a call makes carriers of a goal. -/
def Call.named : Call → List TeamId
  | createGoal owner .. => [owner]
  | replaceShares plan => plan.teams
  | promote share => [share.team]
  | _ => []

/-- The periods that a call creates a goal in. -/
def Call.dated : Call → List PeriodId
  | createGoal _ p _ => [p]
  | _ => []

namespace Memory

/-- The team owns the goal or has a share in it. -/
def CarrierOf (m : Memory) (id : GoalId) (team : TeamId) : Prop :=
  (∃ g, m.goals.get? id = some g ∧ g.team = team) ∨ m.shares.contains (id, team) = true

/-- The team owns a goal or has a share in one. -/
def Carrier (m : Memory) (team : TeamId) : Prop :=
  (∃ id g, m.goals.get? id = some g ∧ g.team = team) ∨
    ∃ id, m.shares.contains (id, team) = true

/-- The goals that a call gives carriers, each with the teams that it makes carriers of it. -/
def endows (m : Memory) : Call → List (GoalId × TeamId)
  | .createGoal owner .. => [(m.lastId + 1, owner)]
  | .replaceShares plan => plan.teams.map fun team => (plan.goal, team)
  | .promote share => [(share.goal, share.team)]
  | _ => []

theorem Carrier.of_goal {m : Memory} {id : GoalId} {g : Goal} (h : m.goals.get? id = some g) :
    m.Carrier g.team :=
  .inl ⟨id, g, h, rfl⟩

theorem Carrier.of_share {m : Memory} {id : GoalId} {team : TeamId}
    (h : m.shares.contains (id, team) = true) : m.Carrier team :=
  .inr ⟨id, h⟩

theorem carrier_iff {m : Memory} {team : TeamId} : m.Carrier team ↔ ∃ id, m.CarrierOf id team := by
  simp only [Carrier, CarrierOf, exists_or]

section Carriers

variable {m m' : Memory} {id : GoalId} {team : TeamId} {named : List (GoalId × TeamId)}

theorem CarrierOf.of_goal {g : Goal} (h : m.goals.get? id = some g) : m.CarrierOf id g.team :=
  .inl ⟨g, h, rfl⟩

/-- If the owner of the goal carried it before or is named, and every team with a share in it likewise,
all carriers of the goal are such teams. -/
theorem CarrierOf.of_tables (h : m'.CarrierOf id team)
    (goals : ∀ g, m'.goals.get? id = some g → m.CarrierOf id g.team ∨ (id, g.team) ∈ named)
    (shares : m'.shares.contains (id, team) = true → m.CarrierOf id team ∨ (id, team) ∈ named) :
    m.CarrierOf id team ∨ (id, team) ∈ named := by
  rcases h with ⟨g, hget, rfl⟩ | hshare
  · exact goals g hget
  · exact shares hshare

/-- With a goal that is put into its table comes at most the owner of that. -/
theorem CarrierOf.of_insert {i : GoalId} {g : Goal} {shares : Table (GoalId × TeamId) Share}
    {lastId : Int}
    (h : { m with goals := m.goals.insert i g, shares, lastId }.CarrierOf id team)
    (owner : m.CarrierOf i g.team ∨ (i, g.team) ∈ named)
    (hshares : shares.contains (id, team) = true → m.CarrierOf id team ∨ (id, team) ∈ named) :
    m.CarrierOf id team ∨ (id, team) ∈ named := by
  refine h.of_tables ?_ hshares
  intro g' hg'
  rw [Table.get?_insert] at hg'
  split at hg'
  · rename_i hi
    rw [Option.some_inj] at hg'
    exact hi ▸ hg' ▸ owner
  · exact .inl (.of_goal hg')

theorem carrierOf_createGoal {owner : TeamId} {period : PeriodId} {draft : GoalDraft}
    (h : (m.createGoal owner period draft).2.CarrierOf id team) :
    m.CarrierOf id team ∨ (id, team) ∈ [(m.lastId + 1, owner)] :=
  h.of_insert (.inr (List.mem_singleton_self _)) fun hs => .inl (.inr hs)

theorem carrierOf_updateGoal {i : GoalId} {draft : GoalDraft}
    (h : (m.updateGoal i draft).2.CarrierOf id team) :
    m.CarrierOf id team ∨ (id, team) ∈ named := by
  unfold updateGoal at h
  split at h
  · exact .inl h
  · rename_i goal hget
    have howner : m.CarrierOf i goal.team := .of_goal hget
    exact h.of_insert (.inl howner) fun hs => .inl (.inr hs)

theorem carrierOf_deleteGoal {i : GoalId} (h : (m.deleteGoal i).2.CarrierOf id team) :
    m.CarrierOf id team ∨ (id, team) ∈ named := by
  unfold deleteGoal at h
  split at h
  · refine h.of_tables ?_ fun hs => .inl (.inr (Table.contains_of_filter hs))
    intro g hg
    rw [Table.get?_erase] at hg
    split at hg
    · cases hg
    · exact .inl (.of_goal hg)
  · exact .inl h

theorem carrierOf_replaceShares {plan : SharePlan}
    (h : (m.replaceShares plan).2.CarrierOf id team) :
    m.CarrierOf id team ∨ (id, team) ∈ plan.teams.map fun team => (plan.goal, team) := by
  unfold replaceShares at h
  rcases m.setOwner_cases plan.goal plan.owner with
    ⟨-, hset⟩ | ⟨goal, goal', order, hget, hgoal', -, hset⟩
  · rw [hset] at h
    exact .inl h
  · rw [hset] at h
    have howner : (plan.goal, goal'.team) ∈ plan.teams.map fun team => (plan.goal, team) := by
      rw [hgoal']
      exact List.mem_map_of_mem (List.mem_cons_self ..)
    refine h.of_insert (.inr howner) ?_
    intro hs
    rcases contains_foldl_setShare hs with ⟨hgoal, target, hmem, hteam⟩ | hs
    · refine .inr (List.mem_map.2 ⟨target.team, ?_, Prod.ext hgoal.symm hteam⟩)
      exact List.mem_cons_of_mem _ (List.mem_map_of_mem hmem)
    · exact .inl (.inr (Table.contains_of_filter hs))

theorem carrierOf_promote {share : Share} (h : (m.promote share).2.CarrierOf id team) :
    m.CarrierOf id team ∨ (id, team) ∈ [(share.goal, share.team)] := by
  unfold promote at h
  rcases m.setOwner_cases share.goal ⟨share.team, share.weight⟩ with
    ⟨-, hset⟩ | ⟨goal, goal', order, hget, hgoal', -, hset⟩
  · rw [hset] at h
    exact .inl h
  · rw [hset] at h
    have howner : (share.goal, goal'.team) ∈ [(share.goal, share.team)] := by
      rw [hgoal']
      exact List.mem_cons_self ..
    exact h.of_insert (.inr howner) fun hs => .inl (.inr (Table.contains_of_filter hs))

theorem carrierOf_removeShare {i : GoalId} {t : TeamId}
    (h : (m.removeShare i t).CarrierOf id team) : m.CarrierOf id team ∨ (id, team) ∈ named :=
  h.of_tables (fun _ hg => .inl (.of_goal hg)) fun hs => .inl (.inr (Table.contains_of_filter hs))

theorem carrierOf_setShareWeight {i : GoalId} {t : TeamId} {weight : Weight}
    (h : (m.setShareWeight i t weight).2.CarrierOf id team) :
    m.CarrierOf id team ∨ (id, team) ∈ named := by
  unfold setShareWeight at h
  split at h
  · rename_i share hget
    refine h.of_tables (fun _ hg => .inl (.of_goal hg)) ?_
    intro hs
    by_cases hkey : (i, t) = (id, team)
    · exact .inl (.inr (hkey ▸ Table.contains_of_get? hget))
    · rw [Table.contains, Table.get?_insert_of_ne _ _ hkey] at hs
      exact .inl (.inr hs)
  · exact .inl h

theorem carrierOf_setTeamWeight {i : GoalId} {t : TeamId} {weight : Weight}
    (h : (m.setTeamWeight i t weight).2.CarrierOf id team) :
    m.CarrierOf id team ∨ (id, team) ∈ named := by
  unfold setTeamWeight at h
  split at h
  · rename_i goal hget
    split at h
    · have howner : m.CarrierOf i goal.team := .of_goal hget
      exact h.of_insert (.inl howner) fun hs => .inl (.inr hs)
    · exact carrierOf_setShareWeight h
  · exact carrierOf_setShareWeight h

/-- Setting order keys changes no owner. -/
theorem carrierOf_setOrders {set : Int → Goal → Goal}
    (hteam : ∀ order g, (set order g).team = g.team) {changes : List (Int × Int)}
    (h : { m with goals := setOrders set m.goals changes }.CarrierOf id team) :
    m.CarrierOf id team := by
  refine h.imp_left ?_
  rintro ⟨g, hg, rfl⟩
  have hsame := map_get?_setOrders hteam m.goals changes id
  rw [hg, Option.map_some, eq_comm, Option.map_eq_some_iff] at hsame
  exact hsame

theorem carrierOf_moveGoal {i : GoalId} {asTeam : Option TeamId} {direction : Direction}
    (h : (m.move (.goal i asTeam) direction).2.CarrierOf id team) :
    m.CarrierOf id team ∨ (id, team) ∈ named := by
  unfold move at h
  simp only at h
  split at h
  · exact .inl h
  · split at h
    · exact .inl h
    · refine .inl (carrierOf_setOrders ?_ h)
      intro order g
      rfl

/-- A goal gets only the carriers that a call gives it. -/
theorem carrierOf_carry {c : Call} (h : (carry c m).2.CarrierOf id team) :
    m.CarrierOf id team ∨ (id, team) ∈ m.endows c := by
  by_cases hs : c.subject = .goals ∨ c.subject = .wholeGoal
  · cases c with
    | createGoal owner period draft => exact carrierOf_createGoal h
    | updateGoal id draft => exact carrierOf_updateGoal h
    | deleteGoal id => exact carrierOf_deleteGoal h
    | replaceShares plan => exact carrierOf_replaceShares h
    | removeShare goal t => exact carrierOf_removeShare h
    | promote share => exact carrierOf_promote h
    | setTeamWeight goal t weight => exact carrierOf_setTeamWeight h
    | move item direction =>
      cases item with
      | goal id asTeam => exact carrierOf_moveGoal h
      | keyResult id => rcases hs with hs | hs <;> cases hs
      | period id => rcases hs with hs | hs <;> cases hs
    | _ => rcases hs with hs | hs <;> cases hs
  · -- any other call leaves both tables as they are
    rw [not_or] at hs
    obtain ⟨hgoals, hshares⟩ := (touched_carry c m).goals_shares hs.1 hs.2
    rw [CarrierOf, hgoals, hshares] at h
    exact .inl h

/-- **A call adds only the carriers that it names.** -/
theorem carrier_carry {c : Call} (h : (carry c m).2.Carrier team) :
    m.Carrier team ∨ team ∈ c.named := by
  obtain ⟨id, hid⟩ := carrier_iff.1 h
  rcases carrierOf_carry hid with hid | hnamed
  · exact .inl (carrier_iff.2 ⟨id, hid⟩)
  · refine .inr ?_
    cases c with
    | createGoal owner period draft =>
      exact List.mem_singleton.2 (congrArg Prod.snd (List.mem_singleton.1 hnamed))
    | replaceShares plan =>
      obtain ⟨t, ht, hkey⟩ := List.mem_map.1 hnamed
      have hteam : t = team := congrArg Prod.snd hkey
      exact hteam ▸ ht
    | promote share =>
      exact List.mem_singleton.2 (congrArg Prod.snd (List.mem_singleton.1 hnamed))
    | _ => cases hnamed

end Carriers

/-! ### Periods of goals -/

/-- A goal after a call is in the period that it was in, or in one that the call names. -/
theorem period_carry {m : Memory} {c : Call} {id : GoalId} {g : Goal}
    (h : (carry c m).2.goals.get? id = some g) :
    (∃ g₀, m.goals.get? id = some g₀ ∧ g₀.period = g.period) ∨ g.period ∈ c.dated := by
  cases hc : c.relinks with
  | false =>
    have hsame := (sameLinks_carry hc m).goals id
    rw [h, Option.map_some, eq_comm, Option.map_eq_some_iff] at hsame
    exact .inl hsame
  | true =>
    have htouched := touched_carry c m
    cases c with
    | createGoal team period draft =>
      simp only [carry, createGoal, Table.get?_insert] at h
      split at h
      · rw [Option.some_inj] at h
        subst h
        exact .inr (List.mem_singleton_self _)
      · exact .inl ⟨g, h, rfl⟩
    | deleteGoal i =>
      simp only [carry, deleteGoal] at h
      split at h
      · rw [Table.get?_erase] at h
        split at h
        · cases h
        · exact .inl ⟨g, h, rfl⟩
      · exact .inl ⟨g, h, rfl⟩
    | createKeyResult | deleteKeyResult | addComment =>
      rw [(htouched.goals_shares (by simp [Call.subject]) (by simp [Call.subject])).1] at h
      exact .inl ⟨g, h, rfl⟩
    | _ => cases hc

/-- No call takes a period away. -/
theorem contains_periods_carry {m : Memory} {period : PeriodId}
    (h : m.periods.contains period = true) (c : Call) :
    (carry c m).2.periods.contains period = true := by
  by_cases hc : c.subject = .periods
  · cases c with
    | createPeriod name startDate endDate =>
      simp only [carry, createPeriod]
      split
      · exact Table.contains_insert_of_contains h
      · exact h
    | move item direction =>
      cases item with
      | period id =>
        simp only [carry, move]
        split
        · exact h
        · rw [Table.contains, ← Option.isSome_map (f := fun _ => ()), map_get?_setOrders,
            Option.isSome_map]
          · exact h
          · intro order p
            rfl
      | goal id asTeam => cases hc
      | keyResult id => cases hc
    | _ => cases hc
  · rwa [(touched_carry c m).periods hc]

/-! ### Sound stores -/

/-- Owners and shares fit each other, teams are stored under their own identifiers, and all carriers
and all periods of goals exist. -/
structure Sound (m : Memory) : Prop where
  ledger : m.Ledger
  teamsKeyed : m.teams.Keyed Team.id
  staffed : ∀ team, m.Carrier team → m.teams.contains team = true
  dated : ∀ id g, m.goals.get? id = some g → m.periods.contains g.period = true

/-- No team and no period has been lost. -/
structure Grown (m m' : Memory) : Prop where
  teams : ∀ team, m.teams.contains team = true → m'.teams.contains team = true
  periods : ∀ period, m.periods.contains period = true → m'.periods.contains period = true

theorem Grown.refl (m : Memory) : m.Grown m := ⟨fun _ h => h, fun _ h => h⟩

theorem Grown.trans {m m' m'' : Memory} (h : m.Grown m') (h' : m'.Grown m'') : m.Grown m'' where
  teams team ht := h'.teams team (h.teams team ht)
  periods period hp := h'.periods period (h.periods period hp)

/-- No call takes a team or a period away. -/
theorem grown_carry (m : Memory) (c : Call) : m.Grown (carry c m).2 where
  teams team ht := by rwa [(touched_carry c m).teams]
  periods period hp := contains_periods_carry hp c

end Memory

/-- What a call needs: a plan gives the owner no share, and the teams that it makes carriers and the
period that it creates a goal in exist. -/
structure Call.Sound (c : Call) (m : Memory) : Prop where
  orderly : c.Orderly
  named : ∀ team ∈ c.named, m.teams.contains team = true
  dated : ∀ period ∈ c.dated, m.periods.contains period = true

/-- The call names no team and no period that has to exist: it makes no team a carrier and creates no
goal. -/
def Call.Unnaming (c : Call) : Prop := c.named = [] ∧ c.dated = []

/-- The command neither creates a goal nor gives one to a team. -/
def Command.Unnaming : Command → Prop
  | createGoal .. | deleteGoal .. | shareGoal .. => False
  | _ => True

/-- A call that names nothing needs nothing. -/
theorem Call.Unnaming.sound {c : Call} (hc : c.Unnaming) (m : Memory) : c.Sound m := by
  refine ⟨?_, ?_, ?_⟩
  · cases c with
    | replaceShares plan => cases hc.1
    | _ => trivial
  · rw [hc.1]
    intro team ht
    cases ht
  · rw [hc.2]
    intro period hp
    cases hp

theorem Call.unnaming_of_reads {c : Call} (hc : c.subject = .nothing) : c.Unnaming := by
  cases c with
  | createGoal team period draft => cases hc
  | replaceShares plan => cases hc
  | promote share => cases hc
  | _ => exact ⟨rfl, rfl⟩

/-- Only the creation, the handover and the sharing of goals name what has to exist. -/
theorem Command.Unnaming.makes {c : Command} (h : c.Unnaming) :
    c.program.Makes Call.Unnaming := by
  refine c.makes.mono fun call hcall => ?_
  cases hcall with
  | read _ hread => exact Call.unnaming_of_reads hread
  | createGoal | moveOn | promote | deleteGoal | removeShare | replaceShares => cases h
  | _ => exact ⟨rfl, rfl⟩

namespace Memory

namespace Sound

variable {m : Memory}

theorem empty : Memory.empty.Sound where
  ledger := Ledger.empty
  teamsKeyed := Table.Keyed.empty
  staffed team h := by
    rcases h with ⟨id, g, hget, -⟩ | ⟨id, hshare⟩
    · cases hget
    · cases hshare
  dated id g h := by cases h

theorem carry (h : m.Sound) {c : Call} (hc : c.Sound m) : (Memory.carry c m).2.Sound where
  ledger := h.ledger.carry hc.orderly
  teamsKeyed := by
    rw [(touched_carry c m).teams]
    exact h.teamsKeyed
  staffed team hcarrier := by
    rw [(touched_carry c m).teams]
    rcases carrier_carry hcarrier with hcarrier | hnamed
    · exact h.staffed team hcarrier
    · exact hc.named team hnamed
  dated id g hget := by
    rcases period_carry hget with ⟨g₀, hg₀, hperiod⟩ | hdated
    · rw [← hperiod]
      exact contains_periods_carry (h.dated id g₀ hg₀) c
    · exact contains_periods_carry (hc.dated g.period hdated) c

theorem addTeam (h : m.Sound) (name : String) (type : TeamType) (parent : Option TeamId) :
    (m.addTeam name type parent).2.Sound where
  ledger := h.ledger.of_eq rfl rfl (Int.le_add_one (Int.le_refl _))
  teamsKeyed := h.teamsKeyed.insert rfl
  staffed team hcarrier := Table.contains_insert_of_contains (h.staffed team hcarrier)
  dated := h.dated

theorem setTeamParent (h : m.Sound) (team : TeamId) (parent : Option TeamId) :
    (m.setTeamParent team parent).Sound where
  ledger := h.ledger.of_eq rfl rfl (Int.le_refl _)
  teamsKeyed := by
    refine h.teamsKeyed.modify ?_ team
    intro t
    rfl
  staffed t hcarrier := by
    rw [Memory.setTeamParent, Table.contains_modify]
    exact h.staffed t hcarrier
  dated := h.dated

end Sound

theorem grown_addTeam (m : Memory) (name : String) (type : TeamType) (parent : Option TeamId) :
    m.Grown (m.addTeam name type parent).2 where
  teams _ ht := Table.contains_insert_of_contains ht
  periods _ hp := hp

theorem grown_setTeamParent (m : Memory) (team : TeamId) (parent : Option TeamId) :
    m.Grown (m.setTeamParent team parent) where
  teams t ht := by rwa [setTeamParent, Table.contains_modify]
  periods _ hp := hp

end Memory

/-! ### Programs -/

namespace Program

variable {α β : Type}

/-- Whatever others do before each of its calls, the program makes only calls that a sound store
admits, and if it finishes, the answer fits the store. -/
inductive Assured (post : α → Memory → Prop) : Program α → Memory → Prop
  | done {a : α} {m : Memory} (holds : post a m) : Assured post (done a) m
  | fail {e : Failure} {m : Memory} : Assured post (fail e) m
  | call {c : Call} {next : c.Reply → Program α} {m : Memory}
      (admitted : ∀ m', m.Grown m' → m'.Sound → c.Sound m')
      (rest : ∀ m', m.Grown m' → m'.Sound → ∀ reply, (Memory.carry c m').1 = .ok reply →
        Assured post (next reply) (Memory.carry c m').2) :
      Assured post (call c next) m

variable {post : α → Memory → Prop} {m : Memory}

namespace Assured

/-- What is assured in a sequence: the first program, and the second on every store that has grown
since. -/
theorem bind {p : Program α} {f : α → Program β} {post' : β → Memory → Prop}
    (h : p.Assured post m)
    (hf : ∀ a m', m.Grown m' → post a m' → (f a).Assured post' m') :
    (p.bind f).Assured post' m := by
  induction h with
  | @done a m holds => exact hf a m (Memory.Grown.refl m) holds
  | fail => exact .fail
  | @call c next m admitted _ ih =>
    -- the second program starts on a store that has grown from the one after the call
    refine .call admitted fun m' hm' hsound reply hreply => ih m' hm' hsound reply hreply ?_
    intro a m'' hm'' ha
    exact hf a m'' ((hm'.trans (m'.grown_carry c)).trans hm'') ha

/-- What others do before the next call makes no difference. -/
theorem of_grown {p : Program α} {m' : Memory} (h : p.Assured (fun _ _ => True) m)
    (hm' : m.Grown m') : p.Assured (fun _ _ => True) m' := by
  cases h with
  | done _ => exact .done trivial
  | fail => exact .fail
  | call admitted rest =>
    exact .call (fun m'' hm'' => admitted m'' (hm'.trans hm''))
      fun m'' hm'' => rest m'' (hm'.trans hm'')

/-- The next call of an assured program keeps a store sound, and what is left is assured. -/
theorem step {p : Program α} (h : p.Assured (fun _ _ => True) m) (hm : m.Sound) :
    (p.step Memory.carry m).2.Sound ∧ m.Grown (p.step Memory.carry m).2 ∧
      (p.step Memory.carry m).1.Assured (fun _ _ => True) (p.step Memory.carry m).2 := by
  cases h with
  | done _ => exact ⟨hm, Memory.Grown.refl m, .done trivial⟩
  | fail => exact ⟨hm, Memory.Grown.refl m, .fail⟩
  | @call c next _ admitted rest =>
    have hsound := hm.carry (admitted m (Memory.Grown.refl m) hm)
    have hgrown := m.grown_carry c
    have hrest := rest m (Memory.Grown.refl m) hm
    rw [Program.step]
    cases hcarry : Memory.carry c m with
    | mk answer m' =>
      rw [hcarry] at hsound hgrown hrest
      cases answer with
      | ok reply => exact ⟨hsound, hgrown, hrest reply rfl⟩
      | error e => exact ⟨hsound, hgrown, .fail⟩

/-- The answer of a single call, on the store after it. -/
theorem ask {c : Call} {post : c.Reply → Memory → Prop}
    (admitted : ∀ m', m.Grown m' → m'.Sound → c.Sound m')
    (answer : ∀ m', m.Grown m' → m'.Sound → ∀ reply, (Memory.carry c m').1 = .ok reply →
      post reply (Memory.carry c m').2) :
    (Program.ask c).Assured post m :=
  .call admitted fun m' hm' hsound reply hreply => .done (answer m' hm' hsound reply hreply)

/-- A program that names no team and no period is assured on every store. -/
theorem of_makes {p : Program α} (hp : p.Makes Call.Unnaming) (m : Memory) :
    p.Assured (fun _ _ => True) m := by
  induction hp generalizing m with
  | done => exact .done trivial
  | fail => exact .fail
  | call hc _ ih => exact .call (fun m' _ _ => hc.sound m') fun m' _ _ reply _ => ih reply _

theorem of_reads {p : Program α} (hp : p.Reads) (m : Memory) : p.Assured (fun _ _ => True) m :=
  of_makes (.of_reads (fun _ => Call.unnaming_of_reads) hp) m

/-- What is expected is there where the program goes on. -/
theorem expect {p : Program (Option α)} {holds : Memory → Prop} (reason : Failure)
    (h : p.Assured (fun found m' => found.isSome = true → holds m') m) :
    (p.bind (Program.expect reason)).Assured (fun _ m' => holds m') m := by
  refine h.bind fun found m' _ hfound => ?_
  cases found with
  | none => exact .fail
  | some a => exact .done (hfound rfl)

theorem check (result : Except Violation α) :
    (Program.check result).Assured (fun a _ => result = .ok a) m := by
  cases result with
  | ok a => exact .done rfl
  | error v => exact .fail

/-- What holds of each answer on the store after it holds of all of them in the end, as it stays when
the store grows. -/
theorem each {f : α → Program β} {list : List α} {holds : α → Memory → Prop}
    (stays : ∀ a m m', m.Grown m' → holds a m → holds a m')
    (h : ∀ a ∈ list, ∀ m, (f a).Assured (fun _ m' => holds a m') m) :
    (Program.each f list).Assured (fun _ m' => ∀ a ∈ list, holds a m') m := by
  induction list generalizing m with
  | nil => exact .done (by simp)
  | cons a rest ih =>
    refine (h a (List.mem_cons_self ..) m).bind fun b m₁ _ ha => ?_
    refine (ih fun a' ha' => h a' (List.mem_cons_of_mem _ ha')).bind fun bs m₂ hm₂ hrest => ?_
    refine .done fun a' ha' => ?_
    rcases List.mem_cons.1 ha' with rfl | ha'
    · exact stays _ m₁ m₂ hm₂ ha
    · exact hrest a' ha'

end Assured

end Program

/-! ### Commands -/

section Commands

/-- A team that is found is in the store, and stays. -/
theorem assured_requireTeam (id : TeamId) (m : Memory) :
    (requireTeam id).Assured (fun _ m' => m'.teams.contains id = true) m := by
  refine .expect _ (.ask (c := .team id) (fun m' _ _ => Call.Unnaming.sound ⟨rfl, rfl⟩ m') ?_)
  intro m' _ _ found hfound hsome
  cases hfound
  exact hsome

/-- A period that is found is in the store, and stays. -/
theorem assured_requirePeriod (id : PeriodId) (m : Memory) :
    (requirePeriod id).Assured (fun _ m' => m'.periods.contains id = true) m := by
  refine .expect _ (.ask (c := .period id) (fun m' _ _ => Call.Unnaming.sound ⟨rfl, rfl⟩ m') ?_)
  intro m' _ _ found hfound hsome
  cases hfound
  exact hsome

/-- A goal is created for a team and in a period that have been found before. -/
theorem assured_create (team : TeamId) (period : PeriodId) (draft : GoalDraft) (m : Memory) :
    (Goals.create team period draft).Assured (fun _ _ => True) m := by
  refine (Program.Assured.check _).bind fun draft m₁ _ _ => ?_
  refine (assured_requireTeam team m₁).bind fun _ m₂ _ hteam => ?_
  refine (assured_requirePeriod period m₂).bind fun _ m₃ hm₃ hperiod => ?_
  refine (Program.Assured.of_reads (reads_requireOpen team period _) m₃).bind fun status m₄ hm₄ _ => ?_
  have hask : (Program.ask (.createGoal team period draft)).Assured (fun _ _ => True) m₄ := by
    refine .ask (fun m₅ hm₅ _ => ⟨trivial, ?_, ?_⟩) fun _ _ _ _ _ => trivial
    · intro t ht
      rw [List.mem_singleton.1 ht]
      -- the team has been found three calls ago, and no team is lost
      exact hm₅.teams team (hm₄.teams team (hm₃.teams team hteam))
    · intro p hp
      rw [List.mem_singleton.1 hp]
      exact hm₅.periods period (hm₄.periods period hperiod)
  refine hask.bind fun goal m₅ _ _ => ?_
  show Program.Assured _ (if _ then _ else _) m₅
  split
  · exact .of_makes (.ask_bind ⟨rfl, rfl⟩ fun _ => .done) m₅
  · exact .done trivial

/-- A goal goes to a team whose share has been listed before. -/
theorem assured_delete (id : GoalId) (asTeam : Option TeamId) (m : Memory) :
    (Goals.delete id asTeam).Assured (fun _ _ => True) m := by
  refine (Program.Assured.of_reads (reads_requireGoal id) m).bind fun goal m₁ _ _ => ?_
  refine (Program.Assured.of_reads (reads_requireOpen _ goal.period _) m₁).bind fun _ m₂ _ _ => ?_
  split
  · have hask : (Program.ask (.shares goal.id)).Assured
        (fun shares m' => ∀ s ∈ shares, m'.teams.contains s.team = true) m₂ := by
      refine .ask (fun m₃ _ _ => Call.Unnaming.sound ⟨rfl, rfl⟩ m₃) ?_
      intro m₃ _ hsound shares hshares s hs
      cases hshares
      have hget := (Memory.mem_listShares hsound.ledger).1 hs
      exact hsound.staffed s.team (.of_share (Table.contains_of_get? hget))
    refine hask.bind fun shares m₃ _ hshares => ?_
    cases shares with
    | nil => exact .of_makes (.ask_bind ⟨rfl, rfl⟩ fun _ => .done) m₃
    | cons heir rest =>
      have hpromote : (Program.ask (.promote heir)).Assured (fun _ _ => True) m₃ := by
        refine .ask (fun m₄ hm₄ _ => ⟨trivial, ?_, ?_⟩) fun _ _ _ _ _ => trivial
        · intro t ht
          rw [List.mem_singleton.1 ht]
          exact hm₄.teams heir.team (hshares heir (List.mem_cons_self ..))
        · intro p hp
          cases hp
      exact hpromote.bind fun _ _ _ _ => .done trivial
  · exact .of_makes (.ask_bind ⟨rfl, rfl⟩ fun _ => .done) m₂

theorem assured_checkTarget (goal : Goal) (shares : List Share) (statuses : Table TeamId Status)
    (team : TeamId) (m : Memory) :
    (Goals.checkTarget goal shares statuses team).Assured
      (fun _ m' => m'.teams.contains team = true) m := by
  refine (assured_requireTeam team m).bind fun _ m₁ _ hteam => ?_
  split
  · exact .done hteam
  · show Program.Assured _ (if _ then _ else _) m₁
    split
    · exact .done hteam
    · exact .fail

/-- Shares are set for teams each of which has been found before, and by a plan. -/
theorem assured_share (id : GoalId) (targets : List ShareTarget) (m : Memory) :
    (Goals.share id targets).Assured (fun _ _ => True) m := by
  refine (Program.Assured.of_reads (reads_requireGoal id) m).bind fun goal m₁ _ _ => ?_
  refine (Program.Assured.check _).bind fun plan m₂ _ hplan => ?_
  refine (Program.Assured.of_reads (.ask rfl) m₂).bind fun shares m₃ _ _ => ?_
  refine (Program.Assured.of_reads (.ask rfl) m₃).bind fun statuses m₄ _ _ => ?_
  have hteams : (Program.each (Goals.checkTarget goal shares statuses) plan.teams).Assured
      (fun _ m' => ∀ team ∈ plan.teams, m'.teams.contains team = true) m₄ :=
    Program.Assured.each (fun team _ _ hm ht => hm.teams team ht)
      fun team _ m => assured_checkTarget goal shares statuses team m
  refine hteams.bind fun _ m₅ _ hteams => ?_
  have hreplace : (Program.ask (.replaceShares plan)).Assured (fun _ _ => True) m₅ := by
    refine .ask (fun m₆ hm₆ _ => ⟨SharePlan.owner_not_shared hplan, ?_, ?_⟩)
      fun _ _ _ _ _ => trivial
    · intro team ht
      exact hm₆.teams team (hteams team ht)
    · intro p hp
      cases hp
  exact hreplace.bind fun _ _ _ _ => .done trivial

/-- **Every command is assured**, on every store. -/
theorem Command.assured (c : Command) (m : Memory) : c.program.Assured (fun _ _ => True) m := by
  by_cases hc : c.Unnaming
  · exact .of_makes hc.makes m
  · cases c with
    | createGoal team period draft => exact assured_create team period draft m
    | deleteGoal goal asTeam => exact assured_delete goal asTeam m
    | shareGoal goal targets => exact assured_share goal targets m
    | _ => exact absurd trivial hc

end Commands

/-! ### Stores that can come about -/

/-- A program can be carried through where each of its steps can be taken. -/
theorem Program.exists_steps_run {σ τ α : Type} (carry : Carries σ) {R : τ → τ → Prop}
    (place : Program α → σ → τ)
    (hstep : ∀ p s, R (place p s) (place (p.step carry s).1 (p.step carry s).2)) (p : Program α)
    (s : σ) : ∃ q, Relation.ReflTransGen R (place p s) (place q (p.run carry s).2) := by
  induction p generalizing s with
  | done a => exact ⟨_, .refl⟩
  | fail e => exact ⟨_, .refl⟩
  | call c next ih =>
    have hfirst := hstep (.call c next) s
    rw [Program.run_eq_step]
    rw [Program.step] at hfirst ⊢
    cases hcarry : carry c s with
    | mk answer s' =>
      simp only [hcarry] at hfirst ⊢
      cases answer with
      | ok reply =>
        obtain ⟨q, hrest⟩ := ih reply s'
        exact ⟨q, .head hfirst hrest⟩
      | error e => exact ⟨_, .single hfirst⟩

/-- A store, and the commands that are being carried out on it. -/
structure System where
  store : Memory
  running : List ((c : Command) × Program c.Outcome)

namespace System

/-- What can happen next: a team is added or moved, a period is created, a command is submitted, or
one of the running commands makes its next call. -/
inductive Step : System → System → Prop
  | addTeam (s : System) (name : String) (type : TeamType) (parent : Option TeamId) :
      Step s { s with store := (s.store.addTeam name type parent).2 }
  | setTeamParent (s : System) (team : TeamId) (parent : Option TeamId) :
      Step s { s with store := s.store.setTeamParent team parent }
  | createPeriod (s : System) (name : String) (startDate endDate : Date) :
      Step s { s with store := (s.store.createPeriod name startDate endDate).2 }
  | submit (s : System) (c : Command) :
      Step s { s with running := s.running ++ [⟨c, c.program⟩] }
  | advance (m : Memory) (before after : List ((c : Command) × Program c.Outcome)) (c : Command)
      (p : Program c.Outcome) :
      Step ⟨m, before ++ ⟨c, p⟩ :: after⟩
        ⟨(p.step Memory.carry m).2, before ++ ⟨c, (p.step Memory.carry m).1⟩ :: after⟩

/-- The store is sound, and all that runs on it is assured. -/
structure Safe (s : System) : Prop where
  sound : s.store.Sound
  assured : ∀ r ∈ s.running, r.2.Assured (fun _ _ => True) s.store

variable {s s' : System}

/-- What a step does to the store: a team is added or moved, one call is carried out, or nothing. -/
theorem Step.store_cases (h : Step s s') :
    (∃ name type parent, s'.store = (s.store.addTeam name type parent).2) ∨
      (∃ team parent, s'.store = s.store.setTeamParent team parent) ∨
      s'.store = s.store ∨ ∃ c, s'.store = (Memory.carry c s.store).2 := by
  cases h with
  | addTeam s name type parent => exact .inl ⟨name, type, parent, rfl⟩
  | setTeamParent s team parent => exact .inr (.inl ⟨team, parent, rfl⟩)
  | createPeriod s name startDate endDate =>
    exact .inr (.inr (.inr ⟨.createPeriod name startDate endDate, rfl⟩))
  | submit s c => exact .inr (.inr (.inl rfl))
  | advance m before after c p =>
    cases p with
    | done a => exact .inr (.inr (.inl rfl))
    | fail e => exact .inr (.inr (.inl rfl))
    | call call next =>
      refine .inr (.inr (.inr ⟨call, ?_⟩))
      simp only [Program.step]
      cases Memory.carry call m with
      | mk answer m' => cases answer <;> rfl

/-- What runs stays assured when the store has grown. -/
theorem Safe.of_grown (h : s.Safe) {m : Memory} (sound : m.Sound) (grown : s.store.Grown m) :
    { s with store := m }.Safe where
  sound := sound
  assured r hr := (h.assured r hr).of_grown grown

/-- Whatever happens next, the system stays safe. -/
theorem Safe.step (h : s.Safe) (hs : Step s s') : s'.Safe := by
  cases hs with
  | addTeam s name type parent =>
    exact h.of_grown (h.sound.addTeam name type parent) (s.store.grown_addTeam name type parent)
  | setTeamParent s team parent =>
    exact h.of_grown (h.sound.setTeamParent team parent) (s.store.grown_setTeamParent team parent)
  | createPeriod s name startDate endDate =>
    have hcall : (Call.createPeriod name startDate endDate).Sound s.store :=
      Call.Unnaming.sound ⟨rfl, rfl⟩ s.store
    exact h.of_grown (h.sound.carry hcall)
      (s.store.grown_carry (.createPeriod name startDate endDate))
  | submit s c =>
    refine ⟨h.sound, ?_⟩
    intro r hr
    rcases List.mem_append.1 hr with hr | hr
    · exact h.assured r hr
    · rw [List.mem_singleton.1 hr]
      exact c.assured s.store
  | advance m before after c p =>
    obtain ⟨hsound, hgrown, hp⟩ := (h.assured ⟨c, p⟩ (by simp)).step h.sound
    refine ⟨hsound, ?_⟩
    intro r hr
    rcases List.mem_append.1 hr with hr | hr
    · exact (h.assured r (by simp [hr])).of_grown hgrown
    · rcases List.mem_cons.1 hr with rfl | hr
      · exact hp
      · exact (h.assured r (by simp [hr])).of_grown hgrown

/-- Whatever has happened since the store had no records, the system is safe. -/
theorem Safe.of_steps (hs : Relation.ReflTransGen Step ⟨Memory.empty, []⟩ s) : s.Safe := by
  induction hs with
  | refl => exact ⟨Memory.Sound.empty, by simp⟩
  | tail _ hstep ih => exact ih.step hstep

end System

namespace Memory

/-- The store can come about from one without records. -/
def Reachable (m : Memory) : Prop :=
  ∃ running, Relation.ReflTransGen System.Step ⟨Memory.empty, []⟩ ⟨m, running⟩

namespace Reachable

variable {m : Memory}

/-- **Every store that can come about is sound.** -/
theorem sound (h : m.Reachable) : m.Sound := by
  obtain ⟨running, hsteps⟩ := h
  exact (System.Safe.of_steps hsteps).sound

theorem empty : Memory.empty.Reachable := ⟨[], .refl⟩

theorem addTeam (h : m.Reachable) (name : String) (type : TeamType) (parent : Option TeamId) :
    (m.addTeam name type parent).2.Reachable := by
  obtain ⟨running, hsteps⟩ := h
  exact ⟨running, hsteps.tail (.addTeam _ name type parent)⟩

theorem setTeamParent (h : m.Reachable) (team : TeamId) (parent : Option TeamId) :
    (m.setTeamParent team parent).Reachable := by
  obtain ⟨running, hsteps⟩ := h
  exact ⟨running, hsteps.tail (.setTeamParent _ team parent)⟩

theorem createPeriod (h : m.Reachable) (name : String) (startDate endDate : Date) :
    (m.createPeriod name startDate endDate).2.Reachable := by
  obtain ⟨running, hsteps⟩ := h
  exact ⟨running, hsteps.tail (.createPeriod _ name startDate endDate)⟩

/-- What looking after teams and every call keep is kept by whatever happens next. -/
theorem of_step {P : Memory → Prop}
    (addTeam : ∀ m name type parent, P m → P (m.addTeam name type parent).2)
    (setTeamParent : ∀ m team parent, P m → P (m.setTeamParent team parent))
    (carry : ∀ m c, P m → P (Memory.carry c m).2) {s s' : System} (hs : System.Step s s')
    (h : P s.store) : P s'.store := by
  rcases hs.store_cases with ⟨name, type, parent, hstore⟩ | ⟨team, parent, hstore⟩ | hstore |
    ⟨c, hstore⟩
  · exact hstore ▸ addTeam s.store name type parent h
  · exact hstore ▸ setTeamParent s.store team parent h
  · exact hstore ▸ h
  · exact hstore ▸ carry s.store c h

/-- What holds of the store without records and is kept by looking after teams and by every call
holds of every store that can come about. -/
theorem induction {P : Memory → Prop} (h : m.Reachable) (empty : P Memory.empty)
    (addTeam : ∀ m name type parent, P m → P (m.addTeam name type parent).2)
    (setTeamParent : ∀ m team parent, P m → P (m.setTeamParent team parent))
    (carry : ∀ m c, P m → P (Memory.carry c m).2) : P m := by
  obtain ⟨running, hsteps⟩ := h
  have hall : ∀ s, Relation.ReflTransGen System.Step ⟨Memory.empty, []⟩ s → P s.store := by
    intro s hs
    induction hs with
    | refl => exact empty
    | tail _ hstep ih => exact of_step addTeam setTeamParent carry hstep ih
  exact hall _ hsteps

/-- A running command can be carried through without interference. -/
theorem steps_run {c : Command} (p : Program c.Outcome)
    (before : List ((c : Command) × Program c.Outcome)) (m : Memory) :
    ∃ running, Relation.ReflTransGen System.Step ⟨m, before ++ [⟨c, p⟩]⟩
      ⟨(p.run Memory.carry m).2, running⟩ := by
  -- A call is one step of the last of the running commands.
  obtain ⟨q, hsteps⟩ := Program.exists_steps_run Memory.carry
    (fun p m => (⟨m, before ++ [⟨c, p⟩]⟩ : System)) (fun p m => System.Step.advance m before [] c p)
    p m
  exact ⟨_, hsteps⟩

/-- A command that is carried out without interference. -/
theorem run (h : m.Reachable) (c : Command) : (c.program.run Memory.carry m).2.Reachable := by
  obtain ⟨running, hsteps⟩ := h
  obtain ⟨running', hrest⟩ := steps_run c.program running m
  exact ⟨running', (hsteps.tail (.submit _ c)).trans hrest⟩

end Reachable

end Memory

end Objectives

import Mathlib.Order.Bounds.Basic
import Mathlib.Order.CompleteBooleanAlgebra
import Mathlib.Order.CompletePartialOrder
import Newide.Foundation.Collation
import Newide.Foundation.Gathering

/-!
# Usage of driver sessions

`src/app/driver-usage-projector.ts`: observations of the usage of driver
sessions are folded into one entry a session, and the views of two sources
are merged by the same fold.  Amounts are any ordered numbers of which `⊥`
is 0, with an addition that may round; times are texts, of which `⊥` is
the empty one.

The order in which observations arrive does not matter, except that the
sessions are sorted by `localeCompare`: two session ids that it calls
equal stand in the order of their arrival.
-/

namespace Newide.Usage

open Record Collation

universe u v

variable {ν : Type u} {τ : Type v}

/-! ## Observations and views -/

structure DriverUsageCost (ν : Type u) where
  amount : ν
  currency : String

@[ext]
structure DriverSessionUsage (ν : Type u) where
  sessionId : String
  roleId : Option String
  contextTokensUsed : ν
  contextWindowSize : Option ν
  reportedCost : Option (DriverUsageCost ν)
  complete : Bool

inductive DriverUsageSource where
  | driverStreamUsageUpdate | unavailable

structure TaskDriverUsage (ν : Type u) where
  available : Bool
  source : DriverUsageSource
  contextTokensUsed : ν
  reportedCosts : List (DriverUsageCost ν)
  sessions : List (DriverSessionUsage ν)
  complete : Bool

structure MutableSessionUsage (ν : Type u) (τ : Type v) extends DriverSessionUsage ν where
  costObservedAt : Option τ

open MutableSessionUsage

/-- An observation as its readers make it: a role is not empty, and a cost has a time. -/
structure DriverUsageObservation (ν : Type u) (τ : Type v) extends MutableSessionUsage ν τ where
  role : roleId ≠ some ""
  timed : costObservedAt.isSome = reportedCost.isSome

section
variable [LinearOrder ν] [OrderBot ν] [LinearOrder τ] [OrderBot τ]

/-! ## Folding -/

def Replaces (current observation : MutableSessionUsage ν τ) : Prop :=
  observation.reportedCost.isSome ∧ (current.costObservedAt.getD ⊥ = ⊥ ∨
    current.costObservedAt.getD ⊥ ≤ observation.costObservedAt.getD ⊥)

instance (current observation : MutableSessionUsage ν τ) :
    Decidable (Replaces current observation) :=
  inferInstanceAs (Decidable (_ ∧ _))

def addObservation (current observation : MutableSessionUsage ν τ) : MutableSessionUsage ν τ where
  sessionId := current.sessionId
  contextTokensUsed := max current.contextTokensUsed observation.contextTokensUsed
  contextWindowSize :=
    match observation.contextWindowSize with
    | some size => some (max (current.contextWindowSize.getD ⊥) size)
    | none => current.contextWindowSize
  roleId :=
    if current.roleId.getD "" = "" ∧ observation.roleId.getD "" ≠ "" then observation.roleId
    else current.roleId
  reportedCost :=
    if Replaces current observation then observation.reportedCost else current.reportedCost
  costObservedAt :=
    if Replaces current observation then some (observation.costObservedAt.getD ⊥)
    else current.costObservedAt
  complete := current.complete || observation.complete

def foldUsageObservation (sessions : Record String (MutableSessionUsage ν τ))
    (observation : MutableSessionUsage ν τ) : Record String (MutableSessionUsage ν τ) :=
  match get observation.sessionId sessions with
  | none => set sessions observation.sessionId observation
  | some current => set sessions observation.sessionId (addObservation current observation)

variable [Add ν]

def finalizeUsageSessions (localeCompare : String → String → Ordering)
    (sessions : Record String (MutableSessionUsage ν τ)) : TaskDriverUsage ν :=
  let projectedSessions := sortOn localeCompare DriverSessionUsage.sessionId
    (sessions.map fun entry => entry.2.toDriverSessionUsage)
  let costByCurrency := projectedSessions.foldl
    (fun costs session =>
      match session.reportedCost with
      | none => costs
      | some cost =>
          set costs cost.currency ((get cost.currency costs).getD ⊥ + cost.amount))
    ([] : Record String ν)
  { available := projectedSessions.length > 0
    source := if projectedSessions.length > 0 then .driverStreamUsageUpdate else .unavailable
    contextTokensUsed :=
      projectedSessions.foldl (fun total session => total + session.contextTokensUsed) ⊥
    reportedCosts := sortOn localeCompare DriverUsageCost.currency
      (costByCurrency.map fun entry => { amount := entry.2, currency := entry.1 })
    sessions := projectedSessions
    complete := projectedSessions.length > 0 && projectedSessions.all (·.complete) }

/-- The observations of one source, folded as they come. -/
def projectDriverUsage (localeCompare : String → String → Ordering)
    (observations : List (DriverUsageObservation ν τ)) : TaskDriverUsage ν :=
  finalizeUsageSessions localeCompare
    (observations.foldl (fun sessions o => foldUsageObservation sessions o.toMutableSessionUsage) [])

/-- A session of a view as an observation; it has no time. -/
def observationOfSession (session : DriverSessionUsage ν) : MutableSessionUsage ν τ :=
  { session with
    roleId := session.roleId.filter (· ≠ "")
    costObservedAt := none }

variable (τ) in
def mergeTaskDriverUsage (localeCompare : String → String → Ordering)
    (fileScanned : TaskDriverUsage ν) (accumulated : Option (TaskDriverUsage ν)) :
    TaskDriverUsage ν :=
  let sources := [some fileScanned, accumulated].reduceOption.filter (·.available)
  finalizeUsageSessions localeCompare
    ((sources.flatMap (·.sessions)).foldl
      (fun sessions session => foldUsageObservation sessions (observationOfSession session))
      ([] : Record String (MutableSessionUsage ν τ)))

end

/-! ## What an entry says of the observations -/

def MutableSessionUsage.timedCost (usage : MutableSessionUsage ν τ) :
    Option (DriverUsageCost ν × τ) :=
  usage.reportedCost.bind fun cost => usage.costObservedAt.map fun time => (cost, time)

theorem timedCost_eq_none {usage : MutableSessionUsage ν τ}
    (h : usage.costObservedAt.isSome = usage.reportedCost.isSome) (hnone : usage.timedCost = none) : usage.reportedCost = none ∧ usage.costObservedAt = none := by
  unfold timedCost at hnone
  cases hcost : usage.reportedCost with
  | none =>
      rw [hcost] at h
      exact ⟨rfl, Option.isNone_iff_eq_none.mp (Option.isSome_eq_false_iff.mp h)⟩
  | some cost =>
      rw [hcost, Option.isSome_some, Option.isSome_iff_exists] at h
      obtain ⟨time, htime⟩ := h
      rw [hcost, htime] at hnone
      cases hnone

theorem timedCost_eq_some {usage : MutableSessionUsage ν τ} {cost : DriverUsageCost ν}
    {time : τ} : usage.timedCost = some (cost, time) ↔
      usage.reportedCost = some cost ∧ usage.costObservedAt = some time := by
  unfold timedCost
  constructor
  · intro h
    obtain ⟨found, hfound, hmap⟩ := Option.bind_eq_some_iff.mp h
    obtain ⟨at', hat, heq⟩ := Option.map_eq_some_iff.mp hmap
    cases heq
    exact ⟨hfound, hat⟩
  · rintro ⟨hcost, htime⟩
    rw [hcost, htime]
    rfl

section
variable [LinearOrder ν] [LinearOrder τ]

/-- The greatest amounts, the latest cost, the role, and whether one observation is complete. -/
structure Summarizes (S : Set (DriverUsageObservation ν τ)) (usage : MutableSessionUsage ν τ) :
    Prop where
  sessionId : ∀ o ∈ S, o.sessionId = usage.sessionId
  tokens : IsGreatest ((fun o : DriverUsageObservation ν τ => o.contextTokensUsed) '' S)
    usage.contextTokensUsed
  size : Leads id ((fun o : DriverUsageObservation ν τ => o.contextWindowSize) '' S)
    usage.contextWindowSize
  role : Leads (fun _ => ()) ((fun o : DriverUsageObservation ν τ => o.roleId) '' S) usage.roleId
  cost : Leads Prod.snd ((fun o : DriverUsageObservation ν τ => o.timedCost) '' S) usage.timedCost
  timed : usage.costObservedAt.isSome = usage.reportedCost.isSome
  complete : usage.complete = true ↔ ∃ o ∈ S, o.complete = true

/-- All that give a role to a session give it the same. -/
def RolesAgree (observations : List (DriverUsageObservation ν τ)) : Prop :=
  ∀ o ∈ observations, ∀ o' ∈ observations, o.sessionId = o'.sessionId →
    ∀ role role', o.roleId = some role → o'.roleId = some role' → role = role'

/-- No time is that of two costs. -/
def CostTimesDistinct (observations : List (DriverUsageObservation ν τ)) : Prop :=
  ∀ o ∈ observations, ∀ o' ∈ observations, ∀ cost cost', o.timedCost = some cost →
    o'.timedCost = some cost' → cost.2 = cost'.2 → cost = cost'

variable {S : Set (DriverUsageObservation ν τ)} {o : DriverUsageObservation ν τ}
  {usage other : MutableSessionUsage ν τ} {observations : List (DriverUsageObservation ν τ)}
  {k : String}

theorem summarizes_single (o : DriverUsageObservation ν τ) :
    Summarizes {o} o.toMutableSessionUsage where
  sessionId _ h := congrArg (fun o : DriverUsageObservation ν τ => o.sessionId) h
  tokens := by
    rw [Set.image_singleton]
    exact isGreatest_singleton
  size := by
    rw [Set.image_singleton]
    exact .single _
  role := by
    rw [Set.image_singleton]
    exact .single _
  cost := by
    rw [Set.image_singleton]
    exact .single _
  timed := o.timed
  complete := by simp

theorem Summarizes.unique (hroles : RolesAgree observations)
    (htimes : CostTimesDistinct observations)
    (h : Summarizes (ofKey (fun o => o.sessionId) k observations) usage)
    (h' : Summarizes (ofKey (fun o => o.sessionId) k observations) other) : usage = other := by
  have hsession : usage.sessionId = other.sessionId := by
    obtain ⟨o, ho, _⟩ := h.tokens.1
    exact (h.sessionId o ho).symm.trans (h'.sessionId o ho)
  have htokens := h.tokens.unique h'.tokens
  have hsize := h.size.unique h'.size fun _ _ _ _ heq => heq
  have hrole := h.role.unique h'.role fun role role' hin hin' _ => by
    obtain ⟨o, ⟨ho, hkey⟩, hrole⟩ := hin
    obtain ⟨o', ⟨ho', hkey'⟩, hrole'⟩ := hin'
    exact hroles o ho o' ho' (hkey.trans hkey'.symm) role role' hrole hrole'
  have hcost := h.cost.unique h'.cost fun cost cost' hin hin' htime => by
    obtain ⟨o, ⟨ho, _⟩, hcost⟩ := hin
    obtain ⟨o', ⟨ho', _⟩, hcost'⟩ := hin'
    exact htimes o ho o' ho' cost cost' hcost hcost' htime
  have hcomplete : usage.complete = other.complete :=
    Bool.eq_iff_iff.mpr (h.complete.trans h'.complete.symm)
  have hboth : usage.reportedCost = other.reportedCost ∧
      usage.costObservedAt = other.costObservedAt := by
    cases hlead : usage.timedCost with
    | none =>
        obtain ⟨hnone, hnotime⟩ := timedCost_eq_none h.timed hlead
        obtain ⟨hnone', hnotime'⟩ := timedCost_eq_none h'.timed (hcost ▸ hlead)
        exact ⟨hnone.trans hnone'.symm, hnotime.trans hnotime'.symm⟩
    | some lead =>
        obtain ⟨hsome, htime⟩ := timedCost_eq_some.mp hlead
        obtain ⟨hsome', htime'⟩ := timedCost_eq_some.mp (hcost ▸ hlead)
        exact ⟨hsome.trans hsome'.symm, htime.trans htime'.symm⟩
  obtain ⟨⟨_, _, _, _, _, _⟩, _⟩ := usage
  obtain ⟨⟨_, _, _, _, _, _⟩, _⟩ := other
  simp only at hsession htokens hsize hrole hcomplete hboth
  simp only [hsession, htokens, hsize, hrole, hcomplete, hboth]

variable [OrderBot ν] [OrderBot τ]

theorem addObservation_size (current observation : MutableSessionUsage ν τ)
    {S : Set (Option ν)} (h : Leads id S current.contextWindowSize) :
    Leads id (insert observation.contextWindowSize S)
      (addObservation current observation).contextWindowSize := by
  unfold addObservation
  cases hsize : observation.contextWindowSize with
  | none => exact h.keep nofun
  | some size =>
      cases hcurrent : current.contextWindowSize with
      | none =>
          rw [hcurrent] at h
          simp only [Option.getD_none, bot_le, sup_of_le_right]
          exact h.take nofun
      | some before =>
          rw [hcurrent] at h
          simp only [Option.getD_some]
          rcases le_total size before with hle | hle
          · rw [max_eq_left hle]
            refine h.keep fun c hc => ⟨before, rfl, ?_⟩
            cases hc
            exact hle
          · rw [max_eq_right hle]
            refine h.take fun c hc => ?_
            cases hc
            exact hle

theorem addObservation_role (current observation : MutableSessionUsage ν τ)
    {S : Set (Option String)} (hcurrent : current.roleId ≠ some "")
    (hobservation : observation.roleId ≠ some "") (h : Leads (fun _ => ()) S current.roleId) :
    Leads (fun _ => ()) (insert observation.roleId S)
      (addObservation current observation).roleId := by
  unfold addObservation
  dsimp only
  cases hrole : current.roleId with
  | none =>
      rw [hrole] at h
      cases hnew : observation.roleId with
      | none =>
          rw [if_neg fun hboth => hboth.2 rfl]
          exact h.keep fun _ hc => by cases hc
      | some role =>
          rw [if_pos ⟨rfl, fun hempty => hobservation (hnew.trans (congrArg some hempty))⟩]
          exact h.take fun _ hc => by cases hc
  | some role =>
      rw [hrole] at h
      rw [if_neg fun hboth => hcurrent (hrole.trans (congrArg some hboth.1))]
      exact h.keep fun _ _ => ⟨role, rfl, le_rfl⟩

theorem addObservation_cost (current observation : MutableSessionUsage ν τ)
    {S : Set (Option (DriverUsageCost ν × τ))}
    (htimed : current.costObservedAt.isSome = current.reportedCost.isSome)
    (hobserved : observation.costObservedAt.isSome = observation.reportedCost.isSome)
    (h : Leads Prod.snd S current.timedCost) :
    Leads Prod.snd (insert observation.timedCost S)
        (addObservation current observation).timedCost ∧
      (addObservation current observation).costObservedAt.isSome =
        (addObservation current observation).reportedCost.isSome := by
  cases hnew : observation.timedCost with
  | none =>
      obtain ⟨hcost, _⟩ := timedCost_eq_none hobserved hnew
      have hkept : ¬ Replaces current observation := fun hreplaces => by
        rw [Replaces, hcost] at hreplaces
        cases hreplaces.1
      have hsame : (addObservation current observation).timedCost = current.timedCost := by
        simp only [timedCost, addObservation, if_neg hkept]
      refine ⟨hsame ▸ h.keep (fun _ hc => by cases hc), ?_⟩
      simpa only [addObservation, if_neg hkept] using htimed
  | some lead =>
      obtain ⟨hcost, htime⟩ := timedCost_eq_some.mp hnew
      by_cases hreplaces : Replaces current observation
      · have hlead : (addObservation current observation).timedCost = some lead := by
          refine timedCost_eq_some.mpr ⟨?_, ?_⟩
          · simp only [addObservation, if_pos hreplaces, hcost]
          · simp only [addObservation, if_pos hreplaces, htime, Option.getD_some]
        refine ⟨hlead ▸ h.take fun before hbefore => ?_, ?_⟩
        · obtain ⟨_, hat⟩ := timedCost_eq_some.mp hbefore
          rcases hreplaces.2 with hbot | hle
          · rw [hat, Option.getD_some] at hbot
            exact hbot ▸ bot_le
          · rwa [hat, htime] at hle
        · simp only [addObservation, if_pos hreplaces, hcost, Option.isSome_some]
      · have hsame : (addObservation current observation).timedCost = current.timedCost := by
          simp only [timedCost, addObservation, if_neg hreplaces]
        refine ⟨hsame ▸ h.keep fun c hc => ?_, ?_⟩
        · cases hc
          have hlate : ¬ (current.costObservedAt.getD ⊥ = ⊥ ∨
              current.costObservedAt.getD ⊥ ≤ observation.costObservedAt.getD ⊥) :=
            fun hlate => hreplaces ⟨hcost ▸ rfl, hlate⟩
          obtain ⟨hsome, hbehind⟩ := not_or.mp hlate
          cases hbefore : current.timedCost with
          | none =>
              rw [(timedCost_eq_none htimed hbefore).2] at hsome
              exact absurd rfl hsome
          | some before =>
              rw [(timedCost_eq_some.mp hbefore).2, htime] at hbehind
              exact ⟨before, rfl, (not_le.mp hbehind).le⟩
        · simpa only [addObservation, if_neg hreplaces] using htimed

theorem Summarizes.add (h : Summarizes S usage) (hsome : S.Nonempty)
    (hsame : ∀ x ∈ S, x.sessionId = o.sessionId) :
    Summarizes (insert o S) (addObservation usage o.toMutableSessionUsage) := by
  have hid : o.sessionId = usage.sessionId := by
    obtain ⟨x, hx⟩ := hsome
    exact (hsame x hx).symm.trans (h.sessionId x hx)
  have hrole : usage.roleId ≠ some "" := fun hempty => by
    have hlead := h.role
    rw [hempty] at hlead
    obtain ⟨x, _, hx⟩ := hlead.1
    exact x.role hx
  obtain ⟨hcost, htimed⟩ :=
    addObservation_cost usage o.toMutableSessionUsage h.timed o.timed h.cost
  refine
    { sessionId := ?_
      tokens := ?_
      size := ?_
      role := ?_
      cost := ?_
      timed := htimed
      complete := ?_ }
  · rintro x (rfl | hx)
    · exact hid
    · exact h.sessionId x hx
  · have htokens := h.tokens.insert o.contextTokensUsed
    rw [max_comm] at htokens
    rw [Set.image_insert_eq]
    exact htokens
  · rw [Set.image_insert_eq]
    exact addObservation_size usage o.toMutableSessionUsage h.size
  · rw [Set.image_insert_eq]
    exact addObservation_role usage o.toMutableSessionUsage hrole o.role h.role
  · rw [Set.image_insert_eq]
    exact hcost
  · have hor : (addObservation usage o.toMutableSessionUsage).complete =
        (usage.complete || o.complete) := rfl
    rw [hor, Bool.or_eq_true, h.complete]
    simp only [Set.mem_insert_iff, exists_eq_or_imp]
    exact or_comm

end

end Newide.Usage

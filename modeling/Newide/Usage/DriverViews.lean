import Mathlib.Order.Nat
import Newide.Usage.DriverSessions

/-!
# Views of driver sessions

What is folded depends on which observations there are, not on their
order or number, and a view of some of them is absorbed by a view of all.
-/

namespace Newide.Usage

open Record Collation

universe u v

variable {ν : Type u} {τ : Type v}

section
variable [LinearOrder ν] [OrderBot ν] [LinearOrder τ] [OrderBot τ]
  {observations : List (DriverUsageObservation ν τ)} {o : DriverUsageObservation ν τ} {k : String}

/-! ## Views -/

def sessionsOf (observations : List (DriverUsageObservation ν τ)) :
    Record String (MutableSessionUsage ν τ) :=
  gather (fun o => o.sessionId) (fun o => o.toMutableSessionUsage)
    (fun current o => addObservation current o.toMutableSessionUsage) observations

theorem foldUsageObservation_sessionsOf (observations : List (DriverUsageObservation ν τ)) :
    observations.foldl (fun sessions o => foldUsageObservation sessions o.toMutableSessionUsage) [] =
      sessionsOf observations := by
  unfold sessionsOf gather
  congr 1
  funext sessions o
  unfold foldUsageObservation gatherInto
  cases get o.sessionId sessions with
  | none => rfl
  | some current => rfl

theorem sessionsOf_spec (observations : List (DriverUsageObservation ν τ)) (k : String) :
    (get k (sessionsOf observations) = none → ofKey (fun o => o.sessionId) k observations = ∅) ∧
      ∀ usage, get k (sessionsOf observations) = some usage →
        (ofKey (fun o => o.sessionId) k observations).Nonempty ∧
          Summarizes (ofKey (fun o => o.sessionId) k observations) usage :=
  gather_spec summarizes_single fun _ _ _ hsome hsame h => h.add hsome hsame

variable {usage : MutableSessionUsage ν τ}

theorem sessionsOf_id (h : get k (sessionsOf observations) = some usage) : usage.sessionId = k := by
  obtain ⟨⟨o, ho⟩, hsummary⟩ := (sessionsOf_spec observations k).2 usage h
  exact (hsummary.sessionId o ho).symm.trans ho.2

theorem get_sessionsOf (ho : o ∈ observations) :
    ∃ usage, get o.sessionId (sessionsOf observations) = some usage := by
  cases hget : get o.sessionId (sessionsOf observations) with
  | some usage => exact ⟨usage, rfl⟩
  | none =>
      have hin : o ∈ ofKey (fun o => o.sessionId) o.sessionId observations := ⟨ho, rfl⟩
      rw [(sessionsOf_spec observations o.sessionId).1 hget] at hin
      exact absurd hin (Set.notMem_empty o)

theorem sessionsOf_perm {folded : List (DriverUsageObservation ν τ)}
    (hroles : RolesAgree observations) (htimes : CostTimesDistinct observations)
    (hsame : ∀ o, o ∈ observations ↔ o ∈ folded) :
    (sessionsOf observations).Perm (sessionsOf folded) :=
  distinct_gather.perm_of_get distinct_gather fun _ =>
    get_gather_congr summarizes_single (fun _ _ _ hsome hsameKey h => h.add hsome hsameKey)
      (fun _ _ h h' => h.unique hroles htimes h') hsame

def projected (sessions : Record String (MutableSessionUsage ν τ)) :
    List (DriverSessionUsage ν) :=
  sessions.map fun entry => entry.2.toDriverSessionUsage

theorem projected_ids : (projected (sessionsOf observations)).map (·.sessionId) =
    (sessionsOf observations).map Prod.fst := by
  rw [projected, List.map_map]
  refine List.map_congr_left fun entry hentry => ?_
  have hdistinct : Distinct (sessionsOf observations) := distinct_gather
  exact sessionsOf_id (hdistinct.get_of_mem hentry)

theorem sessionsOf_role (h : get k (sessionsOf observations) = some usage) :
    usage.roleId ≠ some "" := fun hempty => by
  have hlead := ((sessionsOf_spec observations k).2 usage h).2.role
  rw [hempty] at hlead
  obtain ⟨o, _, ho⟩ := hlead.1
  exact o.role ho

end

theorem finalize_congr [LinearOrder ν] [OrderBot ν] [Add ν]
    {localeCompare : String → String → Ordering} [Std.TransCmp localeCompare]
    {sessions sessions' : Record String (MutableSessionUsage ν τ)}
    (hapart : Apart localeCompare DriverSessionUsage.sessionId (projected sessions))
    (hperm : (projected sessions).Perm (projected sessions')) :
    finalizeUsageSessions localeCompare sessions =
      finalizeUsageSessions localeCompare sessions' := by
  have hsorted := sortOn_congr hapart hperm
  unfold projected at hsorted
  unfold finalizeUsageSessions
  rw [hsorted]

/-! ## A part and the whole -/

section
variable [LinearOrder ν] [LinearOrder τ] {usage other : MutableSessionUsage ν τ}
  {observations : List (DriverUsageObservation ν τ)} {k : String}

/-- What an entry of some of the observations says is less than what one of all says. -/
structure Within (part whole : DriverSessionUsage ν) : Prop where
  sessionId : part.sessionId = whole.sessionId
  tokens : part.contextTokensUsed ≤ whole.contextTokensUsed
  size : ∀ n, part.contextWindowSize = some n → ∃ m, whole.contextWindowSize = some m ∧ n ≤ m
  role : ∀ role, part.roleId = some role → whole.roleId = some role
  cost : part.reportedCost.isSome → whole.reportedCost.isSome
  complete : part.complete = true → whole.complete = true

theorem Summarizes.within {part : List (DriverUsageObservation ν τ)}
    (h : Summarizes (ofKey (fun o => o.sessionId) k part) usage)
    (h' : Summarizes (ofKey (fun o => o.sessionId) k observations) other)
    (hroles : RolesAgree observations) (hpart : part ⊆ observations) :
    Within usage.toDriverSessionUsage other.toDriverSessionUsage := by
  have hsub : ofKey (fun o : DriverUsageObservation ν τ => o.sessionId) k part ⊆
      ofKey (fun o => o.sessionId) k observations := fun o ho => ⟨hpart ho.1, ho.2⟩
  refine
    { sessionId := ?_
      tokens := ?_
      size := fun n hn => ?_
      role := fun role hrole => ?_
      cost := fun hcost => ?_
      complete := fun hcomplete => ?_ }
  · obtain ⟨o, ho, _⟩ := h.tokens.1
    exact (h.sessionId o ho).symm.trans (h'.sessionId o (hsub ho))
  · exact h'.tokens.2 (Set.image_mono hsub h.tokens.1)
  · have hlead := h.size
    rw [hn] at hlead
    exact hlead.mono h'.size (Set.image_mono hsub)
  · have hlead := h.role
    rw [hrole] at hlead
    obtain ⟨role', hrole', _⟩ := hlead.mono h'.role (Set.image_mono hsub)
    have hlead' := h'.role
    rw [hrole'] at hlead'
    obtain ⟨o, ho, hgives⟩ := hlead.1
    obtain ⟨o', ho', hgives'⟩ := hlead'.1
    rw [hrole', hroles o (hsub ho).1 o' ho'.1 ((hsub ho).2.trans ho'.2.symm) role role' hgives hgives']
  · obtain ⟨cost, hcost⟩ := Option.isSome_iff_exists.mp hcost
    obtain ⟨time, htime⟩ := Option.isSome_iff_exists.mp (h.timed.trans (hcost ▸ rfl))
    have hlead := h.cost
    rw [timedCost_eq_some.mpr ⟨hcost, htime⟩] at hlead
    obtain ⟨lead, hlead', _⟩ := hlead.mono h'.cost (Set.image_mono hsub)
    exact Option.isSome_iff_exists.mpr ⟨lead.1, (timedCost_eq_some.mp hlead').1⟩
  · obtain ⟨o, ho, hdone⟩ := h.complete.mp hcomplete
    exact h'.complete.mpr ⟨o, hsub ho, hdone⟩

end

variable {session : DriverSessionUsage ν}

theorem observationOfSession_session (hrole : session.roleId ≠ some "") :
    (observationOfSession session : MutableSessionUsage ν τ).toDriverSessionUsage = session := by
  obtain ⟨_, role, _, _, _, _⟩ := session
  cases role with
  | none => rfl
  | some role =>
      have hne : role ≠ "" := fun heq => hrole (congrArg some heq)
      simp [observationOfSession, hne]

variable {view : List (DriverSessionUsage ν)}

section
variable [LinearOrder ν] [OrderBot ν] [LinearOrder τ] [OrderBot τ]

theorem Within.absorbed {part whole : DriverSessionUsage ν} (h : Within part whole)
    (hpart : part.roleId ≠ some "") (hwhole : whole.roleId ≠ some "") :
    (addObservation (observationOfSession part) (observationOfSession whole) :
      MutableSessionUsage ν τ).toDriverSessionUsage = whole := by
  have hpartRole : (observationOfSession part : MutableSessionUsage ν τ).roleId = part.roleId :=
    congrArg DriverSessionUsage.roleId (observationOfSession_session hpart)
  have hwholeRole : (observationOfSession whole : MutableSessionUsage ν τ).roleId = whole.roleId :=
    congrArg DriverSessionUsage.roleId (observationOfSession_session hwhole)
  refine DriverSessionUsage.ext h.sessionId ?_ (max_eq_right h.tokens) ?_ ?_ ?_
  · simp only [addObservation, hpartRole, hwholeRole]
    split
    · rfl
    · next hnot =>
        cases hgiven : part.roleId with
        | some role => exact (h.role role hgiven).symm
        | none =>
            cases hother : whole.roleId with
            | none => rfl
            | some role =>
                rw [hgiven, hother] at hnot
                exact absurd ⟨rfl, fun hempty => hwhole (hother.trans (congrArg some hempty))⟩ hnot
  · simp only [addObservation, observationOfSession]
    cases hpartSize : part.contextWindowSize with
    | none =>
        cases whole.contextWindowSize with
        | none => rfl
        | some size => exact congrArg some (max_eq_right bot_le)
    | some size =>
        obtain ⟨greatest, hsome, hle⟩ := h.size size hpartSize
        rw [hsome]
        exact congrArg some (max_eq_right hle)
  · -- A view has no times, so that the cost that comes later is taken.
    simp only [addObservation]
    split
    · rfl
    · next hnot =>
        have hnone : whole.reportedCost = none :=
          Option.not_isSome_iff_eq_none.mp fun hsome => hnot ⟨hsome, .inl rfl⟩
        refine (Option.not_isSome_iff_eq_none.mp fun hsome => ?_).trans hnone.symm
        have hboth := h.cost hsome
        rw [hnone] at hboth
        cases hboth
  · cases hcomplete : part.complete with
    | false => simp [addObservation, observationOfSession, hcomplete]
    | true => simp [addObservation, observationOfSession, hcomplete, h.complete hcomplete]

/-! ## Merging -/

def mergeSessions (sessions : Record String (MutableSessionUsage ν τ))
    (view : List (DriverSessionUsage ν)) : Record String (MutableSessionUsage ν τ) :=
  view.foldl (gatherInto (·.sessionId) observationOfSession
    fun current session => addObservation current (observationOfSession session)) sessions

theorem foldUsageObservation_mergeSessions (sessions : Record String (MutableSessionUsage ν τ))
    (view : List (DriverSessionUsage ν)) :
    view.foldl (fun sessions session => foldUsageObservation sessions (observationOfSession session))
      sessions = mergeSessions sessions view := by
  unfold mergeSessions
  congr 1
  funext sessions session
  unfold foldUsageObservation gatherInto
  have hid : (observationOfSession session : MutableSessionUsage ν τ).sessionId =
      session.sessionId := rfl
  rw [hid]
  cases get session.sessionId sessions with
  | none => rfl
  | some current => rfl

variable {sessions : Record String (MutableSessionUsage ν τ)}

theorem distinct_mergeSessions (h : Distinct sessions) (view : List (DriverSessionUsage ν)) :
    Distinct (mergeSessions sessions view) :=
  List.foldlRecOn view _ h fun _ h session _ => h.gatherInto session

theorem get_mergeSessions (h : Distinct sessions) (hids : (view.map (·.sessionId)).Nodup)
    (hin : session ∈ view) :
    get session.sessionId (mergeSessions sessions view) =
      some ((get session.sessionId sessions).elim (observationOfSession session) fun current =>
        addObservation current (observationOfSession session)) :=
  get_foldl_gatherInto_of_mem h hids hin

theorem get_mergeSessions_of_not_mem {k : String} (h : Distinct sessions)
    (hnot : ∀ session ∈ view, session.sessionId ≠ k) :
    get k (mergeSessions sessions view) = get k sessions :=
  get_foldl_gatherInto_of_not_mem h hnot

variable {observations part : List (DriverUsageObservation ν τ)}

theorem mem_projected :
    session ∈ projected (sessionsOf observations) ↔
      ∃ usage, get session.sessionId (sessionsOf observations) = some usage ∧
        usage.toDriverSessionUsage = session := by
  constructor
  · intro h
    obtain ⟨entry, hentry, rfl⟩ := List.mem_map.mp h
    have hdistinct : Distinct (sessionsOf observations) := distinct_gather
    have hget := hdistinct.get_of_mem hentry
    exact ⟨entry.2, sessionsOf_id hget ▸ hget, rfl⟩
  · rintro ⟨usage, hget, rfl⟩
    exact List.mem_map.mpr ⟨_, get_eq_some_mem hget, rfl⟩

theorem nodup_projected : ((projected (sessionsOf observations)).map (·.sessionId)).Nodup := by
  rw [projected_ids]
  exact distinct_gather

/-- The sessions of a part, then those of the whole, in any order: those of the whole. -/
theorem mergeSessions_part (hroles : RolesAgree observations) (hpart : part ⊆ observations)
    {first second : List (DriverSessionUsage ν)}
    (hfirst : first.Perm (projected (sessionsOf part)))
    (hsecond : second.Perm (projected (sessionsOf observations))) :
    (projected (mergeSessions (mergeSessions [] first) second : Record String
      (MutableSessionUsage ν τ))).Perm (projected (sessionsOf observations)) := by
  have hempty : Distinct ([] : Record String (MutableSessionUsage ν τ)) := List.nodup_nil
  have hdistinct := distinct_mergeSessions hempty first
  have hids : (first.map (·.sessionId)).Nodup := (hfirst.map _).nodup_iff.mpr nodup_projected
  have hids' : (second.map (·.sessionId)).Nodup := (hsecond.map _).nodup_iff.mpr nodup_projected
  have hsub (session : DriverSessionUsage ν) (hsession : session ∈ first) :
      session.roleId ≠ some "" ∧ ∃ whole ∈ second, Within session whole := by
    obtain ⟨usage, hget, rfl⟩ := mem_projected.mp (hfirst.mem_iff.mp hsession)
    obtain ⟨⟨o, ho, hid⟩, hsummary⟩ := (sessionsOf_spec part _).2 usage hget
    obtain ⟨whole, hwhole⟩ := get_sessionsOf (hpart ho)
    have hwhole : get usage.sessionId (sessionsOf observations) = some whole := hid ▸ hwhole
    have hwithin := hsummary.within ((sessionsOf_spec observations _).2 whole hwhole).2 hroles hpart
    exact ⟨sessionsOf_role hget, whole.toDriverSessionUsage, hsecond.mem_iff.mpr
      (mem_projected.mpr ⟨whole, hwithin.sessionId ▸ hwhole, rfl⟩), hwithin⟩
  have hmerged (k : String) :
      get k (mapValues (fun _ (usage : MutableSessionUsage ν τ) => usage.toDriverSessionUsage)
        (mergeSessions (mergeSessions [] first) second)) =
      get k (mapValues (fun _ usage => usage.toDriverSessionUsage) (sessionsOf observations)) := by
    rw [get_mapValues, get_mapValues]
    cases hget : get k (sessionsOf observations) with
    | none =>
        have hnot (session : DriverSessionUsage ν) (hsession : session ∈ second) :
            session.sessionId ≠ k := fun hk => by
          obtain ⟨usage, hsome, _⟩ := mem_projected.mp (hsecond.mem_iff.mp hsession)
          rw [hk, hget] at hsome
          cases hsome
        have hnot' (session : DriverSessionUsage ν) (hsession : session ∈ first) :
            session.sessionId ≠ k := by
          obtain ⟨_, whole, hwhole, hwithin⟩ := hsub session hsession
          exact hwithin.sessionId ▸ hnot whole hwhole
        rw [get_mergeSessions_of_not_mem hdistinct hnot, get_mergeSessions_of_not_mem hempty hnot']
        rfl
    | some usage =>
        have hid := sessionsOf_id hget
        have hrole := sessionsOf_role hget
        have hin : usage.toDriverSessionUsage ∈ second :=
          hsecond.mem_iff.mpr (mem_projected.mpr ⟨usage, hid ▸ hget, rfl⟩)
        have hlast := get_mergeSessions hdistinct hids' hin
        rw [hid] at hlast
        rw [hlast, Option.map_some, Option.map_some]
        by_cases hbefore : ∃ session ∈ first, session.sessionId = k
        · obtain ⟨session, hsession, hk⟩ := hbefore
          obtain ⟨hrole', whole, hwhole, hwithin⟩ := hsub session hsession
          have hsame : whole = usage.toDriverSessionUsage :=
            List.inj_on_of_nodup_map hids' hwhole hin
              (hwithin.sessionId.symm.trans (hk.trans hid.symm))
          have hbroken := get_mergeSessions hempty hids hsession
          rw [hk] at hbroken
          rw [hbroken]
          exact congrArg some ((hsame ▸ hwithin).absorbed hrole' hrole)
        · have hnot' (session : DriverSessionUsage ν) (hsession : session ∈ first) :
              session.sessionId ≠ k := fun hk => hbefore ⟨session, hsession, hk⟩
          rw [get_mergeSessions_of_not_mem hempty hnot']
          exact congrArg some (observationOfSession_session hrole)
  have hwhole : Distinct (sessionsOf observations) := distinct_gather
  have hperm := ((distinct_mergeSessions hdistinct second).mapValues _).perm_of_get
    (hwhole.mapValues _) hmerged
  have hvalues (sessions : Record String (MutableSessionUsage ν τ)) : (mapValues
      (fun _ usage => usage.toDriverSessionUsage) sessions).map Prod.snd = projected sessions := by
    simp [mapValues, projected]
  have hall := hperm.map Prod.snd
  rwa [hvalues, hvalues] at hall

/-! ## The order of arrival -/

variable {localeCompare : String → String → Ordering}

/-- The collation tells the session ids of the observations apart. -/
def Distinguishes (localeCompare : String → String → Ordering)
    (observations : List (DriverUsageObservation ν τ)) : Prop :=
  ∀ o ∈ observations, ∀ o' ∈ observations, localeCompare o.sessionId o'.sessionId = .eq →
    o.sessionId = o'.sessionId

theorem Distinguishes.apart (h : Distinguishes localeCompare observations) :
    Apart localeCompare DriverSessionUsage.sessionId (projected (sessionsOf observations)) := by
  intro first hfirst second hsecond heq
  obtain ⟨usage, hget, _⟩ := mem_projected.mp hfirst
  obtain ⟨usage', hget', _⟩ := mem_projected.mp hsecond
  obtain ⟨⟨o, ho, hid⟩, _⟩ := (sessionsOf_spec observations _).2 usage hget
  obtain ⟨⟨o', ho', hid'⟩, _⟩ := (sessionsOf_spec observations _).2 usage' hget'
  have hid : o.sessionId = first.sessionId := hid
  have hid' : o'.sessionId = second.sessionId := hid'
  refine List.inj_on_of_nodup_map nodup_projected hfirst hsecond ?_
  exact hid.symm.trans ((h o ho o' ho' (by rwa [hid, hid'])).trans hid')

variable [Add ν]

theorem projectDriverUsage_eq : projectDriverUsage localeCompare observations =
    finalizeUsageSessions localeCompare (sessionsOf observations) := by
  rw [projectDriverUsage, foldUsageObservation_sessionsOf]

theorem view_sessions : (projectDriverUsage localeCompare observations).sessions =
    sortOn localeCompare DriverSessionUsage.sessionId (projected (sessionsOf observations)) := by
  rw [projectDriverUsage_eq]
  rfl

theorem view_pair {o o' : DriverUsageObservation ν τ} (hne : o.sessionId ≠ o'.sessionId)
    (hle : (localeCompare o.sessionId o'.sessionId).isLE)
    (rest : List (DriverUsageObservation ν τ)) :
    [o.sessionId, o'.sessionId].Sublist
      ((projectDriverUsage localeCompare (o :: o' :: rest)).sessions.map (·.sessionId)) := by
  obtain ⟨others, hothers⟩ : [o.sessionId, o'.sessionId] <+:
      (sessionsOf (o :: o' :: rest)).map Prod.fst :=
    @keys_gather_pair _ _ _ (fun o : DriverUsageObservation ν τ => o.sessionId) _ _ _ _ _ _ hne
  rw [← projected_ids] at hothers
  obtain ⟨first, more, hprojected, hfirst, hmore⟩ := List.map_eq_cons_iff.mp hothers.symm
  obtain ⟨second, more, rfl, hsecond, _⟩ := List.map_eq_cons_iff.mp hmore
  have hpair : [first, second].Sublist (projected (sessionsOf (o :: o' :: rest))) := by
    rw [hprojected]
    exact ((List.nil_sublist more).cons_cons second).cons_cons first
  have hle : (localeCompare first.sessionId second.sessionId).isLE := by rwa [hfirst, hsecond]
  have hsorted := (pair_sortOn hpair hle).map (·.sessionId)
  rw [view_sessions]
  simpa only [List.map_cons, List.map_nil, hfirst, hsecond] using hsorted

theorem nodup_view : ((projectDriverUsage localeCompare observations).sessions.map
    (·.sessionId)).Nodup := by
  rw [view_sessions]
  exact (sortOn_perm.map _).nodup_iff.mpr nodup_projected

theorem available_sessions :
    (if (projectDriverUsage localeCompare observations).available then
        (projectDriverUsage localeCompare observations).sessions else []) =
      (projectDriverUsage localeCompare observations).sessions := by
  split
  · rfl
  · next hnot =>
      have hlength : ¬ (projectDriverUsage localeCompare observations).sessions.length > 0 :=
        fun hpos => hnot (decide_eq_true hpos)
      exact (List.eq_nil_of_length_eq_zero (Nat.eq_zero_of_not_pos hlength)).symm

theorem merge_views :
    mergeTaskDriverUsage τ localeCompare (projectDriverUsage localeCompare part)
        (some (projectDriverUsage localeCompare observations)) =
      finalizeUsageSessions localeCompare
        (mergeSessions (mergeSessions [] (projectDriverUsage localeCompare part).sessions)
          (projectDriverUsage localeCompare observations).sessions :
            Record String (MutableSessionUsage ν τ)) := by
  have hsource (view : TaskDriverUsage ν) (rest : List (TaskDriverUsage ν)) :
      ((view :: rest).filter (·.available)).flatMap (·.sessions) =
        (if view.available then view.sessions else []) ++
          (rest.filter (·.available)).flatMap (·.sessions) := by
    cases havailable : view.available with
    | true => simp [havailable]
    | false => simp [havailable]
  have hsources : (([some (projectDriverUsage localeCompare part),
      some (projectDriverUsage localeCompare observations)].reduceOption.filter
        (·.available)).flatMap (·.sessions)) =
      (projectDriverUsage localeCompare part).sessions ++
        (projectDriverUsage localeCompare observations).sessions := by
    have hboth : [some (projectDriverUsage localeCompare part),
        some (projectDriverUsage localeCompare observations)].reduceOption =
          [projectDriverUsage localeCompare part, projectDriverUsage localeCompare observations] :=
      rfl
    rw [hboth, hsource, hsource, available_sessions, available_sessions]
    simp
  unfold mergeTaskDriverUsage
  dsimp only
  rw [hsources, List.foldl_append, foldUsageObservation_mergeSessions,
    foldUsageObservation_mergeSessions]

variable [Std.TransCmp localeCompare]

theorem view_turns {o o' : DriverUsageObservation ν τ} (hne : o.sessionId ≠ o'.sessionId)
    (heq : localeCompare o.sessionId o'.sessionId = .eq)
    (rest : List (DriverUsageObservation ν τ)) :
    projectDriverUsage localeCompare (o :: o' :: rest) ≠
      projectDriverUsage localeCompare (o' :: o :: rest) := by
  have hswap : localeCompare o'.sessionId o.sessionId = .eq := Std.OrientedCmp.eq_comm.mp heq
  have hpair := view_pair hne (Ordering.isLE_of_eq_eq heq) rest
  have hturned := view_pair hne.symm (Ordering.isLE_of_eq_eq hswap) rest
  intro hsame
  rw [← hsame] at hturned
  exact pair_not_turned nodup_view hpair hturned

/-- Where roles agree and cost times are distinct, neither the order nor repetition of the
observations matters and the view of all absorbs that of any part if and only if the collation
tells the session ids apart. -/
theorem driver_usage_order_free_iff
    (hroles : RolesAgree observations) (htimes : CostTimesDistinct observations) :
    ((∀ folded, (∀ o, o ∈ observations ↔ o ∈ folded) →
        projectDriverUsage localeCompare folded = projectDriverUsage localeCompare observations) ∧
      ∀ part, part ⊆ observations →
        mergeTaskDriverUsage τ localeCompare (projectDriverUsage localeCompare part)
            (some (projectDriverUsage localeCompare observations)) =
          projectDriverUsage localeCompare observations) ↔
      Distinguishes localeCompare observations := by
  constructor
  · rintro ⟨hfolds, _⟩ o ho o' ho' heq
    by_contra hne
    have hsame (first second : DriverUsageObservation ν τ) (hfirst : first ∈ observations)
        (hsecond : second ∈ observations) : ∀ other, other ∈ observations ↔
          other ∈ first :: second :: observations := by
      simp only [List.mem_cons]
      exact fun other => ⟨fun hin => .inr (.inr hin), by rintro (rfl | rfl | hin) <;> assumption⟩
    exact view_turns hne heq observations
      ((hfolds _ (hsame o o' ho ho')).trans (hfolds _ (hsame o' o ho' ho)).symm)
  · intro h
    refine ⟨fun folded hsame => ?_, fun part hpart => ?_⟩
    · have hperm : (projected (sessionsOf observations)).Perm (projected (sessionsOf folded)) :=
        (sessionsOf_perm hroles htimes hsame).map _
      rw [projectDriverUsage_eq, projectDriverUsage_eq]
      exact (finalize_congr h.apart hperm).symm
    · have hview (observations : List (DriverUsageObservation ν τ)) :
          (projectDriverUsage localeCompare observations).sessions.Perm
            (projected (sessionsOf observations)) := by
        rw [view_sessions]
        exact sortOn_perm
      have hmerged := mergeSessions_part hroles hpart (hview part) (hview observations)
      calc mergeTaskDriverUsage τ localeCompare (projectDriverUsage localeCompare part)
              (some (projectDriverUsage localeCompare observations))
          = finalizeUsageSessions localeCompare
              (mergeSessions (mergeSessions [] (projectDriverUsage localeCompare part).sessions)
                (projectDriverUsage localeCompare observations).sessions :
                  Record String (MutableSessionUsage ν τ)) := merge_views
        _ = finalizeUsageSessions localeCompare (sessionsOf observations) :=
            (finalize_congr h.apart hmerged.symm).symm
        _ = projectDriverUsage localeCompare observations := projectDriverUsage_eq.symm

end

/-- One observation of a session, without a role or a cost. -/
def occupied (sessionId : String) (contextTokensUsed : ℕ) : DriverUsageObservation ℕ ℕ where
  sessionId
  roleId := none
  contextTokensUsed
  contextWindowSize := none
  reportedCost := none
  complete := true
  costObservedAt := none
  role := by simp
  timed := rfl

theorem driver_usage_order_free_two :
    mergeTaskDriverUsage ℕ compare (projectDriverUsage compare [occupied "b" 2])
        (some (projectDriverUsage compare [occupied "a" 1, occupied "b" 2])) =
      projectDriverUsage compare [occupied "a" 1, occupied "b" 2] := by
  have hids : Distinguishes compare [occupied "a" 1, occupied "b" 2] := by
    intro o ho o' ho'
    have ho := List.mem_pair.mp ho
    have ho' := List.mem_pair.mp ho'
    rcases ho with rfl | rfl <;> rcases ho' with rfl | rfl <;> decide
  exact ((driver_usage_order_free_iff (by simp [RolesAgree, occupied])
    (by simp [CostTimesDistinct, occupied, MutableSessionUsage.timedCost])).mpr hids).2 _ (by simp)

/-- A collation of texts up to one of the canonical equivalences. -/
def canonicalCompare (a b : String) : Ordering :=
  let canonical (text : String) : List Char :=
    text.toList.flatMap fun c => if c = 'é' then ['e', '\u0301'] else [c]
  compare (canonical a) (canonical b)

/-- Two session ids that differ only in how they write a letter stand as they arrived. -/
theorem arrival_order_shows :
    ¬ ∀ observations folded : List (DriverUsageObservation ℕ ℕ), RolesAgree observations →
      CostTimesDistinct observations → (∀ o, o ∈ observations ↔ o ∈ folded) →
        projectDriverUsage canonicalCompare folded =
          projectDriverUsage canonicalCompare observations := by
  intro h
  have hsame := h [occupied "\u00e9" 1, occupied "e\u0301" 2]
    [occupied "e\u0301" 2, occupied "\u00e9" 1] (by simp [RolesAgree, occupied])
    (by simp [CostTimesDistinct, occupied, MutableSessionUsage.timedCost])
    (by simp [or_comm])
  exact absurd (congrArg (fun view => view.sessions.map (·.sessionId)) hsame) (by decide)

end Newide.Usage

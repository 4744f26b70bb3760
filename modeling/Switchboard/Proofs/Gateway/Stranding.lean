import Switchboard.Proofs.Gateway.Departure

/-!
# Stranding — a kick that is dropped on its way

A kick detaches the sessions of a user all at once, and then takes them one by one: each leaves its
groups and is closed. Dropped in between, it leaves behind what it has handed in to the writers. A
session that is detached by then and not closed stays open, and no look at the index finds it again.
-/

namespace Switchboard.Gateway

open Session

namespace Script

/-- The sessions leave their groups and close one after another. -/
def kickAll (sessions : List SessionRef) : Script :=
  sessions.foldr (fun s next => unsubscribeAll s (.close s next)) .done

end Script

/-- The node once the sessions of `uid` are detached, those of `gone` have left their groups and
those of `kicked` are closed. -/
def Node.kicked (node : Node) (uid : Int64) (gone kicked : List SessionRef) : Node :=
  { node with
    post := kicked.foldl Post.close node.post
    index := (node.index.detachUser uid).2
    groups := gone.foldl Groups.unsubscribeAll node.groups }

theorem Node.kicked_gone_concat (node : Node) (uid : Int64) (gone kicked : List SessionRef)
    (t : SessionRef) :
    { node.kicked uid gone kicked with
      groups := (node.kicked uid gone kicked).groups.unsubscribeAll t } =
      node.kicked uid (gone ++ [t]) kicked := by
  rw [Node.kicked, Node.kicked, List.foldl_append]
  rfl

namespace Node.Orderly

variable {node : Node} {known : SessionRef → Prop} {roster : List SessionRef} {uid : Int64}
  {gone kicked : List SessionRef} {s : SessionRef}

theorem isClosed_kicked (h : node.Orderly known roster) (hkicked : kicked ⊆ node.index.ofUser uid)
    (hs : known s) :
    (node.kicked uid gone kicked).post.isClosed s = true ↔
      node.post.isClosed s = true ∨ s ∈ kicked := by
  have hslot : (∃ t ∈ kicked, s.slot = t.slot) ↔ s ∈ kicked := by
    constructor
    · rintro ⟨t, ht, hst⟩
      exact h.distinct.eq_of_slot s t hs (h.known_of_mem_ofUser (hkicked ht)) hst ▸ ht
    · exact fun hin => ⟨s, hin, rfl⟩
  rw [← hslot]
  exact Post.isClosed_foldl_close kicked node.post s

theorem groupsOf_kicked (h : node.Orderly known roster) (hgone : gone ⊆ node.index.ofUser uid)
    (hs : known s) :
    (node.kicked uid gone kicked).groups.groupsOf s = [] ↔
      node.groups.groupsOf s = [] ∨ s ∈ gone := by
  have hknown : ∀ t ∈ gone, known t := fun t ht => h.known_of_mem_ofUser (hgone ht)
  by_cases hin : s ∈ gone
  · exact iff_of_true (groupsOf_foldl_unsubscribeAll h.distinct hknown hin _) (.inr hin)
  · have hne : ∀ t ∈ gone, t.slot ≠ s.slot := fun t ht hts =>
      hin (h.distinct.eq_of_slot t s (hknown t ht) hs hts ▸ ht)
    have hsame : (node.kicked uid gone kicked).groups.groupsOf s = node.groups.groupsOf s :=
      groupsOf_foldl_of_ne (fun g s t hst => g.groupsOf_unsubscribe_of_ne hst _) hne _
    rw [hsame, or_iff_left hin]

/-- The buckets tell the same as the sets of groups. -/
theorem forall_not_mem_members_kicked (h : node.Orderly known roster)
    (hgone : gone ⊆ node.index.ofUser uid) (hs : known s) :
    (∀ gid, s ∉ (node.kicked uid gone kicked).groups.members gid) ↔
      (node.kicked uid gone kicked).groups.groupsOf s = [] := by
  have hcoherent : (node.kicked uid gone kicked).groups.Coherent known :=
    coherent_foldl (fun g t ht hg => hg.unsubscribe h.distinct ht _)
      (fun t ht => h.known_of_mem_ofUser (hgone ht)) h.coherent
  simp only [hcoherent.mem_iff hs, List.eq_nil_iff_forall_not_mem]

end Node.Orderly

namespace Crowd

variable {c c' : Crowd} {m : Move} {schedule : List Move} {s : SessionRef}

/-! ## 1. What the command does to a session in a run -/

/-- Next, task 0 closes `s`. -/
def IsClosing (c : Crowd) (m : Move) (s : SessionRef) : Prop :=
  m = .job 0 ∧ ∃ next, c.jobs[0]? = some (.ready (.close s next))

/-- Next, task 0 hands in that `s` leaves groups. -/
def IsHanding (c : Crowd) (m : Move) (s : SessionRef) : Prop :=
  m = .job 0 ∧ ∃ gids next, c.jobs[0]? = some (.ready (.regroup (.unsubscribe s gids) next))

/-- Somewhere in the run, task 0 closes `s`. -/
def Closes (c : Crowd) (schedule : List Move) (s : SessionRef) : Prop :=
  ∃ next mid, c.Passes schedule 0 (.close s next) mid

/-- Somewhere in the run, task 0 hands in that `s` leaves groups. -/
def HandsIn (c : Crowd) (schedule : List Move) (s : SessionRef) : Prop :=
  ∃ gids next mid, c.Passes schedule 0 (.regroup (.unsubscribe s gids) next) mid

theorem passes_cons (hm : c.move? m = some c') {i : Nat} {script : Script} :
    (∃ mid, c.Passes (m :: schedule) i script mid) ↔
      (m = .job i ∧ c.jobs[i]? = some (.ready script)) ∨
        ∃ mid, c'.Passes schedule i script mid := by
  constructor
  · rintro ⟨mid, hpass⟩
    rcases hpass.of_cons with ⟨hmove, rfl, hjob⟩ | ⟨next, hnext, hpass⟩
    · exact .inl ⟨hmove, hjob⟩
    · obtain rfl : c' = next := Option.some.inj (hm.symm.trans hnext)
      exact .inr ⟨mid, hpass⟩
  · rintro (⟨rfl, hjob⟩ | ⟨mid, hpass⟩)
    · exact ⟨c, .head schedule hjob⟩
    · exact ⟨mid, hpass.cons hm⟩

theorem closes_cons (hm : c.move? m = some c') :
    c.Closes (m :: schedule) s ↔ c.IsClosing m s ∨ c'.Closes schedule s := by
  simp only [Closes, IsClosing, passes_cons hm, exists_or, exists_and_left]

theorem handsIn_cons (hm : c.move? m = some c') :
    c.HandsIn (m :: schedule) s ↔ c.IsHanding m s ∨ c'.HandsIn schedule s := by
  simp only [HandsIn, IsHanding, passes_cons hm, exists_or, exists_and_left]

theorem not_closes_nil : ¬ c.Closes [] s := by
  rintro ⟨next, mid, hpass⟩
  exact not_passes_nil c 0 _ mid hpass

theorem not_handsIn_nil : ¬ c.HandsIn [] s := by
  rintro ⟨gids, next, mid, hpass⟩
  exact not_passes_nil c 0 _ mid hpass

/-! ## 2. Where the command can be -/

variable {node : Node} {uid : Int64} {known : SessionRef → Prop} {gone kicked : List SessionRef}

/-- The task is at this, unless it was dropped. -/
def IsAt (job expected : Job) : Prop := job = expected ∨ job = .abandoned

/-- The stages of a kick from the handing in of the removal on. Those of `gone` have left their
groups, or that they do waits in the queue, and those of `kicked` are closed. -/
inductive KickAt (node : Node) (uid : Int64) : Crowd → List SessionRef → List SessionRef → Prop
  | detaching {job : Job} (hjob : IsAt job (.awaitingIndex Script.kickAll)) :
      KickAt node uid { node, jobs := [job], indexQueue := [(0, .detachUser uid)] } [] []
  | taking {kicked left : List SessionRef} (hsplit : node.index.ofUser uid = kicked ++ left)
      {job : Job} (hjob : IsAt job (.ready (.kickAll left))) :
      KickAt node uid { node := node.kicked uid kicked kicked, jobs := [job] } kicked kicked
  | handing {kicked : List SessionRef} {t : SessionRef} {left : List SessionRef}
      (hsplit : node.index.ofUser uid = kicked ++ t :: left) {job : Job}
      (hjob : IsAt job (.ready (.regroup
        (.unsubscribe t ((node.kicked uid kicked kicked).groups.groupsOf t))
        (.close t (.kickAll left))))) :
      KickAt node uid { node := node.kicked uid kicked kicked, jobs := [job] } kicked kicked
  | leaving {kicked : List SessionRef} {t : SessionRef} {left : List SessionRef}
      (hsplit : node.index.ofUser uid = kicked ++ t :: left) {job : Job}
      (hjob : IsAt job (.awaitingGroups (.close t (.kickAll left)))) :
      KickAt node uid
        { node := node.kicked uid kicked kicked
          jobs := [job]
          groupQueue :=
            [(0, .unsubscribe t ((node.kicked uid kicked kicked).groups.groupsOf t))] }
        (kicked ++ [t]) kicked
  | closing {kicked : List SessionRef} {t : SessionRef} {left : List SessionRef}
      (hsplit : node.index.ofUser uid = kicked ++ t :: left) {job : Job}
      (hjob : IsAt job (.ready (.close t (.kickAll left)))) :
      KickAt node uid { node := node.kicked uid (kicked ++ [t]) kicked, jobs := [job] }
        (kicked ++ [t]) kicked

theorem KickAt.subset_gone (h : KickAt node uid c gone kicked) : kicked ⊆ gone := by
  cases h with
  | detaching | taking | handing => exact List.Subset.refl _
  | leaving | closing => exact List.subset_append_left _ _

theorem KickAt.subset_ofUser (h : KickAt node uid c gone kicked) :
    gone ⊆ node.index.ofUser uid := by
  cases h with
  | detaching => exact List.nil_subset _
  | taking hsplit | handing hsplit => exact hsplit ▸ List.subset_append_left _ _
  | @leaving _ t left hsplit | @closing _ t left hsplit =>
    rw [hsplit.trans (List.append_cons _ t left)]
    exact List.subset_append_left _ _

/-- The command takes the sessions in the order of the index. -/
theorem KickAt.split (h : KickAt node uid c gone kicked) :
    ∃ left, node.index.ofUser uid = kicked ++ left := by
  cases h with
  | detaching => exact ⟨_, rfl⟩
  | taking hsplit | handing hsplit | leaving hsplit | closing hsplit => exact ⟨_, hsplit⟩

/-- With nothing in the queues, the node is what `gone` and `kicked` tell. -/
theorem KickAt.node_eq (h : KickAt node uid c gone kicked) (hdrained : c.IsDrained) :
    c.node = node.kicked uid gone kicked := by
  cases h with
  | detaching => exact absurd hdrained.1 (List.cons_ne_nil _ _)
  | leaving => exact absurd hdrained.2 (List.cons_ne_nil _ _)
  | taking | handing | closing => rfl

/-! ## 3. One move -/

/-- What a move adds to those that are closed, and to those that have left their groups. Sessions
without groups have nothing to hand in. -/
structure Advances (node : Node) (c : Crowd) (m : Move) (gone kicked gone' kicked' :
    List SessionRef) : Prop where
  mem_kicked : ∀ s, s ∈ kicked' ↔ s ∈ kicked ∨ c.IsClosing m s
  mem_gone : ∀ s, node.groups.groupsOf s ≠ [] → (s ∈ gone' ↔ s ∈ gone ∨ c.IsHanding m s)

theorem Advances.still (hclosing : ∀ s, ¬ c.IsClosing m s) (hhanding : ∀ s, ¬ c.IsHanding m s) :
    Advances node c m gone kicked gone kicked where
  mem_kicked s := (or_iff_left (hclosing s)).symm
  mem_gone s _ := (or_iff_left (hhanding s)).symm

/-- A move that is not the command's adds nobody. -/
theorem Advances.of_ne (hm : m ≠ .job 0) : Advances node c m gone kicked gone kicked :=
  .still (fun _ h => hm h.1) fun _ h => hm h.1

/-- A move of the command adds nobody when it neither closes nor hands in. -/
theorem Advances.of_job {job : Job} (hjob : c.jobs[0]? = some job)
    (hclose : ∀ s next, job ≠ .ready (.close s next))
    (hregroup : ∀ op next, job ≠ .ready (.regroup op next)) :
    Advances node c m gone kicked gone kicked := by
  refine .still (fun s h => ?_) fun s h => ?_
  · obtain ⟨-, next, h⟩ := h
    exact hclose s next (Option.some.inj (hjob.symm.trans h))
  · obtain ⟨-, gids, next, h⟩ := h
    exact hregroup _ next (Option.some.inj (hjob.symm.trans h))

/-- Dropping the task leaves it at its stage. -/
theorem KickAt.abandon (h : KickAt node uid c gone kicked) :
    KickAt node uid (c.setJob 0 .abandoned) gone kicked := by
  cases h with
  | detaching => exact .detaching (.inr rfl)
  | taking hsplit => exact .taking hsplit (.inr rfl)
  | handing hsplit => exact .handing hsplit (.inr rfl)
  | leaving hsplit => exact .leaving hsplit (.inr rfl)
  | closing hsplit => exact .closing hsplit (.inr rfl)

theorem KickAt.length_jobs (h : KickAt node uid c gone kicked) : c.jobs.length = 1 := by
  cases h <;> rfl

/-- The writer of the index answers, if anybody still waits. -/
theorem KickAt.moveIndex (hindex : node.indexWriter = true)
    (h : KickAt node uid c gone kicked) (hm : c.move? .indexWriter = some c') :
    KickAt node uid c' gone kicked := by
  cases h with
  | detaching hjob =>
    simp only [move?, writeIndex, Node.mutate_of_writer hindex] at hm
    have hsplit : node.index.ofUser uid = [] ++ node.index.ofUser uid := rfl
    rcases hjob with rfl | rfl
    · obtain rfl : _ = c' := Option.some.inj hm
      exact .taking hsplit (.inl rfl)
    · obtain rfl : _ = c' := Option.some.inj hm
      exact .taking hsplit (.inr rfl)
  | taking | handing | leaving | closing => cases hm

/-- The writer of the groups carries out that a session leaves, and tells whoever still waits. -/
theorem KickAt.moveGroups (hgroups : node.groupWriter = true)
    (h : KickAt node uid c gone kicked) (hm : c.move? .groupWriter = some c') :
    KickAt node uid c' gone kicked := by
  cases h with
  | @leaving kicked t left hsplit _ hjob =>
    have hwriter : (node.kicked uid kicked kicked).groupWriter = true := hgroups
    have hnode := Node.kicked_gone_concat node uid kicked kicked t
    simp only [move?, writeGroups, Node.regroup_of_writer hwriter] at hm
    rcases hjob with rfl | rfl
    · obtain rfl : _ = c' := Option.some.inj hm
      exact hnode ▸ .closing hsplit (.inl rfl)
    · obtain rfl : _ = c' := Option.some.inj hm
      exact hnode ▸ .closing hsplit (.inr rfl)
  | detaching | taking | handing | closing => cases hm

/-- What the command is at after its look at the groups of `t`. Without any it is as if they were
left. -/
theorem KickAt.looked (hd : Distinct known) (hknown : ∀ t ∈ node.index.ofUser uid, known t)
    (hnodup : (node.index.ofUser uid).Nodup) {t : SessionRef} {left : List SessionRef}
    (hsplit : node.index.ofUser uid = kicked ++ t :: left) :
    ∃ gone', KickAt node uid
        { node := node.kicked uid kicked kicked
          jobs := [.ready (.unsubscribe t ((node.kicked uid kicked kicked).groups.groupsOf t)
            (.close t (.kickAll left)))] } gone' kicked ∧
      ∀ s, node.groups.groupsOf s ≠ [] → (s ∈ gone' ↔ s ∈ kicked) := by
  by_cases hnone : (node.kicked uid kicked kicked).groups.groupsOf t = []
  · -- the sessions before it have other slots, so it was in no group to begin with
    have hbefore : ∀ u ∈ kicked, u.slot ≠ t.slot := by
      intro u hu hslot
      have hut : u = t := hd.eq_of_slot u t (hknown u (by simp [hsplit, hu]))
        (hknown t (by simp [hsplit])) hslot
      rw [hsplit] at hnodup
      exact (List.nodup_append.1 hnodup).2.2 u hu t List.mem_cons_self hut
    have hnever : node.groups.groupsOf t = [] := by
      rw [← hnone]
      exact (groupsOf_foldl_of_ne (fun g s t hst => g.groupsOf_unsubscribe_of_ne hst _)
        hbefore _).symm
    have hsame : node.kicked uid (kicked ++ [t]) kicked = node.kicked uid kicked kicked := by
      rw [← Node.kicked_gone_concat, Groups.unsubscribeAll, hnone]
      rfl
    refine ⟨kicked ++ [t], ?_, fun s hs => ?_⟩
    · have hclosing : KickAt node uid
          { node := node.kicked uid (kicked ++ [t]) kicked
            jobs := [.ready (.close t (.kickAll left))] } (kicked ++ [t]) kicked :=
        .closing hsplit (.inl rfl)
      rw [hsame] at hclosing
      rwa [hnone]
    · rw [List.mem_append, List.mem_singleton]
      exact or_iff_left fun hst => hs (hst ▸ hnever)
  · refine ⟨kicked, ?_, fun s _ => Iff.rfl⟩
    rw [Script.unsubscribe, if_neg (by simpa using hnone)]
    exact .handing hsplit (.inl rfl)

/-- The command moves: it looks for the groups of the next session, hands in that it leaves them,
or closes it. -/
theorem KickAt.moveCommand (hd : Distinct known) (hknown : ∀ t ∈ node.index.ofUser uid, known t)
    (hnodup : (node.index.ofUser uid).Nodup) (hgroups : node.groupWriter = true)
    (h : KickAt node uid c gone kicked) (hm : c.move? (.job 0) = some c') :
    ∃ gone' kicked', KickAt node uid c' gone' kicked' ∧
      Advances node c (.job 0) gone kicked gone' kicked' := by
  have hwriter : ∀ gone kicked, (node.kicked uid gone kicked).groupWriter = true :=
    fun _ _ => hgroups
  cases h with
  | detaching hjob => rcases hjob with rfl | rfl <;> cases hm
  | leaving _ hjob => rcases hjob with rfl | rfl <;> cases hm
  | @taking _ left hsplit _ hjob =>
    rcases hjob with rfl | rfl
    · cases left with
      | nil => cases hm
      | cons t left =>
        obtain rfl : _ = c' := Option.some.inj hm
        obtain ⟨gone', h', hgone⟩ := KickAt.looked hd hknown hnodup hsplit
        have hstill : Advances node
            { node := node.kicked uid gone gone, jobs := [.ready (.kickAll (t :: left))] }
            (.job 0) gone gone gone gone :=
          .of_job rfl (fun _ _ h => by cases h) fun _ _ h => by cases h
        exact ⟨gone', gone, h', hstill.mem_kicked,
          fun s hs => (hgone s hs).trans (hstill.mem_gone s hs)⟩
    · cases hm
  | @handing _ t left hsplit _ hjob =>
    rcases hjob with rfl | rfl
    · simp only [move?, List.getElem?_cons_zero, act, hwriter, if_true] at hm
      obtain rfl : _ = c' := Option.some.inj hm
      refine ⟨gone ++ [t], gone, .leaving hsplit (.inl rfl), fun s => ?_, fun s _ => ?_⟩
      · refine (or_iff_left ?_).symm
        rintro ⟨-, next, hjob⟩
        cases hjob
      · rw [List.mem_append, List.mem_singleton]
        refine or_congr_right ⟨?_, ?_⟩
        · rintro rfl
          exact ⟨rfl, _, _, rfl⟩
        · rintro ⟨-, gids, next, hjob⟩
          cases hjob
          rfl
    · cases hm
  | @closing kicked t left hsplit _ hjob =>
    rcases hjob with rfl | rfl
    · obtain rfl : _ = c' := Option.some.inj hm
      have hnode : (node.kicked uid (kicked ++ [t]) (kicked ++ [t])) =
          { node.kicked uid (kicked ++ [t]) kicked with
            post := (node.kicked uid (kicked ++ [t]) kicked).post.close t } := by
        rw [Node.kicked, Node.kicked, List.foldl_append]
        rfl
      have hsplit' : node.index.ofUser uid = (kicked ++ [t]) ++ left := by simp [hsplit]
      have h' : KickAt node uid
          { node := node.kicked uid (kicked ++ [t]) (kicked ++ [t])
            jobs := [.ready (.kickAll left)] } (kicked ++ [t]) (kicked ++ [t]) :=
        .taking hsplit' (.inl rfl)
      rw [hnode] at h'
      refine ⟨kicked ++ [t], kicked ++ [t], h', fun s => ?_, fun s _ => ?_⟩
      · rw [List.mem_append, List.mem_singleton]
        refine or_congr_right ⟨?_, ?_⟩
        · rintro rfl
          exact ⟨rfl, _, rfl⟩
        · rintro ⟨-, next, hjob⟩
          cases hjob
          rfl
      · refine (or_iff_left ?_).symm
        rintro ⟨-, gids, next, hjob⟩
        cases hjob
    · cases hm

/-! ## 4. Whole runs -/

theorem KickAt.move (hd : Distinct known) (hknown : ∀ t ∈ node.index.ofUser uid, known t)
    (hnodup : (node.index.ofUser uid).Nodup) (hindex : node.indexWriter = true)
    (hgroups : node.groupWriter = true) (h : KickAt node uid c gone kicked)
    (hm : c.move? m = some c') :
    ∃ gone' kicked', KickAt node uid c' gone' kicked' ∧
      Advances node c m gone kicked gone' kicked' := by
  cases m with
  | job i =>
    match i with
    | 0 => exact h.moveCommand hd hknown hnodup hgroups hm
    | i + 1 =>
      -- there is one task only
      have hnone : c.jobs[i + 1]? = none := by simp [h.length_jobs]
      rw [move?, hnone] at hm
      cases hm
  | indexWriter => exact ⟨gone, kicked, h.moveIndex hindex hm, .of_ne Move.noConfusion⟩
  | groupWriter => exact ⟨gone, kicked, h.moveGroups hgroups hm, .of_ne Move.noConfusion⟩
  | abandon i =>
    simp only [move?, h.length_jobs] at hm
    split at hm
    · next hi =>
      obtain rfl : i = 0 := Nat.lt_one_iff.1 hi
      obtain rfl : _ = c' := Option.some.inj hm
      exact ⟨gone, kicked, h.abandon, .of_ne Move.noConfusion⟩
    · cases hm

/-- Over a whole run, those that the command closes are added to `kicked`, and those that it hands
in to `gone`. -/
theorem KickAt.run (hd : Distinct known) (hknown : ∀ t ∈ node.index.ofUser uid, known t)
    (hnodup : (node.index.ofUser uid).Nodup) (hindex : node.indexWriter = true)
    (hgroups : node.groupWriter = true) (h : KickAt node uid c gone kicked)
    (hrun : c.follow? schedule = some c') :
    ∃ gone' kicked', KickAt node uid c' gone' kicked' ∧
      (∀ s, s ∈ kicked' ↔ s ∈ kicked ∨ c.Closes schedule s) ∧
      ∀ s, node.groups.groupsOf s ≠ [] → (s ∈ gone' ↔ s ∈ gone ∨ c.HandsIn schedule s) := by
  induction schedule generalizing c gone kicked with
  | nil =>
    obtain rfl : c = c' := Option.some.inj hrun
    exact ⟨gone, kicked, h, fun s => (or_iff_left not_closes_nil).symm,
      fun s _ => (or_iff_left not_handsIn_nil).symm⟩
  | cons m schedule ih =>
    rw [follow?_cons] at hrun
    obtain ⟨mid, hm, hrest⟩ := Option.bind_eq_some_iff.1 hrun
    obtain ⟨gone', kicked', hmid, hadv⟩ := h.move hd hknown hnodup hindex hgroups hm
    obtain ⟨gone'', kicked'', hend, hkicked, hgone⟩ := ih hmid hrest
    refine ⟨gone'', kicked'', hend, fun s => ?_, fun s hs => ?_⟩
    · rw [hkicked, hadv.mem_kicked, closes_cons hm, or_assoc]
    · rw [hgone s hs, hadv.mem_gone s hs, handsIn_cons hm, or_assoc]

/-- A dropped task with nothing in the queues: nothing happens any more. -/
theorem follow?_of_abandoned
    (hrun : Crowd.follow? { node, jobs := [.abandoned] } schedule = some c) :
    c = { node, jobs := [.abandoned] } := by
  induction schedule with
  | nil => exact (Option.some.inj hrun).symm
  | cons m schedule ih =>
    rw [follow?_cons] at hrun
    obtain ⟨mid, hm, hrest⟩ := Option.bind_eq_some_iff.1 hrun
    have hmid : mid = { node, jobs := [.abandoned] } := by
      cases m with
      | job i =>
        match i with
        | 0 => cases hm
        | i + 1 => cases hm
      | indexWriter => cases hm
      | groupWriter => cases hm
      | abandon i =>
        simp only [move?, List.length_singleton] at hm
        split at hm
        · next hi =>
          obtain rfl : i = 0 := Nat.lt_one_iff.1 hi
          exact (Option.some.inj hm).symm
        · cases hm
    exact ih (hmid ▸ hrest)

/-- The command is dropped before it does anything, or it begins with handing in the removal. -/
theorem kick_start (hindex : node.indexWriter = true)
    (hrun : (ofScripts node [.kick uid]).follow? schedule = some c) :
    (c.node = node ∧
      ∀ script mid, ¬ (ofScripts node [.kick uid]).Passes schedule 0 script mid) ∨
    ∃ rest mid, schedule = .job 0 :: rest ∧
      (ofScripts node [.kick uid]).move? (.job 0) = some mid ∧ KickAt node uid mid [] [] ∧
      mid.follow? rest = some c := by
  cases schedule with
  | nil =>
    obtain rfl : _ = c := Option.some.inj hrun
    exact .inl ⟨rfl, not_passes_nil _ 0⟩
  | cons m rest =>
    rw [follow?_cons] at hrun
    obtain ⟨mid, hm, hrest⟩ := Option.bind_eq_some_iff.1 hrun
    cases m with
    | job i =>
      match i with
      | 0 =>
        refine .inr ⟨rest, mid, rfl, hm, ?_, hrest⟩
        simp only [move?, ofScripts, List.map_cons, List.map_nil, List.getElem?_cons_zero,
          Script.kick, act, hindex, if_true] at hm
        obtain rfl : _ = mid := Option.some.inj hm
        exact .detaching (.inl rfl)
      | i + 1 => cases hm
    | indexWriter => cases hm
    | groupWriter => cases hm
    | abandon i =>
      simp only [move?, ofScripts, List.map_cons, List.map_nil, List.length_singleton] at hm
      split at hm
      · next hi =>
        obtain rfl : i = 0 := Nat.lt_one_iff.1 hi
        obtain rfl : _ = mid := Option.some.inj hm
        refine .inl ⟨by rw [follow?_of_abandoned hrest], ?_⟩
        intro script later hpass
        rcases hpass.of_cons with ⟨hmove, -⟩ | ⟨next, hnext, before, after, rfl, hbefore, hjob⟩
        · cases hmove
        · obtain rfl : _ = next := Option.some.inj hnext
          rw [follow?_of_abandoned hbefore] at hjob
          cases hjob
      · cases hm

/-- What a kick leaves behind, whenever it is dropped. Once the queues are empty, the sessions that
it has taken out of the index are those of the user, if it came to hand in their removal, and
otherwise none. The ones it closes are the first of them, and such a session is closed and in no
group exactly when the command came to close it, or when it was closed before and either was in no
group or the command came to hand in that it leaves. -/
theorem kicked_for_good_iff (hnode : node.Recorded known) (hindex : node.indexWriter = true)
    (hgroups : node.groupWriter = true) (uid : Int64) {schedule : List Move} {c : Crowd}
    (hrun : (ofScripts node [.kick uid]).follow? schedule = some c) (hdrained : c.IsDrained) :
    (∀ s ∈ node.index.all, s ∉ c.node.index.all ↔
      s.uid = uid ∧ ∃ mid, (ofScripts node [.kick uid]).Passes schedule 0 (.kick uid) mid) ∧
    (∃ kicked left, node.index.ofUser uid = kicked ++ left ∧
      ∀ s, (ofScripts node [.kick uid]).Closes schedule s ↔ s ∈ kicked) ∧
    ∀ s ∈ node.index.all, s ∉ c.node.index.all →
      ((c.node.post.isClosed s = true ∧ (∀ gid, s ∉ c.node.groups.members gid) ∧
          c.node.groups.groupsOf s = []) ↔
        (ofScripts node [.kick uid]).Closes schedule s ∨
          node.post.isClosed s = true ∧
            (node.groups.groupsOf s = [] ∨
              (ofScripts node [.kick uid]).HandsIn schedule s)) := by
  obtain ⟨roster, horderly⟩ := hnode.orderly hindex hgroups
  have hknown : ∀ t ∈ node.index.ofUser uid, known t := fun t ht => horderly.known_of_mem_ofUser ht
  have hnodup : (node.index.ofUser uid).Nodup := by
    rw [horderly.represents.ofUser_eq]
    exact horderly.represents.nodup.filter _
  rcases kick_start hindex hrun with ⟨hsame, hnever⟩ | ⟨rest, mid, rfl, hm, hstart, hrest⟩
  · -- it is dropped before it does anything
    refine ⟨fun s hs => ?_, ⟨[], _, rfl, fun s => ?_⟩, fun s hs hgone => ?_⟩
    · rw [hsame]
      exact iff_of_false (absurd hs) fun ⟨_, mid, hpass⟩ => hnever _ mid hpass
    · exact iff_of_false (fun ⟨_, mid, hpass⟩ => hnever _ mid hpass) List.not_mem_nil
    · rw [hsame] at hgone
      exact absurd hs hgone
  · obtain ⟨gone, kicked, hend, hkicked, hhanded⟩ :=
      hstart.run horderly.distinct hknown hnodup hindex hgroups hrest
    have hcloses : ∀ s, (ofScripts node [.kick uid]).Closes (.job 0 :: rest) s ↔ s ∈ kicked := by
      intro s
      rw [closes_cons hm, hkicked]
      simp [IsClosing, ofScripts, Script.kick]
    have hhands : ∀ s, node.groups.groupsOf s ≠ [] →
        ((ofScripts node [.kick uid]).HandsIn (.job 0 :: rest) s ↔ s ∈ gone) := by
      intro s hs
      rw [handsIn_cons hm, hhanded s hs]
      simp [IsHanding, ofScripts, Script.kick]
    have hall : (node.kicked uid gone kicked).index.all = roster.filter fun t => t.uid ≠ uid :=
      (horderly.represents.detachUser uid).all_eq
    rw [hend.node_eq hdrained]
    refine ⟨fun s hs => ?_, ?_, fun s hs hout => ?_⟩
    · rw [horderly.represents.all_eq] at hs
      rw [hall, List.mem_filter]
      have hpass : ∃ mid, (ofScripts node [.kick uid]).Passes (.job 0 :: rest) 0 (.kick uid) mid :=
        ⟨_, .head rest rfl⟩
      simp [hs, hpass]
    · obtain ⟨left, hsplit⟩ := hend.split
      exact ⟨kicked, left, hsplit, hcloses⟩
    · rw [horderly.represents.all_eq] at hs
      rw [hall, List.mem_filter] at hout
      have hsknown : known s := horderly.known_of_mem s hs
      have hsub : gone ⊆ node.index.ofUser uid := hend.subset_ofUser
      have hfirst : s ∈ kicked → s ∈ gone := fun hin => hend.subset_gone hin
      have hleft : node.groups.groupsOf s = [] ∨ s ∈ gone ↔ node.groups.groupsOf s = [] ∨
          (ofScripts node [.kick uid]).HandsIn (.job 0 :: rest) s := by
        by_cases hnone : node.groups.groupsOf s = []
        · simp [hnone]
        · simp [hnone, hhands s hnone]
      rw [horderly.isClosed_kicked (List.Subset.trans hend.subset_gone hsub) hsknown,
        horderly.forall_not_mem_members_kicked hsub hsknown, and_self,
        horderly.groupsOf_kicked hsub hsknown, hcloses, ← hleft]
      constructor
      · rintro ⟨hwas | hin, hout⟩
        · exact .inr ⟨hwas, hout⟩
        · exact .inl hin
      · rintro (hin | ⟨hwas, hout⟩)
        · exact ⟨.inr hin, .inr (hfirst hin)⟩
        · exact ⟨.inl hwas, hout⟩

/-! ## 5. A kick that is dropped -/

/-- Two devices of user 1. -/
def laptop : SessionRef := ⟨0, 7, 1, "token"⟩

def handheld : SessionRef := ⟨1, 8, 1, "token"⟩

/-- A node on which both are registered, each in a group. -/
def devicesNode : Node :=
  let opened := (({} : Node).openSession 7 1 "token" false).2
  let entered := ((Script.enter laptop [10]).run opened).1
  ((Script.enter handheld [20]).run (entered.openSession 8 1 "token" false).2).1

/-- The first device is closed, the second has only handed in that it leaves its group. -/
def halfway : List Move :=
  [.job 0, .indexWriter, .job 0, .job 0, .groupWriter, .job 0, .job 0, .job 0, .abandon 0,
    .groupWriter]

theorem devicesNode_recorded : devicesNode.Recorded (fun s => s = laptop ∨ s = handheld) where
  distinct := by
    constructor <;>
    · rintro s t (rfl | rfl) (rfl | rfl)
      all_goals decide
  index := ⟨[.add laptop, .add handheld], rfl, fun s hs => by
    simpa [IndexChange.named] using hs⟩
  groups := ⟨[.subscribe laptop [10], .subscribe handheld [20]], rfl, fun op hop => by
    simp only [List.mem_cons, List.not_mem_nil, or_false] at hop
    rcases hop with rfl | rfl
    · exact .inl rfl
    · exact .inr rfl⟩

theorem kicked_for_good_iff_halfway :
    ∃ c, (ofScripts devicesNode [.kick 1]).follow? halfway = some c ∧ c.IsDrained ∧
      c.node.post.isClosed laptop = true ∧ c.node.post.isClosed handheld = false ∧
      (∀ s ∈ devicesNode.index.all, s ∉ c.node.index.all →
        ((c.node.post.isClosed s = true ∧ (∀ gid, s ∉ c.node.groups.members gid) ∧
            c.node.groups.groupsOf s = []) ↔
          (ofScripts devicesNode [.kick 1]).Closes halfway s ∨
            devicesNode.post.isClosed s = true ∧
              (devicesNode.groups.groupsOf s = [] ∨
                (ofScripts devicesNode [.kick 1]).HandsIn halfway s))) := by
  refine ⟨_, rfl, ⟨rfl, rfl⟩, by decide, by decide, ?_⟩
  exact (kicked_for_good_iff devicesNode_recorded rfl rfl 1 rfl ⟨rfl, rfl⟩).2.2

/-- The command is dropped while it waits for the answer to the removal. Both devices stay open and
in their groups, and neither another kick nor closing all that the index holds reaches them. -/
theorem stranded_by_drop :
    ∃ c, (ofScripts devicesNode [.kick 1]).follow? [.job 0, .abandon 0, .indexWriter] = some c ∧
      c.IsDrained ∧ c.IsAbandoned 0 ∧
      ∀ s ∈ [laptop, handheld], s ∈ devicesNode.index.all ∧ s ∉ c.node.index.all ∧
        c.node.post.isClosed s = false ∧ (∃ gid, s ∈ c.node.groups.members gid) ∧
        ((Script.kick 1).run c.node).1.post.isClosed s = false ∧
        (c.node.index.all.foldl Post.close c.node.post).isClosed s = false := by
  refine ⟨_, rfl, ⟨rfl, rfl⟩, rfl, ?_⟩
  rw [List.forall_mem_cons, List.forall_mem_singleton]
  exact ⟨⟨by decide, by decide, by decide, ⟨10, by decide⟩, by decide, by decide⟩,
    by decide, by decide, by decide, ⟨20, by decide⟩, by decide, by decide⟩

end Crowd

end Switchboard.Gateway

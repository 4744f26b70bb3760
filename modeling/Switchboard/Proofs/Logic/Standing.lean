import Mathlib.Data.List.Induction
import Switchboard.Logic.Routing
import Switchboard.Proofs.Logic.Visit

/-!
# Standing — the links of a node are those of the streams that stand

Streams come in, send, end and are timed out, each at its own pace, while frames are pushed and
links are cancelled. Once every task waits, the list of links has one entry for each stream that
stands, and no other.
-/

namespace Switchboard.Logic

open WebSocket

/-! ## 1. Runs -/

/-- A logic node with all the streams that gateways have opened. -/
structure Station where
  /-- What the queue of each link holds. -/
  capacity : Nat
  hub : Hub := {}
  now : Nat := 0
  visits : List Visit := []

namespace Station

/-- Tasks take their steps one by one, in any order, and time passes up to the next deadline. -/
inductive Event where
  | arrive (room : Nat)
  | touch (k : Nat) (deed : Deed)
  | step (k : Nat) (choice : Option Wakeup)
  | watch (id : UInt64)
  | push (envelope : Wire.Envelope)
  | remove (id : UInt64)
  | shutdown
  | pass (span : Nat)
  deriving DecidableEq, Repr

/-- A node that no gateway has come to. -/
def start (capacity : Nat) : Station := { capacity }

/-- A stream that opens now. Its pipe has held the answer to the upgrade, and has this much room
beyond. -/
def arrival (st : Station) (room : Nat) : Visit where
  opened := st.now
  socket := { pipe := { capacity := Http.acceptSize answerHeaders + room } }
  task := .greeting (st.now + helloLimit) st.capacity

def arrive (st : Station) (room : Nat) : Station :=
  { st with visits := st.visits ++ [st.arrival room] }

/-- The task of a stream takes a step, if it can take this one. -/
def step (st : Station) (k : Nat) (choice : Option Wakeup) : Station :=
  match st.visits[k]? with
  | none => st
  | some v =>
    match v.task.move? st.now v.socket st.hub choice with
    | none => st
    | some turn => { st with hub := turn.state, visits := st.visits.set k (v.took turn) }

/-- Links are cancelled, and perhaps taken out. -/
def strike (st : Station) (hub : Hub) (struck : UInt64 → Bool) : Station :=
  { st with hub, visits := st.visits.map (Visit.strike struck) }

/-- Time passes, but never beyond a deadline. -/
def pass (st : Station) (span : Nat) : Station :=
  if ∀ v ∈ st.visits, ∀ deadline ∈ v.task.deadline?, st.now + span ≤ deadline then
    { st with now := st.now + span }
  else st

def meet (st : Station) : Event → Station
  | .arrive room => st.arrive room
  | .touch k deed => { st with visits := st.visits.modify k (Visit.touch st.now · deed) }
  | .step k choice => st.step k choice
  | .watch id => { st with hub := st.hub.watch id }
  | .push envelope => { st with hub := (st.hub.push envelope).2.1 }
  | .remove id => st.strike (st.hub.remove id).2 (fun id' => id' = id)
  | .shutdown => st.strike st.hub.shutdown fun _ => true
  | .pass span => st.pass span

def after (st : Station) (events : List Event) : Station := events.foldl meet st

/-- Every task waits, and none of them for a write. -/
def Idle (st : Station) : Prop :=
  ∀ v ∈ st.visits, (Stream.step? st.now v.socket st.hub v.task).isNone ∧ v.task.isWriting = false

instance (st : Station) : Decidable st.Idle :=
  inferInstanceAs (Decidable (∀ v ∈ st.visits, _ ∧ _))

/-- The ids of the links that were registered, by stream. -/
def ids (st : Station) : List UInt64 := st.visits.filterMap Visit.id

/-! ## 2. The state at any moment -/

/-- Every stream is where it can be, each link is that of one stream, and the ids are used up one by
one. -/
structure Sound (st : Station) : Prop where
  coherent : st.hub.Coherent
  fits : ∀ v ∈ st.visits, v.Fits st.capacity st.hub st.now
  distinct : st.ids.Nodup
  lastId : st.hub.lastId.toNat = st.ids.length
  registered : st.hub.registered ⊆ st.ids

variable {st : Station} {v : Visit}

theorem sound_start (capacity : Nat) : (start capacity).Sound where
  coherent := Hub.coherent_empty
  fits _ hv := absurd hv List.not_mem_nil
  distinct := List.nodup_nil
  lastId := rfl
  registered := List.Subset.refl _

theorem Sound.le_lastId (h : st.Sound) {id : UInt64} (hid : id ∈ st.ids) : id ≤ st.hub.lastId := by
  obtain ⟨v, hv, hown⟩ := List.mem_filterMap.1 hid
  exact (h.fits v hv).le_lastId hown

/-! ## 3. One stream changes -/

section

variable {front back : List Visit} {v' : Visit} {hub : Hub}

theorem ids_split (hsplit : st.visits = front ++ v :: back) :
    st.ids = front.filterMap Visit.id ++ (v.id.toList ++ back.filterMap Visit.id) := by
  rw [ids, hsplit, List.filterMap_append, List.filterMap_cons]
  cases v.id <;> rfl

/-- No other stream has the same link. -/
theorem Sound.ne_id (h : st.Sound) (hsplit : st.visits = front ++ v :: back) {u : Visit}
    (hu : u ∈ front ++ back) (hlinked : u.id ≠ none) : u.id ≠ v.id := by
  intro hsame
  obtain ⟨id, hid⟩ := Option.ne_none_iff_exists'.1 hlinked
  have hdistinct := h.distinct
  rw [ids_split hsplit, ← hsame, hid, Option.toList_some, List.singleton_append] at hdistinct
  have htwice := (List.nodup_middle.1 hdistinct)
  refine (List.nodup_cons.1 htwice).1 ?_
  rw [← List.filterMap_append]
  exact List.mem_filterMap.2 ⟨u, hu, hid⟩

theorem Sound.others (h : st.Sound) (hsplit : st.visits = front ++ v :: back)
    (hspares : Hub.Spares v.id Hub.nobody st.hub hub) :
    ∀ u ∈ front ++ back, u.Fits st.capacity hub st.now := by
  intro u hu
  have hmem : u ∈ st.visits := by
    rw [hsplit, List.mem_append, List.mem_cons]
    exact (List.mem_append.1 hu).imp_right .inr
  have hfits := (h.fits u hmem).spared hspares (h.ne_id hsplit hu)
  rwa [Visit.strike_nobody] at hfits

theorem forall_split {p : Visit → Prop} (h : ∀ u ∈ front ++ back, p u) (hv : p v') :
    ∀ u ∈ front ++ v' :: back, p u := by
  intro u hu
  rcases List.mem_append.1 hu with hfront | hback
  · exact h u (List.mem_append_left _ hfront)
  rcases List.mem_cons.1 hback with rfl | hback
  · exact hv
  · exact h u (List.mem_append_right _ hback)

/-- The stream changes, and no link comes in. -/
theorem Sound.aged (h : st.Sound) (hsplit : st.visits = front ++ v :: back)
    (hfits : v'.Fits st.capacity hub st.now) (hid : v'.id = v.id)
    (hspares : Hub.Spares v.id Hub.nobody st.hub hub) (haged : Hub.Aged st.hub hub) :
    { st with hub, visits := front ++ v' :: back }.Sound := by
  have hids : ({ st with hub, visits := front ++ v' :: back } : Station).ids = st.ids := by
    rw [ids_split hsplit, ids_split rfl, hid]
  exact {
    coherent := h.coherent.aged haged
    fits := forall_split (h.others hsplit hspares) hfits
    distinct := hids ▸ h.distinct
    lastId := by rw [hids, haged.lastId, h.lastId]
    registered := hids ▸ List.Subset.trans haged.registered.subset h.registered }

theorem toNat_succ {n : UInt64} (h : n < n + 1) : (n + 1).toNat = n.toNat + 1 := by
  have hlt := UInt64.lt_iff_toNat_lt.1 h
  have hbound := n.toNat_lt
  rw [UInt64.toNat_add, UInt64.toNat_one] at hlt ⊢
  omega

/-- The stream changes, and its link comes in. -/
theorem Sound.registers (h : st.Sound) (hsplit : st.visits = front ++ v :: back)
    (hroom : st.hub.lastId < st.hub.lastId + 1) {name hostname : String}
    (hfits : v'.Fits st.capacity (st.hub.register name hostname st.capacity).2 st.now)
    (hnone : v.id = none) (hid : v'.id = some (st.hub.lastId + 1)) :
    { st with
      hub := (st.hub.register name hostname st.capacity).2
      visits := front ++ v' :: back }.Sound := by
  have hperm : ({ st with
      hub := (st.hub.register name hostname st.capacity).2
      visits := front ++ v' :: back } : Station).ids.Perm ((st.hub.lastId + 1) :: st.ids) := by
    rw [ids_split hsplit, ids_split rfl, hid, hnone]
    exact List.perm_middle
  have hnew : st.hub.lastId + 1 ∉ st.ids := fun hold =>
    Hub.ne_lastId_succ hroom (h.le_lastId hold) rfl
  exact {
    coherent := h.coherent.register hroom name hostname st.capacity
    fits := forall_split (h.others hsplit (hnone ▸ Hub.spares_register hroom _ _ _ _)) hfits
    distinct := hperm.nodup_iff.2 (List.nodup_cons.2 ⟨hnew, h.distinct⟩)
    lastId := by
      rw [hperm.length_eq, List.length_cons, ← h.lastId]
      exact toNat_succ hroom
    registered := by
      intro id hin
      refine hperm.mem_iff.2 (List.mem_cons.2 ?_)
      exact (List.mem_append.1 hin).symm.imp List.mem_singleton.1 fun hold => h.registered hold }

end

/-! ## 4. What is met with -/

theorem Sound.arrive (h : st.Sound) (room : Nat) : (st.arrive room).Sound := by
  have hids : (st.arrive room).ids = st.ids := by
    rw [Station.arrive, ids, List.filterMap_append]
    exact List.append_nil _
  refine ⟨h.coherent, fun v hv => ?_, hids ▸ h.distinct, hids ▸ h.lastId, hids ▸ h.registered⟩
  rcases List.mem_append.1 hv with hold | hnew
  · exact h.fits v hold
  · obtain rfl := List.mem_singleton.1 hnew
    exact .greeting rfl rfl rfl rfl (Nat.le_add_right _ _) (.refl _ _)

theorem Sound.touch (h : st.Sound) (k : Nat) (deed : Deed) : (st.meet (.touch k deed)).Sound := by
  by_cases hk : k < st.visits.length
  · obtain ⟨front, v, back, hsplit, -, hmodify⟩ :=
      List.exists_of_modify (Visit.touch st.now · deed) hk
    have hv : v ∈ st.visits := by rw [hsplit]; exact List.mem_append_right _ List.mem_cons_self
    have hsound := h.aged hsplit ((h.fits v hv).touch deed) (Visit.touch_keeps _ v deed).1
      (Hub.spares_refl st.hub _) (.refl st.hub)
    rwa [← hmodify] at hsound
  · have hsame : st.meet (.touch k deed) = st := by
      rw [meet, List.modify_eq_self (Nat.le_of_not_lt hk)]
    rwa [hsame]

/-- There is an id for a stream that is not linked, as long as there are fewer streams than ids. -/
theorem Sound.room (h : st.Sound) (hsize : st.visits.length < UInt64.size)
    {front back : List Visit} (hsplit : st.visits = front ++ v :: back) (hnone : v.id = none) :
    st.hub.lastId < st.hub.lastId + 1 := by
  have hids := ids_split hsplit
  have hfront := List.length_filterMap_le Visit.id front
  have hback := List.length_filterMap_le Visit.id back
  have hlast := h.lastId
  rw [hids, hnone, Option.toList_none, List.nil_append, List.length_append] at hlast
  rw [hsplit, List.length_append, List.length_cons] at hsize
  have hfits : st.hub.lastId.toNat + 1 < UInt64.size := by omega
  have hsucc : (st.hub.lastId + 1).toNat = st.hub.lastId.toNat + 1 := by
    rw [UInt64.toNat_add]
    exact Nat.mod_eq_of_lt hfits
  rw [UInt64.lt_iff_toNat_lt, hsucc]
  exact Nat.lt_succ_self _

theorem Sound.step (h : st.Sound) (hcapacity : checkCapacity st.capacity = .ok ())
    (hsize : st.visits.length < UInt64.size) (k : Nat) (choice : Option Wakeup) :
    (st.step k choice).Sound := by
  unfold Station.step
  split
  · exact h
  next v hget =>
  split
  · exact h
  next turn hmove =>
  obtain ⟨hk, hv⟩ := List.getElem?_eq_some_iff.1 hget
  have hplace : ∃ front back, st.visits = front ++ st.visits[k] :: back ∧ front.length = k ∧
      st.visits.set k (v.took turn) = front ++ v.took turn :: back := List.exists_of_set hk
  obtain ⟨front, back, hsplit, -, hset⟩ := hplace
  rw [hv] at hsplit
  have hroom := h.room hsize hsplit
  have hmem : v ∈ st.visits := hv ▸ List.getElem_mem hk
  have hstepped := (h.fits v hmem).stepped hcapacity h.coherent hroom hmove
  rw [hset]
  cases hstepped.advances with
  | ages hid haged => exact h.aged hsplit hstepped.fits hid hstepped.spares haged
  | registers hid hnew hstate =>
    have hfits := hstepped.fits
    rw [hstate] at hfits ⊢
    exact h.registers hsplit (hroom hid) hfits hid hnew

/-- Links are cancelled, and those of the streams with them. -/
theorem Sound.strike (h : st.Sound) {hub : Hub} {struck : UInt64 → Bool}
    (hspares : Hub.Spares none struck st.hub hub) (haged : Hub.Aged st.hub hub) :
    (st.strike hub struck).Sound := by
  have hids : (st.strike hub struck).ids = st.ids := List.filterMap_map ..
  refine ⟨h.coherent.aged haged, fun u hu => ?_, hids ▸ h.distinct, ?_, ?_⟩
  · obtain ⟨v, hv, rfl⟩ := List.mem_map.1 hu
    exact (h.fits v hv).spared hspares fun hlinked => hlinked
  · rw [hids, ← h.lastId]
    exact congrArg UInt64.toNat haged.lastId
  · rw [hids]
    exact List.Subset.trans haged.registered.subset h.registered

theorem strike_nobody (st : Station) (hub : Hub) : st.strike hub Hub.nobody = { st with hub } := by
  have hsame : Visit.strike Hub.nobody = id := funext Visit.strike_nobody
  rw [strike, hsame, List.map_id]

theorem Sound.hub (h : st.Sound) {hub : Hub} (hspares : Hub.Spares none Hub.nobody st.hub hub)
    (haged : Hub.Aged st.hub hub) : { st with hub }.Sound :=
  strike_nobody st hub ▸ h.strike hspares haged

theorem Sound.pass (h : st.Sound) (span : Nat) : (st.pass span).Sound := by
  unfold Station.pass
  split
  · next hdue =>
    exact ⟨h.coherent, fun v hv => (h.fits v hv).later (Nat.le_add_right _ _) (hdue v hv),
      h.distinct, h.lastId, h.registered⟩
  · exact h

theorem Sound.meet (h : st.Sound) (hcapacity : checkCapacity st.capacity = .ok ())
    (hsize : st.visits.length < UInt64.size) (e : Event) : (st.meet e).Sound := by
  cases e with
  | arrive room => exact h.arrive room
  | touch k deed => exact h.touch k deed
  | step k choice => exact h.step hcapacity hsize k choice
  | watch id => exact h.hub (Hub.spares_watch _ id) (Hub.withdrawn_watch _ id).toAged
  | push envelope =>
    exact h.hub (h.coherent.spares_push envelope) (Hub.aged_push h.coherent.nodup envelope)
  | remove id => exact h.strike (h.coherent.spares_remove id) (Hub.withdrawn_remove _ id).toAged
  | shutdown => exact h.strike h.coherent.spares_shutdown (Hub.withdrawn_shutdown _).toAged
  | pass span => exact h.pass span

/-! ## 5. Over a run -/

theorem capacity_meet (st : Station) (e : Event) : (st.meet e).capacity = st.capacity := by
  cases e with
  | step k choice =>
    show (st.step k choice).capacity = _
    unfold Station.step
    split
    · rfl
    · split <;> rfl
  | pass span =>
    show (st.pass span).capacity = _
    unfold Station.pass
    split <;> rfl
  | _ => rfl

theorem capacity_after (st : Station) (events : List Event) :
    (st.after events).capacity = st.capacity := by
  induction events generalizing st with
  | nil => rfl
  | cons e events ih => exact (ih (st.meet e)).trans (capacity_meet st e)

theorem after_append (st : Station) (events more : List Event) :
    st.after (events ++ more) = (st.after events).after more :=
  List.foldl_append

/-- What an event comes to for one of the streams, `now` being the time after it. -/
inductive Fate (st : Station) (k : Nat) (v : Visit) (e : Event) (now : Nat) : Visit → Prop where
  | stays (hnow : now = st.now) : Fate st k v e now v
  | waits (hnow : st.now ≤ now) (hdue : ∀ deadline ∈ v.task.deadline?, now ≤ deadline) :
      Fate st k v e now v
  | touched (hnow : now = st.now) (deed : Deed) : Fate st k v e now (v.touch st.now deed)
  | struck (hnow : now = st.now) (struck : UInt64 → Bool) : Fate st k v e now (v.strike struck)
  | stepped {choice : Option Wakeup} {turn : Turn} (hnow : now = st.now) (he : e = .step k choice)
      (hmove : v.task.move? st.now v.socket st.hub choice = some turn) :
      Fate st k v e now (v.took turn)

theorem step_of_move {k : Nat} {choice : Option Wakeup} {turn : Turn} (hv : st.visits[k]? = some v)
    (hmove : v.task.move? st.now v.socket st.hub choice = some turn) :
    st.step k choice =
      { st with hub := turn.state, visits := st.visits.set k (v.took turn) } := by
  rw [Station.step, hv]
  dsimp only
  rw [hmove]

/-- A stream keeps its place. -/
theorem fate_meet (st : Station) (e : Event) {k : Nat} (hv : st.visits[k]? = some v) :
    ∃ v', (st.meet e).visits[k]? = some v' ∧ st.Fate k v e (st.meet e).now v' := by
  cases e with
  | arrive room =>
    have hk := (List.getElem?_eq_some_iff.1 hv).1
    exact ⟨v, (List.getElem?_append_left hk).trans hv, .stays rfl⟩
  | touch k' deed =>
    show ∃ v', (st.visits.modify k' _)[k]? = some v' ∧ _
    by_cases hk : k' = k
    · subst hk
      exact ⟨_, by rw [List.getElem?_modify_eq, hv]; rfl, .touched rfl deed⟩
    · exact ⟨v, (List.getElem?_modify_ne _ _ hk).trans hv, .stays rfl⟩
  | step k' choice =>
    show ∃ v', (st.step k' choice).visits[k]? = some v' ∧ Fate _ _ _ _ (st.step k' choice).now _
    unfold Station.step
    split
    · exact ⟨v, hv, .stays rfl⟩
    next u hu =>
    split
    · exact ⟨v, hv, .stays rfl⟩
    next turn hmove =>
    by_cases hk : k' = k
    · subst hk
      obtain rfl := Option.some.inj (hu.symm.trans hv)
      have hlt := (List.getElem?_eq_some_iff.1 hv).1
      exact ⟨_, List.getElem?_set_self hlt, .stepped rfl rfl hmove⟩
    · exact ⟨v, (List.getElem?_set_ne hk).trans hv, .stays rfl⟩
  | remove | shutdown => exact ⟨_, by rw [meet, strike, List.getElem?_map, hv]; rfl, .struck rfl _⟩
  | pass span =>
    show ∃ v', (st.pass span).visits[k]? = some v' ∧ Fate _ _ _ _ (st.pass span).now _
    unfold Station.pass
    split
    · next hdue =>
      exact ⟨v, hv, .waits (Nat.le_add_right _ _) (hdue v (List.mem_of_getElem? hv))⟩
    · exact ⟨v, hv, .stays rfl⟩
  | watch | push => exact ⟨v, hv, .stays rfl⟩

theorem later_meet (st : Station) (e : Event) {k : Nat} (hv : st.visits[k]? = some v) :
    ∃ v', (st.meet e).visits[k]? = some v' ∧ v.Later v' := by
  obtain ⟨v', hv', hfate⟩ := fate_meet st e hv
  refine ⟨v', hv', ?_⟩
  cases hfate with
  | stays | waits => exact .refl v
  | touched _ deed => exact Visit.later_touch st.now v deed
  | struck _ struck => exact Visit.later_strike struck v
  | stepped _ _ hmove => exact Visit.later_took hmove

theorem later_after (events : List Event) {k : Nat} (hv : st.visits[k]? = some v) :
    ∃ v', (st.after events).visits[k]? = some v' ∧ v.Later v' := by
  induction events generalizing st v with
  | nil => exact ⟨v, hv, .refl v⟩
  | cons e events ih =>
    obtain ⟨v', hv', hlater⟩ := later_meet st e hv
    obtain ⟨v'', hv'', hlater'⟩ := ih hv'
    exact ⟨v'', hv'', hlater.trans hlater'⟩

theorem length_le_after (st : Station) (events : List Event) :
    st.visits.length ≤ (st.after events).visits.length := by
  by_contra hless
  -- the last stream keeps its place
  have hlast : (st.after events).visits.length < st.visits.length := Nat.lt_of_not_le hless
  obtain ⟨v', hv', -⟩ := later_after events (List.getElem?_eq_getElem hlast)
  exact absurd (List.getElem?_eq_some_iff.1 hv').1 (Nat.lt_irrefl _)

theorem Sound.after (h : st.Sound) (hcapacity : checkCapacity st.capacity = .ok ())
    {events : List Event} (hsize : (st.after events).visits.length < UInt64.size) :
    (st.after events).Sound := by
  induction events generalizing st with
  | nil => exact h
  | cons e events ih =>
    have hnow := Nat.lt_of_le_of_lt (length_le_after st (e :: events)) hsize
    exact ih (h.meet hcapacity hnow e) ((capacity_meet st e).symm ▸ hcapacity) hsize

/-! ## 6. The list of links -/

theorem Sound.rests (h : st.Sound) (hidle : st.Idle) (hv : v ∈ st.visits) : v.Rests st.hub :=
  (h.fits v hv).rests (Option.isNone_iff_eq_none.1 (hidle v hv).1) (hidle v hv).2

/-- An entry of the list of links. -/
def entry (e : UInt64 × Link) : Option UInt64 × String × String :=
  (some e.1, e.2.name, e.2.hostname)

theorem mem_listed {hub : Hub} {e : UInt64 × Link} : e ∈ hub.listed ↔
    e.1 ∈ hub.registered ∧ e.2 = hub.link e.1 ∧ (hub.link e.1).cancelled = false := by
  obtain ⟨id, l⟩ := e
  simp only [Hub.listed, List.mem_filter, List.mem_map, Prod.mk.injEq, Bool.not_eq_true']
  constructor
  · rintro ⟨⟨_, hin, rfl, rfl⟩, halive⟩
    exact ⟨hin, rfl, halive⟩
  · rintro ⟨hin, rfl, halive⟩
    exact ⟨⟨id, hin, rfl, rfl⟩, halive⟩

theorem nodup_entries {hub : Hub} (hnodup : hub.registered.Nodup) :
    (hub.listed.map entry).Nodup := by
  have hpairs : (hub.registered.map fun id => (id, hub.link id)).Nodup :=
    hnodup.map fun _ _ h => (Prod.mk.inj h).1
  refine (hpairs.filter _).map_on fun e he e' he' hsame => ?_
  obtain ⟨-, hlink, -⟩ := mem_listed.1 he
  obtain ⟨-, hlink', -⟩ := mem_listed.1 he'
  have hid : e.1 = e'.1 := Option.some.inj (Prod.mk.inj hsame).1
  exact Prod.ext hid (by rw [hlink, hlink', hid])

/-- No two streams have the same entry, as none have the same link. -/
theorem Sound.nodup_standing (h : st.Sound) (hidle : st.Idle) :
    (st.visits.filterMap Visit.standing?).Nodup := by
  have hids := List.pairwise_filterMap.1 h.distinct
  refine List.pairwise_filterMap.2 (hids.imp_of_mem fun {u v} hu hv hne => ?_)
  rintro x hx _ hx' rfl
  obtain ⟨id, hid, hfirst⟩ := (h.rests hidle hu).id_eq hx
  obtain ⟨id', hid', hfirst'⟩ := (h.rests hidle hv).id_eq hx'
  exact hne id hid id' hid' (Option.some.inj (hfirst.symm.trans hfirst'))

theorem Sound.mem_standing_iff (h : st.Sound) (hidle : st.Idle)
    (x : Option UInt64 × String × String) :
    x ∈ st.hub.listed.map entry ↔ x ∈ st.visits.filterMap Visit.standing? := by
  rw [List.mem_map, List.mem_filterMap]
  constructor
  · rintro ⟨e, he, rfl⟩
    obtain ⟨hin, hlink, halive⟩ := mem_listed.1 he
    obtain ⟨v, hv, hid⟩ := List.mem_filterMap.1 (h.registered hin)
    cases h.rests hidle hv with
    | absent _ hended =>
      have hfinished := hended (by rw [hid]; exact nofun)
      exact absurd hin ((h.fits v hv).not_registered hfinished hid)
    | stands hid' hstanding hserves =>
      obtain rfl := Option.some.inj (hid.symm.trans hid')
      refine ⟨v, hv, hstanding.trans ?_⟩
      rw [entry, hlink, hserves.name, hserves.hostname]
  · rintro ⟨v, hv, hx⟩
    cases h.rests hidle hv with
    | absent hnone => rw [hnone] at hx; cases hx
    | @stands id name hostname hid hstanding hserves =>
      obtain rfl := Option.some.inj (hstanding.symm.trans hx)
      have hin : id ∈ st.hub.registered := by
        by_contra hout
        have hcancelled := h.coherent.left id hout
        rw [hserves.cancelled] at hcancelled
        cases hcancelled
      refine ⟨(id, st.hub.link id), mem_listed.2 ⟨hin, rfl, hserves.cancelled⟩, ?_⟩
      rw [entry, hserves.name, hserves.hostname]

/-- The stream that an event belongs to. -/
def Event.stream? : Event → Option Nat
  | .touch k _ | .step k _ => some k
  | .arrive _ | .watch _ | .push _ | .remove _ | .shutdown | .pass _ => none

/-- The list of links is that of the streams that stand. The link of any other has left the hub, and
whatever comes, no frame is counted for it again. -/
structure Mirrors (st : Station) : Prop where
  listed : (st.hub.listed.map entry).Perm (st.visits.filterMap Visit.standing?)
  departed : ∀ v ∈ st.visits, v.standing? = none → ∀ id ∈ v.id, ∀ more,
    (st.after more).visits.length < UInt64.size → id ∉ (st.after more).hub.registered ∧
      ∀ envelope, (((st.after more).hub.push envelope).1 : ℕ∞) =
        {id' | id' ≠ id ∧ (st.after more).hub.Accepts id'}.encard

theorem Sound.mirrors (h : st.Sound) (hcapacity : checkCapacity st.capacity = .ok ())
    (hidle : st.Idle) : st.Mirrors where
  listed := (List.perm_ext_iff_of_nodup (nodup_entries h.coherent.nodup)
    (h.nodup_standing hidle)).2 (h.mem_standing_iff hidle)
  departed v hv hnone id hid more hsize := by
    have hsound := h.after hcapacity hsize
    obtain ⟨k, hk⟩ := List.mem_iff_getElem?.1 hv
    obtain ⟨v', hv', hlater⟩ := later_after more hk
    have hfinished : v.task = .finished := by
      cases h.rests hidle hv with
      | stands _ hstanding => rw [hnone] at hstanding; cases hstanding
      | absent _ hended => exact hended (by rw [hid]; exact nofun)
    obtain ⟨hfinished', hid'⟩ := hlater.ended hfinished
    have hout := (hsound.fits v' (List.mem_of_getElem? hv')).not_registered hfinished'
      (hid'.trans hid)
    refine ⟨hout, fun envelope => ?_⟩
    have hcounted : {id' | id' ≠ id ∧ (st.after more).hub.Accepts id'} =
        {id' | (st.after more).hub.Accepts id'} :=
      Set.ext fun id' => and_iff_right_of_imp fun haccepts hsame => hout (hsame ▸ haccepts.1)
    rw [hcounted]
    exact (hsound.coherent.pushed envelope).reached

/-- What belongs to a stream that does not name itself in time does nothing to the hub. -/
theorem Sound.unnamed (h : st.Sound) (hcapacity : checkCapacity st.capacity = .ok ())
    (hsize : st.visits.length < UInt64.size) {e : Event} {k : Nat} (he : e.stream? = some k)
    (hnone : ∀ v, st.visits[k]? = some v → v.hello? = none) : (st.meet e).hub = st.hub := by
  cases e with
  | touch => rfl
  | step k' choice =>
    obtain rfl := Option.some.inj he
    show (st.step k' choice).hub = _
    unfold Station.step
    split
    · rfl
    next v hv =>
    split
    · rfl
    next turn hmove =>
    have hmem := List.mem_of_getElem? hv
    obtain ⟨front, back, hsplit⟩ := List.append_of_mem hmem
    have hstepped := (h.fits v hmem).stepped hcapacity h.coherent (h.room hsize hsplit) hmove
    exact hstepped.unnamed (hnone v hv)
  | arrive | watch | push | remove | shutdown | pass => cases he

/-- Over any run, once every task waits and none for a write, the list of links has one entry for
each stream that stands, under the names of its first text, and no other. A stream that does not
name itself in time never changes the hub. The queue of a link can be made, and a run has fewer
streams than there are ids. -/
theorem mirrored_after {capacity : Nat} (hcapacity : checkCapacity capacity = .ok ())
    (events : List Event) (hsize : ((start capacity).after events).visits.length < UInt64.size) :
    (((start capacity).after events).Idle → ((start capacity).after events).Mirrors) ∧
    ∀ before e rest, before ++ e :: rest = events → ∀ k ∈ e.stream?,
      (∀ v, ((start capacity).after events).visits[k]? = some v → v.hello? = none) →
      ((start capacity).after (before ++ [e])).hub = ((start capacity).after before).hub := by
  have hcapable : ∀ events, checkCapacity ((start capacity).after events).capacity = .ok () :=
    fun events => (capacity_after (start capacity) events).symm ▸ hcapacity
  have hsound := (sound_start capacity).after hcapacity hsize
  refine ⟨fun hidle => hsound.mirrors (hcapable events) hidle, ?_⟩
  rintro before e rest rfl k hk hnone
  rw [after_append] at hnone hsize
  rw [after_append]
  have hbefore := Nat.lt_of_le_of_lt (length_le_after _ _) hsize
  refine ((sound_start capacity).after hcapacity hbefore).unnamed (hcapable before) hbefore hk
    fun v hv => ?_
  -- it never names itself, so it has not done so yet
  obtain ⟨v', hv', hlater⟩ := later_after (e :: rest) hv
  by_contra hnamed
  exact hlater.named hnamed (hnone v' hv')

/-- The bytes that a gateway sends for messages. -/
def sent (messages : List Message) : Deed :=
  .sends (messages.flatMap fun m => m.frame.encode true)

/-- Four gateways: one is cancelled by a shutdown, one names itself behind a ping and then under
another name, one sends what names nobody, and one is silent for too long. -/
def fourGateways : List Event :=
  [.arrive 100, .touch 0 (sent [.text (Wire.Hello.encode ⟨"east", "host-a"⟩)]), .step 0 none,
    .shutdown, .step 0 (some .cancelled), .step 0 none,
    .arrive 100, .touch 1 (sent [.ping [7], .text (Wire.Hello.encode ⟨"west", "host-b"⟩),
      .text (Wire.Hello.encode ⟨"north", "host-c"⟩)]), .step 1 none, .step 1 none,
    .step 1 (some .frame),
    .arrive 100, .touch 2 (sent [.text "[]"]), .step 2 none,
    .arrive 100, .pass 10000, .step 3 none]

/-- The second gateway is the one in the list, under its first names. The first one's link stays out
of the hub, and the time-out of the last one does nothing to it. -/
theorem mirrored_after_fourGateways :
    checkCapacity 8 = .ok () ∧
    ((start 8).after fourGateways).visits.length < UInt64.size ∧
    ((start 8).after fourGateways).Idle ∧
    ((start 8).after fourGateways).hub.listed.map entry = [(some 2, "west", "host-b")] ∧
    1 ∉ ((start 8).after (fourGateways ++ [.arrive 100])).hub.registered ∧
    ((start 8).after fourGateways).hub = ((start 8).after fourGateways.dropLast).hub := by
  have hsize : ((start 8).after fourGateways).visits.length < UInt64.size := by decide +kernel
  have hidle : ((start 8).after fourGateways).Idle := by decide +kernel
  obtain ⟨hmirrors, hunnamed⟩ := @mirrored_after 8 rfl fourGateways hsize
  have hstanding : ((start 8).after fourGateways).visits.filterMap Visit.standing? =
      [(some 2, "west", "host-b")] := by
    decide +kernel
  have hlisted := (hmirrors hidle).listed
  rw [hstanding, List.perm_singleton] at hlisted
  have hfirst :
      ∃ v ∈ ((start 8).after fourGateways).visits, v.standing? = none ∧ v.id = some 1 := by
    decide +kernel
  obtain ⟨v, hv, hnone, hid⟩ := hfirst
  have hout := ((hmirrors hidle).departed v hv hnone 1 hid [.arrive 100] (by decide +kernel)).1
  rw [← after_append] at hout
  have hsilent : ((start 8).after fourGateways).visits[3]?.bind Visit.hello? = none := by
    decide +kernel
  have hlast : fourGateways.dropLast ++ [.step 3 none] = fourGateways := by decide
  have hsame := hunnamed fourGateways.dropLast (.step 3 none) [] hlast 3 rfl fun v hv => by
    rw [hv, Option.bind_some] at hsilent
    exact hsilent
  rw [hlast] at hsame
  exact ⟨rfl, hsize, hidle, hlisted, hout, hsame⟩

end Station

end Switchboard.Logic

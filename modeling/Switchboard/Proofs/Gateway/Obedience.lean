import Switchboard.Proofs.Config
import Switchboard.Proofs.Decimal
import Switchboard.Proofs.Gateway.Journal
import Switchboard.Proofs.Gateway.Stranding

/-!
# Obedience — a command is carried out as a whole, or not at all

A command says in texts what it wants: a kind, a user, and groups between commas. One text out of
order, and nothing happens. Otherwise every session of the user, and no other, gets what the kind
says; the same command once more finds nothing left to do.
-/

namespace Switchboard.Gateway

open Session
open Wire (Command)
open List (Forall₂)

namespace Request

/-! ## 1. What a command asks for -/

/-- The text is the numeral of an id, and may have blanks around it. -/
def IsId (text : List Char) (id : Int64) : Prop :=
  Decimal.Numeral (Text.trimChars text) id.toInt

/-- The texts between commas, without the blank ones. -/
def parts (text : List Char) : List (List Char) :=
  (Text.fields ',' text).filter fun part => !part.all Text.isBlank

def NamesUser (c : Command) (uid : Int64) : Prop :=
  ∃ text, c.args.get? "uid" = some text ∧ IsId text.toList uid

/-- The groups in the order of their texts; one may come twice. -/
def NamesGroups (c : Command) (gids : List Int64) : Prop :=
  ∃ text, c.args.get? "gids" = some text ∧ Forall₂ IsId (parts text.toList) gids

inductive Asks (c : Command) : Request → Prop
  | subscribe {uid : Int64} {gids : List Int64} (hkind : c.kind = "sub_group")
      (huid : NamesUser c uid) (hgids : NamesGroups c gids) : Asks c (.subscribe uid gids)
  | unsubscribe {uid : Int64} {gids : List Int64} (hkind : c.kind = "unsub_group")
      (huid : NamesUser c uid) (hgids : NamesGroups c gids) : Asks c (.unsubscribe uid gids)
  | kick {uid : Int64} (hkind : c.kind = "kick_user") (huid : NamesUser c uid) :
      Asks c (.kick uid)

/-- Commands of these kinds name groups. -/
def ForGroups (c : Command) : Prop := c.kind = "sub_group" ∨ c.kind = "unsub_group"

/-- What can be out of order with a command. -/
inductive Faulty (c : Command) : Prop
  | kind (hkind : c.kind ∉ ["sub_group", "unsub_group", "kick_user"])
  | noUser (hnone : c.args.get? "uid" = none)
  | user {text : String} (htext : c.args.get? "uid" = some text)
      (hno : ∀ id, ¬ IsId text.toList id)
  | noGroups (hkind : ForGroups c) (hnone : c.args.get? "gids" = none)
  | group (hkind : ForGroups c) {text : String} (htext : c.args.get? "gids" = some text)
      {part : List Char} (hpart : part ∈ parts text.toList) (hno : ∀ id, ¬ IsId part id)

variable {c : Command} {request : Request} {uid : Int64} {gids : List Int64}

theorem readId_eq_ok_iff {name : String} {text : List Char} {id : Int64} :
    readId name text = .ok id ↔ IsId text id := by
  rw [readId, IsId, ← Decimal.readInt64_eq_ok_iff]
  cases Decimal.readInt64 (Text.trimChars text) with
  | ok x => exact ⟨fun h => congrArg _ (Except.ok.inj h), fun h => congrArg _ (Except.ok.inj h)⟩
  | error fault => exact ⟨nofun, nofun⟩

theorem argument_bind_eq_ok_iff {α : Type} {name : String} {f : String → Except Fault α} {a : α} :
    argument c name >>= f = .ok a ↔ ∃ text, c.args.get? name = some text ∧ f text = .ok a := by
  rw [argument]
  cases c.args.get? name with
  | none => exact ⟨nofun, nofun⟩
  | some value =>
    exact ⟨fun h => ⟨value, rfl, h⟩, fun ⟨text, htext, h⟩ => Option.some.inj htext ▸ h⟩

theorem uidOf_eq_ok_iff : uidOf c = .ok uid ↔ NamesUser c uid := by
  simp only [uidOf, argument_bind_eq_ok_iff, readId_eq_ok_iff, NamesUser]

theorem gidsOf_eq_ok_iff : gidsOf c = .ok gids ↔ NamesGroups c gids := by
  simp only [gidsOf, argument_bind_eq_ok_iff, readIds, Except.mapM_eq_ok_iff, readId_eq_ok_iff,
    NamesGroups, parts]

/-- A command becomes the request that it asks for. -/
theorem ofCommand?_eq_ok_iff : ofCommand? c = some (.ok request) ↔ Asks c request := by
  have hpure : ∀ r r' : Request, (pure r : Except Fault Request) = .ok r' ↔ r = r' :=
    fun r r' => ⟨Except.ok.inj, congrArg _⟩
  constructor
  · -- the kind has found one of the readers
    intro h
    obtain ⟨read, hread, hok⟩ := Option.map_eq_some_iff.1 h
    simp only [readers, List.lookup_cons, List.lookup_nil] at hread
    split at hread
    · next hkind =>
      obtain rfl := Option.some.inj hread
      simp only [Except.bind_eq_ok_iff, uidOf_eq_ok_iff, gidsOf_eq_ok_iff, hpure] at hok
      obtain ⟨uid, huid, gids, hgids, rfl⟩ := hok
      exact .subscribe (eq_of_beq hkind) huid hgids
    split at hread
    · next hkind =>
      obtain rfl := Option.some.inj hread
      simp only [Except.bind_eq_ok_iff, uidOf_eq_ok_iff, gidsOf_eq_ok_iff, hpure] at hok
      obtain ⟨uid, huid, gids, hgids, rfl⟩ := hok
      exact .unsubscribe (eq_of_beq hkind) huid hgids
    split at hread
    · next hkind =>
      obtain rfl := Option.some.inj hread
      simp only [Except.bind_eq_ok_iff, uidOf_eq_ok_iff, hpure] at hok
      obtain ⟨uid, huid, rfl⟩ := hok
      exact .kick (eq_of_beq hkind) huid
    · cases hread
  · rintro (⟨hkind, huid, hgids⟩ | ⟨hkind, huid, hgids⟩ | ⟨hkind, huid⟩)
    all_goals rw [ofCommand?, hkind]
    · rw [← uidOf_eq_ok_iff] at huid
      rw [← gidsOf_eq_ok_iff] at hgids
      simp [readers, huid, hgids, bind, Except.bind, pure, Except.pure]
    · rw [← uidOf_eq_ok_iff] at huid
      rw [← gidsOf_eq_ok_iff] at hgids
      simp [readers, List.lookup_cons, huid, hgids, bind, Except.bind, pure, Except.pure]
    · rw [← uidOf_eq_ok_iff] at huid
      simp [readers, List.lookup_cons, huid, bind, Except.bind, pure, Except.pure]

theorem exists_forall₂ {α β : Type} {R : α → β → Prop} {xs : List α} (h : ∀ x ∈ xs, ∃ y, R x y) :
    ∃ ys, Forall₂ R xs ys := by
  induction xs with
  | nil => exact ⟨[], .nil⟩
  | cons x xs ih =>
    obtain ⟨y, hy⟩ := h x List.mem_cons_self
    obtain ⟨ys, hys⟩ := ih fun x' hx' => h x' (List.mem_cons_of_mem _ hx')
    exact ⟨y :: ys, .cons hy hys⟩

theorem Asks.namesUser (h : Asks c request) : NamesUser c request.user := by
  cases h <;> assumption

theorem Asks.namesGroups (h : Asks c request) (hkind : ForGroups c) :
    ∃ gids, NamesGroups c gids := by
  cases h with
  | subscribe _ _ hgids | unsubscribe _ _ hgids => exact ⟨_, hgids⟩
  | kick hkick =>
    rcases hkind with hkind | hkind <;> exact absurd (hkick.symm.trans hkind) (by decide)

theorem Faulty.not_asks (h : Faulty c) (request : Request) : ¬ Asks c request := by
  intro hasks
  cases h with
  | kind hkind => cases hasks <;> simp_all
  | noUser hnone =>
    obtain ⟨text, htext, -⟩ := hasks.namesUser
    cases hnone.symm.trans htext
  | user htext hno =>
    obtain ⟨text', htext', hid⟩ := hasks.namesUser
    obtain rfl := Option.some.inj (htext.symm.trans htext')
    exact hno _ hid
  | noGroups hkind hnone =>
    obtain ⟨gids, text, htext, -⟩ := hasks.namesGroups hkind
    cases hnone.symm.trans htext
  | group hkind htext hpart hno =>
    obtain ⟨gids, text', htext', hids⟩ := hasks.namesGroups hkind
    obtain rfl := Option.some.inj (htext.symm.trans htext')
    obtain ⟨id, hid⟩ := exists_of_forall₂ hids hpart
    exact hno id hid

theorem exists_namesUser (h : ¬ Faulty c) : ∃ uid, NamesUser c uid := by
  cases htext : c.args.get? "uid" with
  | none => exact absurd (.noUser htext) h
  | some text =>
    by_contra hno
    exact h (.user htext fun id hid => hno ⟨id, text, htext, hid⟩)

theorem exists_namesGroups (h : ¬ Faulty c) (hkind : ForGroups c) : ∃ gids, NamesGroups c gids := by
  cases htext : c.args.get? "gids" with
  | none => exact absurd (.noGroups hkind htext) h
  | some text =>
    have hall : ∀ part ∈ parts text.toList, ∃ id, IsId part id := fun part hpart => by
      by_contra hno
      exact h (.group hkind htext hpart (not_exists.1 hno))
    obtain ⟨gids, hgids⟩ := exists_forall₂ hall
    exact ⟨gids, text, htext, hgids⟩

/-- With nothing out of order, there is something that the command asks for. -/
theorem exists_asks (h : ¬ Faulty c) : ∃ request, Asks c request := by
  obtain ⟨uid, huid⟩ := exists_namesUser h
  have hkind : c.kind ∈ ["sub_group", "unsub_group", "kick_user"] := by
    by_contra hno
    exact h (.kind hno)
  simp only [List.mem_cons, List.not_mem_nil, or_false] at hkind
  rcases hkind with hkind | hkind | hkind
  · obtain ⟨gids, hgids⟩ := exists_namesGroups h (.inl hkind)
    exact ⟨_, .subscribe hkind huid hgids⟩
  · obtain ⟨gids, hgids⟩ := exists_namesGroups h (.inr hkind)
    exact ⟨_, .unsubscribe hkind huid hgids⟩
  · exact ⟨_, .kick hkind huid⟩

end Request

/-! ## 2. What a request does -/

/-- The gateway has the same of a session as before. -/
structure Node.Spared (before after : Node) (t : SessionRef) : Prop where
  byId : after.index.byId.get? t.id = before.index.byId.get? t.id
  ofUser : after.index.ofUser t.uid = before.index.ofUser t.uid
  listed : t ∈ after.index.all ↔ t ∈ before.index.all
  groups : after.groups.groupsOf t = before.groups.groupsOf t
  members : ∀ gid, t ∈ after.groups.members gid ↔ t ∈ before.groups.members gid
  box : after.post.box t.slot = before.post.box t.slot

/-- The session is in the groups that satisfy `joined`; nobody is registered or closed otherwise
than before. -/
structure Node.Regrouped (before after : Node) (s : SessionRef) (joined : Int64 → Prop) : Prop where
  index : after.index = before.index
  post : after.post = before.post
  groups : ∀ gid, gid ∈ after.groups.groupsOf s ↔ joined gid
  members : ∀ gid, s ∈ after.groups.members gid ↔ joined gid

/-- The session is closed, and no registry has anything of it. -/
structure Node.Expelled (after : Node) (s : SessionRef) : Prop where
  byId : after.index.byId.get? s.id = none
  ofUser : s ∉ after.index.ofUser s.uid
  listed : s ∉ after.index.all
  groups : after.groups.groupsOf s = []
  members : ∀ gid, s ∉ after.groups.members gid
  closed : after.post.isClosed s = true

/-- What a session of the user gets. -/
def Request.Effect (before after : Node) (s : SessionRef) : Request → Prop
  | .subscribe _ gids =>
    before.Regrouped after s fun gid => gid ∈ before.groups.groupsOf s ∨ gid ∈ gids
  | .unsubscribe _ gids =>
    before.Regrouped after s fun gid => gid ∈ before.groups.groupsOf s ∧ gid ∉ gids
  | .kick _ => after.Expelled s

/-- The request is carried out on all sessions of its user, and on no others. -/
structure Request.Fulfilled (request : Request) (known : SessionRef → Prop) (before after : Node) :
    Prop where
  own : ∀ s ∈ before.index.ofUser request.user, request.Effect before after s
  others : ∀ t, known t → t.uid ≠ request.user → before.Spared after t
  orderly : ∃ roster, after.Orderly known roster
  pool : after.post.pool = before.post.pool

/-! ## 3. Every session of a user -/

theorem foldl_eq_self {α β : Type} {f : α → β → α} {xs : List β} {a : α}
    (h : ∀ x ∈ xs, f a x = a) : xs.foldl f a = a := by
  induction xs with
  | nil => rfl
  | cons x xs ih =>
    rw [List.foldl_cons, h x List.mem_cons_self]
    exact ih fun x' hx' => h x' (List.mem_cons_of_mem _ hx')

section Each

variable {sessions : List SessionRef} {t : SessionRef}

theorem mem_groupsOf_foldl_subscribe (g : Groups) (gids : List Int64) (gid : Int64) :
    gid ∈ (sessions.foldl (fun g s => g.subscribe s gids) g).groupsOf t ↔
      gid ∈ g.groupsOf t ∨ ((∃ s ∈ sessions, s.slot = t.slot) ∧ gid ∈ gids) := by
  induction sessions generalizing g with
  | nil => simp
  | cons s sessions ih =>
    rw [List.foldl_cons, ih, Groups.mem_groupsOf_subscribe, List.exists_mem_cons_iff]
    tauto

theorem mem_groupsOf_foldl_unsubscribe (g : Groups) (gids : List Int64) (gid : Int64) :
    gid ∈ (sessions.foldl (fun g s => g.unsubscribe s gids) g).groupsOf t ↔
      gid ∈ g.groupsOf t ∧ ¬ ((∃ s ∈ sessions, s.slot = t.slot) ∧ gid ∈ gids) := by
  induction sessions generalizing g with
  | nil => simp
  | cons s sessions ih =>
    rw [List.foldl_cons, ih, Groups.mem_groupsOf_unsubscribe, List.exists_mem_cons_iff, and_assoc,
      ← not_or, ← or_and_right]

theorem pool_foldl_close (sessions : List SessionRef) (post : Post) :
    (sessions.foldl Post.close post).pool = post.pool := by
  induction sessions generalizing post with
  | nil => rfl
  | cons s sessions ih => exact ih (post.close s)

end Each

namespace Node.Orderly

variable {node after : Node} {known : SessionRef → Prop} {roster roster' : List SessionRef}
  {uid : Int64} {s t : SessionRef}

theorem slot_ne (h : node.Orderly known roster) (ht : known t) (huid : t.uid ≠ uid) :
    ∀ s ∈ node.index.ofUser uid, s.slot ≠ t.slot := by
  intro s hs hslot
  obtain rfl := h.distinct.eq_of_slot s t (h.known_of_mem_ofUser hs) ht hslot
  exact huid (h.represents.mem_ofUser.1 hs).2

/-- Between orderly nodes, a session is spared if its place on the roster, its groups and its
mailbox are what they were. -/
theorem spared (h : node.Orderly known roster) (h' : after.Orderly known roster') (ht : known t)
    (hroster : roster'.filter (fun u => u.uid = t.uid) = roster.filter fun u => u.uid = t.uid)
    (hgroups : after.groups.groupsOf t = node.groups.groupsOf t)
    (hbox : after.post.box t.slot = node.post.box t.slot) : node.Spared after t := by
  have hlisted : t ∈ roster' ↔ t ∈ roster := by
    have hmem : t ∈ roster'.filter (fun u => u.uid = t.uid) ↔
        t ∈ roster.filter fun u => u.uid = t.uid := by rw [hroster]
    simpa using hmem
  refine ⟨?_, ?_, ?_, hgroups, ?_, hbox⟩
  · -- an id finds nobody but the known session that has it
    ext u
    rw [h.represents.get?_byId, h'.represents.get?_byId]
    constructor
    · rintro ⟨hu, hid⟩
      obtain rfl := h.distinct.eq_of_id u t (h'.known_of_mem u hu) ht hid
      exact ⟨hlisted.1 hu, rfl⟩
    · rintro ⟨hu, hid⟩
      obtain rfl := h.distinct.eq_of_id u t (h.known_of_mem u hu) ht hid
      exact ⟨hlisted.2 hu, rfl⟩
  · rw [h.represents.ofUser_eq, h'.represents.ofUser_eq, hroster]
  · rw [h.all_eq, h'.all_eq, hlisted]
  · intro gid
    rw [h.coherent.mem_iff ht, h'.coherent.mem_iff ht, hgroups]

/-- Sessions of other users are spared when only groups change, and only those of the user. -/
theorem spared_regroup (h : node.Orderly known roster) {change : Groups → SessionRef → Groups}
    (hchange : ∀ g (s t : SessionRef), s.slot ≠ t.slot → (change g s).groupsOf t = g.groupsOf t)
    (h' : { node with
      groups := (node.index.ofUser uid).foldl change node.groups }.Orderly known roster)
    (ht : known t) (huid : t.uid ≠ uid) :
    node.Spared { node with groups := (node.index.ofUser uid).foldl change node.groups } t :=
  h.spared h' ht rfl (groupsOf_foldl_of_ne hchange (h.slot_ne ht huid) node.groups) rfl

theorem fulfilled_subscribe (h : node.Orderly known roster) (uid : Int64) (gids : List Int64) :
    (Request.subscribe uid gids).Fulfilled known node
      ((Script.subscribeUser uid gids).run node).1 := by
  have h' := h.subscribeUser uid gids
  rw [Script.run_subscribeUser h.groupWriter] at h' ⊢
  refine ⟨?own, ?others, ⟨roster, h'⟩, rfl⟩
  case own =>
    intro s hs
    have hgroups : ∀ gid, gid ∈ ((node.index.ofUser uid).foldl (fun g s => g.subscribe s gids)
        node.groups).groupsOf s ↔ gid ∈ node.groups.groupsOf s ∨ gid ∈ gids := fun gid => by
      rw [mem_groupsOf_foldl_subscribe]
      exact or_congr_right (and_iff_right ⟨s, hs, rfl⟩)
    refine ⟨rfl, rfl, hgroups, fun gid => ?_⟩
    rw [h'.coherent.mem_iff (h.known_of_mem_ofUser hs)]
    exact hgroups gid
  case others =>
    intro t ht huid
    exact h.spared_regroup (fun g s t hne => g.groupsOf_subscribe_of_ne hne gids) h' ht huid

theorem fulfilled_unsubscribe (h : node.Orderly known roster) (uid : Int64) (gids : List Int64) :
    (Request.unsubscribe uid gids).Fulfilled known node
      ((Script.unsubscribeUser uid gids).run node).1 := by
  have h' := h.unsubscribeUser uid gids
  rw [Script.run_unsubscribeUser h.groupWriter] at h' ⊢
  refine ⟨?own, ?others, ⟨roster, h'⟩, rfl⟩
  case own =>
    intro s hs
    have hgroups : ∀ gid, gid ∈ ((node.index.ofUser uid).foldl (fun g s => g.unsubscribe s gids)
        node.groups).groupsOf s ↔ gid ∈ node.groups.groupsOf s ∧ gid ∉ gids := fun gid => by
      rw [mem_groupsOf_foldl_unsubscribe]
      exact and_congr_right' (not_congr (and_iff_right ⟨s, hs, rfl⟩))
    refine ⟨rfl, rfl, hgroups, fun gid => ?_⟩
    rw [h'.coherent.mem_iff (h.known_of_mem_ofUser hs)]
    exact hgroups gid
  case others =>
    intro t ht huid
    exact h.spared_regroup (fun g s t hne => g.groupsOf_unsubscribe_of_ne hne gids) h' ht huid

/-- The sessions of the user have left everything, and everyone else is where they were. -/
theorem fulfilled_kick (h : node.Orderly known roster) (uid : Int64) :
    (Request.kick uid).Fulfilled known node ((Script.kick uid).run node).1 := by
  have h' := h.kick uid
  have hkicked : ((Script.kick uid).run node).1 =
      node.kicked uid (node.index.ofUser uid) (node.index.ofUser uid) := by
    rw [Script.run_kick h.indexWriter h.groupWriter]
    rfl
  rw [hkicked] at h' ⊢
  have hall : node.index.ofUser uid ⊆ node.index.ofUser uid := List.Subset.refl _
  refine ⟨?own, ?others, ⟨_, h'⟩, pool_foldl_close _ _⟩
  case own =>
    intro s (hs : s ∈ node.index.ofUser uid)
    have hknown := h.known_of_mem_ofUser hs
    have hout : s ∉ roster.filter fun t => t.uid ≠ uid := by
      simp [(h.represents.mem_ofUser.1 hs).2]
    have hgroups : (node.kicked uid (node.index.ofUser uid)
        (node.index.ofUser uid)).groups.groupsOf s = [] :=
      (h.groupsOf_kicked hall hknown).2 (.inr hs)
    refine ⟨?_, ?_, ?_, hgroups, ?_, (h.isClosed_kicked hall hknown).2 (.inr hs)⟩
    · -- whoever had the id would be the session itself
      refine Option.eq_none_iff_forall_ne_some.2 fun u hfound => ?_
      obtain ⟨hu, hid⟩ := (h'.represents.get?_byId _ _).1 hfound
      obtain rfl := h.distinct.eq_of_id u s (h'.known_of_mem u hu) hknown hid
      exact hout hu
    · exact fun hin => hout (h'.represents.mem_ofUser.1 hin).1
    · rw [h'.all_eq]
      exact hout
    · exact (h.forall_not_mem_members_kicked hall hknown).2 hgroups
  case others =>
    intro t ht (huid : t.uid ≠ uid)
    refine h.spared h' ht ?_ ?_ ?_
    · rw [List.filter_filter]
      refine List.filter_congr fun u _ => ?_
      by_cases hu : u.uid = t.uid
      · simp [hu, huid]
      · simp [hu]
    · exact groupsOf_foldl_of_ne (fun g s t hne => g.groupsOf_unsubscribe_of_ne hne _)
        (h.slot_ne ht huid) node.groups
    · exact Keeps.box_foldl_close_of_ne (h.slot_ne ht huid) node.post

theorem fulfilled (h : node.Orderly known roster) (request : Request) :
    request.Fulfilled known node (request.script.run node).1 := by
  cases request with
  | subscribe uid gids => exact h.fulfilled_subscribe uid gids
  | unsubscribe uid gids => exact h.fulfilled_unsubscribe uid gids
  | kick uid => exact h.fulfilled_kick uid

/-! ## 4. Once more -/

/-- A request that has been carried out finds nothing left to do. -/
theorem run_again (h : node.Orderly known roster) (request : Request) :
    (request.script.run (request.script.run node).1).1 = (request.script.run node).1 := by
  have hdone := h.fulfilled request
  cases request with
  | subscribe uid gids =>
    have h' := h.subscribeUser uid gids
    simp only [Request.script, Script.run_subscribeUser h.groupWriter] at h' hdone ⊢
    rw [Script.run_subscribeUser h'.groupWriter]
    have hsame := foldl_eq_self (f := fun g s => Groups.subscribe g s gids) fun s hs =>
      h'.coherent.subscribe_of_subset h.distinct (h.known_of_mem_ofUser hs)
        fun gid hgid => ((hdone.own s hs).groups gid).2 (.inr hgid)
    exact congrArg (fun groups => { node with groups }) hsame
  | unsubscribe uid gids =>
    have h' := h.unsubscribeUser uid gids
    simp only [Request.script, Script.run_unsubscribeUser h.groupWriter] at h' hdone ⊢
    rw [Script.run_unsubscribeUser h'.groupWriter]
    have hsame := foldl_eq_self (f := fun g s => Groups.unsubscribe g s gids) fun s hs =>
      h'.coherent.unsubscribe_of_disjoint h.distinct (h.known_of_mem_ofUser hs)
        fun gid hgid hin => (((hdone.own s hs).groups gid).1 hin).2 hgid
    exact congrArg (fun groups => { node with groups }) hsame
  | kick uid =>
    have h' := h.kick uid
    have hnobody : ((Script.kick uid).run node).1.index.ofUser uid = [] := by
      rw [h'.represents.ofUser_eq, List.filter_filter]
      exact List.filter_eq_nil_iff.2 fun t _ => by simp
    rw [Request.script, Script.run_kick h'.indexWriter h'.groupWriter, hnobody,
      Index.detachUser_of_absent h'.represents hnobody]
    rfl

end Node.Orderly

/-! ## 5. Commands -/

variable {node : Node} {known : SessionRef → Prop} {roster : List SessionRef}

/-- A faulty command changes nothing, and any other one is fulfilled as it stands. No command queues
anything or takes anything out of a queue, and none does more the second time. -/
theorem fulfilled_or_faulty (h : node.Orderly known roster) (c : Command) :
    (Request.Faulty c → (node.obey c).1 = node) ∧
    (¬ Request.Faulty c → ∃ request, Request.Asks c request) ∧
    (∀ request, Request.Asks c request → request.Fulfilled known node (node.obey c).1) ∧
    (∀ slot, ((node.obey c).1.post.box slot).queue = (node.post.box slot).queue) ∧
    ((node.obey c).1.obey c).1 = (node.obey c).1 := by
  have hasked : ∀ request, Request.Asks c request → ∀ n : Node, n.obey c = request.script.run n :=
    fun request hasks n => by rw [Node.obey, Request.ofCommand?_eq_ok_iff.2 hasks]
  have hfaulty : (∀ request, ¬ Request.Asks c request) → ∀ n : Node, (n.obey c).1 = n := by
    intro hnone n
    rcases n.obey_cases c with ⟨request, hrequest, -⟩ | ⟨-, hsame⟩
    · exact absurd (Request.ofCommand?_eq_ok_iff.1 hrequest) (hnone request)
    · exact hsame
  refine ⟨fun hf => hfaulty hf.not_asks node, Request.exists_asks, ?fulfilled, node.queue_obey c,
    ?again⟩
  case fulfilled =>
    intro request hasks
    rw [hasked request hasks]
    exact h.fulfilled request
  case again =>
    by_cases hasks : ∃ request, Request.Asks c request
    · obtain ⟨request, hasks⟩ := hasks
      rw [hasked request hasks, hasked request hasks]
      exact h.run_again request
    · exact hfaulty (not_exists.1 hasks) _

/-- A session of user 2, on the node of the two devices. -/
def guest : SessionRef := ⟨2, 9, 2, "token"⟩

def sharedNode : Node :=
  ((Script.enter guest [20]).run (Crowd.devicesNode.openSession 9 2 "token" false).2).1

/-- With blanks, a plus, a zero in front and a part that does not count. -/
def wordyJoin : Command := ⟨"sub_group", .ofList [("uid", " +01 "), ("gids", "20, ,-7")]⟩

/-- Only the last group is out of order. -/
def brokenJoin : Command := ⟨"sub_group", .ofList [("uid", "1"), ("gids", "20,30,4x")]⟩

theorem fulfilled_or_faulty_shared :
    ∃ known roster, sharedNode.Orderly known roster ∧ known guest ∧
      (sharedNode.obey brokenJoin).1 = sharedNode ∧
      (∀ gid, gid ∈ (sharedNode.obey wordyJoin).1.groups.groupsOf Crowd.laptop ↔
        gid ∈ sharedNode.groups.groupsOf Crowd.laptop ∨ gid ∈ [20, -7]) ∧
      sharedNode.Spared (sharedNode.obey wordyJoin).1 guest ∧
      (sharedNode.obey ⟨"kick_user", .ofList [("uid", "1")]⟩).1.Expelled Crowd.handheld := by
  obtain ⟨roster, hdevices⟩ := Crowd.devicesNode_recorded.orderly rfl rfl
  have hshared : sharedNode.Orderly (fun t => (t = Crowd.laptop ∨ t = Crowd.handheld) ∨ t = guest)
      (roster ++ [guest]) := by
    refine (hdevices.withPost _).enter ?_ ?_ [20]
    · rintro t (rfl | rfl) <;> decide
    · rintro t (rfl | rfl) <;> decide
  have hbroken : Request.Faulty brokenJoin := by
    by_contra hno
    obtain ⟨request, hasks⟩ := Request.exists_asks hno
    have hread : some (Except.error (Request.Fault.invalid "gids" "4x")) = some (.ok request) :=
      Request.ofCommand?_eq_ok_iff.2 hasks
    cases hread
  have hwordy : Request.Asks wordyJoin (.subscribe 1 [20, -7]) :=
    Request.ofCommand?_eq_ok_iff.1 rfl
  have hkick : Request.Asks ⟨"kick_user", .ofList [("uid", "1")]⟩ (.kick 1) :=
    Request.ofCommand?_eq_ok_iff.1 rfl
  have hjoined := (fulfilled_or_faulty hshared wordyJoin).2.2.1 _ hwordy
  have hkicked := (fulfilled_or_faulty hshared _).2.2.1 _ hkick
  exact ⟨_, _, hshared, .inr rfl, (fulfilled_or_faulty hshared brokenJoin).1 hbroken,
    (hjoined.own Crowd.laptop (by decide)).groups, hjoined.others guest (.inr rfl) (by decide),
    hkicked.own Crowd.handheld (by decide)⟩

end Switchboard.Gateway

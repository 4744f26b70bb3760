import Switchboard.Proofs.Link.Broadcast
import Switchboard.Proofs.Link.Targets

/-!
# Dialling — how many links a gateway has to one logic node

A client keeps each target once, as it was given, and strips the slashes only from what it dials.
Two targets that differ in these slashes alone then have a worker each, and a logic node that both
of them reach sends every packet to the gateway twice. No two targets of a configuration do.
-/

namespace Switchboard.Link

open Gateway Wire
open Session (Handle SessionRef)

/-! ## 1. Addresses -/

variable {s t target url base : String} {targets : List String}

/-- All but the slashes at the end of the target. -/
def IsBase (target base : String) : Prop :=
  ∃ slashes : List Char, target.toList = base.toList ++ slashes ∧ (∀ c ∈ slashes, c = '/') ∧
    base.toList.getLast? ≠ some '/'

/-- The links of the target are at the address. -/
def LeadsTo (target url : String) : Prop :=
  ∃ base, IsBase target base ∧ url = base ++ "/link"

/-- Both are the same but for the slashes at their ends. -/
def SameBase (s t : String) : Prop :=
  ∃ base, IsBase s base ∧ IsBase t base

theorem trimSlashes_eq_iff : trimSlashes target = base ↔ IsBase target base := by
  rw [trimSlashes, IsBase, ← String.toList_inj, String.toList_ofList,
    Text.dropEndWhile_eq_rdropWhile, Text.rdropWhile_eq_iff]
  simp only [decide_eq_true_eq, decide_eq_false_iff_not]
  refine exists_congr fun slashes => and_congr_right fun _ => and_congr_right fun _ => ?_
  exact ⟨fun h hlast => h '/' hlast rfl, fun h c hlast hc => h (hc ▸ hlast)⟩

theorem linkUrl_eq_iff : linkUrl target = url ↔ LeadsTo target url := by
  simp only [LeadsTo, ← trimSlashes_eq_iff]
  constructor
  · exact fun h => ⟨_, rfl, h.symm⟩
  · rintro ⟨_, rfl, rfl⟩
    rfl

theorem linkUrl_inj : linkUrl s = linkUrl t ↔ SameBase s t := by
  simp only [SameBase, ← trimSlashes_eq_iff, exists_eq_left']
  rw [linkUrl, linkUrl, ← String.toList_inj, String.toList_append, String.toList_append,
    List.append_cancel_right_eq, String.toList_inj]
  exact eq_comm

theorem isBase_self (h : target.toList.getLast? ≠ some '/') : IsBase target target :=
  ⟨[], (List.append_nil _).symm, nofun, h⟩

/-! ## 2. What is dialled -/

theorem count_map_eq_one_iff {α β : Type} [DecidableEq α] [DecidableEq β] {f : α → β} {xs : List α}
    (hnodup : xs.Nodup) {x : α} (hx : x ∈ xs) :
    (xs.map f).count (f x) = 1 ↔ ∀ y ∈ xs, f y = f x → y = x := by
  rw [List.count, List.countP_map]
  constructor
  · intro hone y hy hfy
    rw [List.countP_eq_length_filter, List.length_eq_one_iff] at hone
    obtain ⟨z, hz⟩ := hone
    have honly : ∀ y ∈ xs, f y = f x → y = z := fun y hy hfy => by
      rw [← List.mem_singleton, ← hz, List.mem_filter]
      exact ⟨hy, beq_iff_eq.2 hfy⟩
    exact (honly y hy hfy).trans (honly x hx rfl).symm
  · intro honly
    have hsame : ∀ y ∈ xs, ((fun b => b == f x) ∘ f) y = true ↔ (y == x) = true := fun y hy => by
      rw [Function.comp_apply, beq_iff_eq, beq_iff_eq]
      exact ⟨honly y hy, fun h => h ▸ rfl⟩
    rw [List.countP_congr hsame]
    exact List.count_eq_one_of_mem hnodup hx

namespace Client

variable {name hostname : String}

theorem start_ofTargets (name hostname : String) (targets : List String) :
    (ofTargets name hostname targets).start.1 = (distinctTargets targets).map linkUrl := rfl

theorem mem_start_iff :
    url ∈ (ofTargets name hostname targets).start.1 ↔ ∃ t ∈ targets, LeadsTo t url := by
  simp only [start_ofTargets, List.mem_map, (firstOccurrences_distinctTargets targets).mem,
    linkUrl_eq_iff]

theorem nodup_start_iff : (ofTargets name hostname targets).start.1.Nodup ↔
    ∀ s ∈ targets, ∀ t ∈ targets, SameBase s t → s = t := by
  have hfirst := firstOccurrences_distinctTargets targets
  rw [start_ofTargets, List.nodup_map_iff_inj_on hfirst.nodup]
  simp only [hfirst.mem, linkUrl_inj]

/-- An address is dialled by one worker when one target alone leads to it. -/
theorem count_start_eq_one_iff (ht : t ∈ targets) (hurl : LeadsTo t url) :
    (ofTargets name hostname targets).start.1.count url = 1 ↔
      ∀ s ∈ targets, SameBase s t → s = t := by
  have hfirst := firstOccurrences_distinctTargets targets
  rw [start_ofTargets, ← linkUrl_eq_iff.2 hurl,
    count_map_eq_one_iff hfirst.nodup ((hfirst.mem t).2 ht)]
  simp only [hfirst.mem, linkUrl_inj]

/-! ## 3. What is heard -/

variable {node : Node} {known : SessionRef → Prop} {workers : List Worker}

/-- The text is the next item of every worker's stream, one worker after another. -/
def hearAll (now : Nat) (text : String) (workers : List Worker) (node : Node) : Option Node :=
  workers.foldlM (fun node w =>
    (w.step? now node (.item (.message (.text text)))).map (·.node)) node

/-- The workers of a fleet that dial the address. -/
def behind (fleet : List (String × Worker)) (url : String) : List Worker :=
  (fleet.filter (·.1 = url)).map Prod.snd

theorem length_behind (fleet : List (String × Worker)) (url : String) :
    (behind fleet url).length = (fleet.map Prod.fst).count url := by
  rw [behind, List.length_map, ← List.countP_eq_length_filter, List.count, List.countP_map]
  exact List.countP_congr fun _ _ => by simp

/-- Every worker that hears a packet delivers it, whoever has delivered it before. -/
theorem heard_by_all (now : Nat) (packet : Packet)
    (hstreaming : ∀ w ∈ workers, w.phase = .streaming) (hnode : node.Recorded known)
    {s : SessionRef} (hs : s ∈ node.index.all)
    (htakes : (node.post.box s.slot).takes = true) :
    ∃ node' handles, hearAll now (Envelope.encode (.packet packet)) workers node = some node' ∧
      (node'.post.box s.slot).queue = (node.post.box s.slot).queue ++ handles ∧
      handles.length = workers.length * node.copies packet s := by
  induction workers generalizing node with
  | nil => exact ⟨node, [], rfl, (List.append_nil _).symm, (Nat.zero_mul _).symm⟩
  | cons w workers ih =>
    have hdelivered := hnode.delivered packet
    obtain ⟨first, hfirst, hlength, -⟩ := hdelivered.taking s hs htakes
    obtain ⟨node', rest, hrest, hqueue, hlength'⟩ :=
      ih (fun w hw => hstreaming w (List.mem_cons_of_mem _ hw)) (hnode.deliver packet)
        (hdelivered.index ▸ hs) (node.takes_deliver packet htakes)
    have hcopies : (node.deliver packet).2.1.copies packet s = node.copies packet s := by
      rw [Node.copies, Node.copies, hdelivered.groups]
    refine ⟨node', first ++ rest, ?_, ?_, ?_⟩
    · rw [hearAll, List.foldlM_cons, Worker.step?_packet (hstreaming w List.mem_cons_self)]
      exact hrest
    · rw [hqueue, hfirst, List.append_assoc]
    · rw [List.length_append, hlength, hlength', hcopies, List.length_cons, Nat.succ_mul,
        Nat.add_comm]

/-- The client of a configured gateway dials its targets as they are, and none of them twice. -/
theorem start_linkClient {env : Environment} {config : GatewayConfig}
    (h : Config.gateway env = .ok config) (process salt : String) :
    (Startup.linkClient config process salt hostname).start.1 =
        config.linkTargets.map (· ++ "/link") ∧
      (Startup.linkClient config process salt hostname).start.1.Nodup := by
  obtain ⟨raw, hraw, hne⟩ := Config.hasTarget_of_gateway h
  have htargets : config.linkTargets = Config.readTargets raw :=
    ((Config.gateway_eq_ok_iff hraw hne).1 h).2.2.1
  have hbase : ∀ t ∈ config.linkTargets, IsBase t t := fun t ht => by
    obtain ⟨part, -, -, hleaves⟩ := Config.mem_readTargets_iff.1 (htargets ▸ ht)
    exact isBase_self hleaves.getLast
  have hnodup : config.linkTargets.Nodup :=
    htargets ▸ (Config.firstOccurrences_readTargets raw).nodup
  constructor
  · rw [Startup.linkClient, start_ofTargets, distinctTargets_of_nodup hnodup]
    exact List.map_congr_left fun t ht => linkUrl_eq_iff.2 ⟨t, hbase t ht, rfl⟩
  · refine nodup_start_iff.2 fun s hs t ht hst => ?_
    -- each of them is its own base
    obtain ⟨base, hsbase, htbase⟩ := hst
    rw [← trimSlashes_eq_iff.2 (hbase s hs), ← trimSlashes_eq_iff.2 (hbase t ht),
      trimSlashes_eq_iff.2 hsbase, trimSlashes_eq_iff.2 htbase]

/-- Every target that a client is given is dialled, once for each different target with that base.
So no address is dialled twice exactly when no two different targets have one base, and then every
session gets a packet once from each logic node. The targets of a configuration are of this kind. -/
theorem dialled_once_iff (name hostname : String) (targets : List String) :
    let dialled := (ofTargets name hostname targets).start.1
    (∃ firsts, FirstOccurrences targets firsts ∧ List.Forall₂ LeadsTo firsts dialled) ∧
    (ofTargets name hostname targets).start.2.1.start.1 = [] ∧
    (∀ url, url ∈ dialled ↔ ∃ t ∈ targets, LeadsTo t url) ∧
    (dialled.Nodup ↔ ∀ s ∈ targets, ∀ t ∈ targets, SameBase s t → s = t) ∧
    (∀ t ∈ targets, ∀ url, LeadsTo t url →
      (dialled.count url = 1 ↔ ∀ s ∈ targets, SameBase s t → s = t)) ∧
    (∀ (fleet : List (String × Worker)) url now packet (node : Node) known s,
      fleet.map Prod.fst = dialled → (∀ w ∈ behind fleet url, w.phase = .streaming) →
      node.Recorded known → s ∈ node.index.all → (node.post.box s.slot).takes = true →
      ∃ node' handles,
        hearAll now (Envelope.encode (.packet packet)) (behind fleet url) node = some node' ∧
        (node'.post.box s.slot).queue = (node.post.box s.slot).queue ++ handles ∧
        handles.length = dialled.count url * node.copies packet s) ∧
    ∀ (env : Environment) config process salt, Config.gateway env = .ok config →
      (Startup.linkClient config process salt hostname).start.1 =
          config.linkTargets.map (· ++ "/link") ∧
        (Startup.linkClient config process salt hostname).start.1.Nodup := by
  refine ⟨⟨_, firstOccurrences_distinctTargets targets, ?each⟩, rfl, fun _ => mem_start_iff,
    nodup_start_iff, fun _ ht _ => count_start_eq_one_iff ht, ?heard,
    fun _ _ process salt h => start_linkClient h process salt⟩
  case each =>
    rw [start_ofTargets, List.forall₂_map_right_iff, List.forall₂_same]
    exact fun _ _ => linkUrl_eq_iff.1 rfl
  case heard =>
    intro fleet url now packet node known s hfleet hstreaming hnode hs htakes
    rw [← hfleet, ← length_behind]
    exact heard_by_all now packet hstreaming hnode hs htakes

/-- One target is given twice, with its slash each time. -/
def repeatedTargets : List String :=
  ["ws://logic-1:39099/", "ws://logic-2:39099", "ws://logic-1:39099/"]

/-- A worker on its link for each of the targets. -/
def linkedFleet (targets : List String) : List (String × Worker) :=
  (ofTargets "gw" "host" targets).start.1.map fun url => (url, ⟨.streaming, {}⟩)

theorem streaming_behind_linkedFleet (targets : List String) (url : String) :
    ∀ w ∈ behind (linkedFleet targets) url, w.phase = .streaming := by
  intro w hw
  obtain ⟨p, hp, rfl⟩ := List.mem_map.1 hw
  obtain ⟨url', -, rfl⟩ := List.mem_map.1 (List.mem_filter.1 hp).1
  rfl

theorem map_fst_linkedFleet (targets : List String) :
    (linkedFleet targets).map Prod.fst = (ofTargets "gw" "host" targets).start.1 := by
  rw [linkedFleet, List.map_map]
  exact List.map_id _

theorem dialled_once_iff_repeated :
    (∀ s ∈ repeatedTargets, SameBase s "ws://logic-1:39099/" → s = "ws://logic-1:39099/") ∧
    (ofTargets "gw" "host" repeatedTargets).start.1.count "ws://logic-1:39099/link" = 1 ∧
    (∃ node' handles,
      hearAll 0 (Envelope.encode (.packet (.forGroups [10] [0, 255])))
        (behind (linkedFleet repeatedTargets) "ws://logic-1:39099/link") loungeNode = some node' ∧
      (node'.post.box 0).queue = handles ∧ handles.length = 1) ∧
    ∃ config, Config.gateway (Config.gatewayVariables "1:red" "1:10") = .ok config ∧
      (Startup.linkClient config "7" "a" "host").start.1 = ["ws://logic-1:39099/link"] := by
  obtain ⟨-, -, -, hnodup, hcount, hheard, hconfigured⟩ :=
    dialled_once_iff "gw" "host" repeatedTargets
  have hmem : "ws://logic-1:39099/" ∈ repeatedTargets := by decide
  have hurl : LeadsTo "ws://logic-1:39099/" "ws://logic-1:39099/link" :=
    linkUrl_eq_iff.1 (by decide +kernel)
  have hone : ∀ s ∈ repeatedTargets, SameBase s "ws://logic-1:39099/" →
      s = "ws://logic-1:39099/" :=
    fun s hs => hnodup.1 (by decide +kernel) s hs _ hmem
  have hcounted := (hcount _ hmem _ hurl).2 hone
  obtain ⟨node', handles, hnode', hqueue, hlength⟩ :=
    hheard (linkedFleet repeatedTargets) "ws://logic-1:39099/link" 0 (.forGroups [10] [0, 255])
      loungeNode _ ⟨0, 1, 100, "token"⟩ (map_fst_linkedFleet _) (streaming_behind_linkedFleet _ _)
      loungeNode_recorded (by decide) (by decide)
  rw [hcounted] at hlength
  refine ⟨hone, hcounted, ⟨node', handles, hnode', hqueue, hlength⟩, ?_⟩
  have hconfig : Config.gateway (Config.gatewayVariables "1:red" "1:10") =
      .ok ⟨["ws://logic-1:39099"], "chatlink-gw", [(1, "red")], [(1, [10])]⟩ := by decide +kernel
  exact ⟨_, hconfig, (hconfigured _ _ "7" "a" hconfig).1⟩

/-- The slash of one of the two targets is not stripped before they are compared, so both reach the
same logic node, and a session that a packet names once gets it twice. -/
theorem dialled_twice :
    (ofTargets "gw" "host" ["ws://logic-1:39099", "ws://logic-1:39099/"]).start.1 =
      ["ws://logic-1:39099/link", "ws://logic-1:39099/link"] ∧
    ¬ (ofTargets "gw" "host" ["ws://logic-1:39099", "ws://logic-1:39099/"]).start.1.Nodup ∧
    ∃ node', hearAll 0 (Envelope.encode (.packet (.forGroups [10] [0, 255])))
        (behind (linkedFleet ["ws://logic-1:39099", "ws://logic-1:39099/"])
          "ws://logic-1:39099/link") loungeNode = some node' ∧
      loungeNode.copies (.forGroups [10] [0, 255]) ⟨0, 1, 100, "token"⟩ = 1 ∧
      (loungeNode.post.box 0).queue = [] ∧ (node'.post.box 0).queue.length = 2 := by
  obtain ⟨node', handles, hnode', hqueue, hlength⟩ :=
    heard_by_all 0 (.forGroups [10] [0, 255])
      (streaming_behind_linkedFleet ["ws://logic-1:39099", "ws://logic-1:39099/"]
        "ws://logic-1:39099/link")
      loungeNode_recorded (s := ⟨0, 1, 100, "token"⟩) (by decide) (by decide)
  refine ⟨by decide +kernel, by decide +kernel, node', hnode', by decide, by decide, ?_⟩
  rw [hqueue, List.length_append, hlength, length_behind, map_fst_linkedFleet]
  decide +kernel

end Client

end Switchboard.Link

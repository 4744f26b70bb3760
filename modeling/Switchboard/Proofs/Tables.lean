import Switchboard.Proofs.Listing

/-!
# Tables — which texts are tables, and what is out of order with the others

A table is a list of entries between commas, and one entry out of order keeps a gateway from being
configured at all. The fault is then that of the leftmost such entry, with the tokens before the
groups.
-/

namespace Switchboard.Config

open Decimal (Misspelled Spelled)
open Text (Listing)

/-! ## 1. Entries in order -/

/-- The entry of a token and its user. -/
structure TokenEntry (entry : List Char) (pair : Int64 × String) : Prop where
  comma : ',' ∉ pair.2.toList
  trimmed : Text.Trimmed pair.2.toList
  written : ∃ user token, entry = user ++ ':' :: token ∧ Spelled user pair.1 ∧
    Text.Padded pair.2.toList token

/-- The entry of a user and their groups. -/
def GroupEntry (entry : List Char) (pair : Int64 × List Int64) : Prop :=
  ∃ user gids, entry = user ++ ':' :: gids ∧ Spelled user pair.1 ∧ Listing '|' Spelled gids pair.2

variable {entry : List Char} {fault : Fault}

theorem not_mem_entry {user rest : List Char} {uid : Int64} (huser : Spelled user uid)
    (hrest : ',' ∉ rest) : ',' ∉ user ++ ':' :: rest := by
  rw [List.mem_append, List.mem_cons, not_or, not_or]
  exact ⟨huser.not_mem (by decide), by decide, hrest⟩

theorem not_isBlank_entry (user rest : List Char) : ¬ Text.IsBlank (user ++ ':' :: rest) := by
  intro h
  exact absurd (h ':' (by simp)) (by decide)

theorem whole_tokenEntry : Text.Whole ',' TokenEntry := by
  rintro entry pair ⟨hcomma, -, user, token, rfl, huser, hpadded⟩
  refine ⟨not_mem_entry huser fun hmem => ?_, not_isBlank_entry user token⟩
  rcases hpadded.mem_or_isBlank hmem with hin | hblank
  · exact hcomma hin
  · exact absurd hblank (by decide)

theorem whole_groupEntry : Text.Whole ',' GroupEntry := by
  rintro entry pair ⟨user, gids, rfl, huser, hgids⟩
  have hcomma : ',' ∉ gids :=
    hgids.not_mem (by decide) (by decide) fun _ _ h => h.not_mem (by decide)
  exact ⟨not_mem_entry huser hcomma, not_isBlank_entry user gids⟩

/-- The user comes before the first colon, since no numeral has one. -/
theorem splitFirst?_of_spelled {user : List Char} {uid : Int64} (h : Spelled user uid)
    (rest : List Char) : Text.splitFirst? ':' (user ++ ':' :: rest) = some (user, rest) :=
  Text.splitFirst?_append (h.not_mem (by decide)) rest

theorem readTokenEntry_eq_ok_iff (hcomma : ',' ∉ entry) {pair : Int64 × String} :
    readTokenEntry entry = .ok pair ↔ TokenEntry entry pair := by
  constructor
  · intro h
    unfold readTokenEntry at h
    split at h
    · cases h
    next user token hsplit =>
    split at h
    · cases h
    next uid huid =>
    obtain rfl := Except.ok.inj h
    obtain ⟨rfl, -⟩ := Text.eq_of_splitFirst? hsplit
    have htoken : Text.trimChars token = (String.ofList (Text.trimChars token)).toList :=
      String.toList_ofList.symm
    obtain ⟨hpadded, htrimmed⟩ := Text.trimChars_eq_iff.1 htoken
    refine ⟨fun hmem => hcomma ?_, htrimmed, user, token, rfl,
      Decimal.readInt64_trimChars_eq_ok_iff.1 huid, hpadded⟩
    exact List.mem_append_right _ (List.mem_cons_of_mem _ (hpadded.subset hmem))
  · rintro ⟨-, htrimmed, user, token, rfl, huser, hpadded⟩
    unfold readTokenEntry
    rw [splitFirst?_of_spelled huser]
    dsimp only
    rw [Decimal.readInt64_trimChars_eq_ok_iff.2 huser, Text.trimChars_eq_iff.2 ⟨hpadded, htrimmed⟩,
      String.ofList_toList]

theorem readGid_eq_ok_iff {part : List Char} {gid : Int64} :
    readGid part = .ok gid ↔ Spelled part gid := by
  rw [readGid, Except.mapError_eq_ok_iff, Decimal.readInt64_trimChars_eq_ok_iff]

theorem readGids_eq_ok_iff {gids : List Char} {list : List Int64} :
    (entries '|' gids).mapM readGid = .ok list ↔ Listing '|' Spelled gids list :=
  Text.mapM_entries_eq_ok_iff rfl (Decimal.whole_spelled (by decide)) fun _ _ _ => readGid_eq_ok_iff

/-- Of the ids of groups, the leftmost that is none is the fault. -/
theorem readGids_eq_error_iff {parts : List (List Char)} :
    parts.mapM readGid = .error fault ↔
      ∃ f, Leftmost (fun part => ∃ gid, Spelled part gid) (Misspelled · f) parts ∧
        .groupGid f = fault := by
  have hfault : ∀ part, readGid part = .error fault ↔
      ∃ f, Misspelled part f ∧ .groupGid f = fault := fun part => by
    rw [readGid]
    simp only [← Decimal.readInt64_trimChars_eq_error_iff]
    cases Decimal.readInt64 (Text.trimChars part) <;> simp [Except.mapError]
  simp only [mapM_eq_error_iff, readGid_eq_ok_iff, hfault, leftmost_exists, leftmost_and_right]

theorem readGroupEntry_eq_ok {pair : Int64 × List Int64} :
    readGroupEntry entry = .ok pair ↔ GroupEntry entry pair := by
  simp only [readGroupEntry_eq_ok_iff, Decimal.readInt64_trimChars_eq_ok_iff, readGids_eq_ok_iff]
  constructor
  · rintro ⟨user, gids, hsplit, huser, hgids⟩
    exact ⟨user, gids, (Text.eq_of_splitFirst? hsplit).1, huser, hgids⟩
  · rintro ⟨user, gids, rfl, huser, hgids⟩
    exact ⟨user, gids, splitFirst?_of_spelled huser gids, huser, hgids⟩

theorem readTokens_eq_ok_iff {raw : String} {pairs : List (Int64 × String)} :
    readTokens raw = .ok pairs ↔ Listing ',' TokenEntry raw.toList pairs :=
  Text.mapM_entries_eq_ok_iff rfl whole_tokenEntry fun _ hcomma _ =>
    readTokenEntry_eq_ok_iff hcomma

theorem readGroups_eq_ok_iff {raw : String} {pairs : List (Int64 × List Int64)} :
    readGroups raw = .ok pairs ↔ Listing ',' GroupEntry raw.toList pairs :=
  Text.mapM_entries_eq_ok_iff rfl whole_groupEntry fun _ _ _ => readGroupEntry_eq_ok

/-! ## 2. Entries out of order -/

/-- An entry of one of the tables. -/
inductive Entry where
  | token (text : List Char)
  | group (text : List Char)
  deriving DecidableEq

namespace Entry

def text : Entry → List Char
  | token text | group text => text

/-- The ids that the entry has after its colon. -/
def gids : Entry → (rest : List Char) → List (List Char)
  | token _, _ => []
  | group _, rest => entries '|' rest

def colonFault : Entry → Fault
  | token _ => .tokenEntry
  | group _ => .groupEntry

def userFault : Entry → Decimal.Fault → Fault
  | token _ => .tokenUid
  | group _ => .groupUid

/-- There is no colon, or an id that is none: the user's, or one of the groups. -/
def Malformed (e : Entry) : Prop :=
  ':' ∉ e.text ∨ ∃ user rest, e.text = user ++ ':' :: rest ∧ ':' ∉ user ∧
    ((∀ uid, ¬ Spelled user uid) ∨ ∃ part ∈ e.gids rest, ∀ gid, ¬ Spelled part gid)

/-- What is first found out of order, from the left. -/
inductive Spoiled (e : Entry) : Fault → Prop
  | colon (hcolon : ':' ∉ e.text) : Spoiled e e.colonFault
  | user {user rest : List Char} {fault : Decimal.Fault} (htext : e.text = user ++ ':' :: rest)
      (hcolon : ':' ∉ user) (huser : Misspelled user fault) : Spoiled e (e.userFault fault)
  | gid {user rest : List Char} {uid : Int64} {fault : Decimal.Fault}
      (htext : e.text = user ++ ':' :: rest) (huser : Spelled user uid)
      (hgids : Leftmost (fun part => ∃ gid, Spelled part gid) (Misspelled · fault) (e.gids rest)) :
      Spoiled e (.groupGid fault)

/-- Reads an entry of either kind, for its fault only. -/
def check : Entry → Except Fault Unit
  | token text => (readTokenEntry text).map fun _ => ()
  | group text => (readGroupEntry text).map fun _ => ()

variable {e : Entry}

theorem check_eq (e : Entry) :
    e.check = match Text.splitFirst? ':' e.text with
      | none => .error e.colonFault
      | some (user, rest) =>
        match Decimal.readInt64 (Text.trimChars user) with
        | .error fault => .error (e.userFault fault)
        | .ok _ => ((e.gids rest).mapM readGid).map fun _ => () := by
  cases e with
  | token text =>
    simp only [check, readTokenEntry, Entry.text]
    cases Text.splitFirst? ':' text with
    | none => rfl
    | some p =>
      dsimp only
      cases Decimal.readInt64 (Text.trimChars p.1) <;> rfl
  | group text =>
    simp only [check, readGroupEntry, Entry.text]
    cases Text.splitFirst? ':' text with
    | none => rfl
    | some p =>
      dsimp only [Entry.gids]
      cases Decimal.readInt64 (Text.trimChars p.1) with
      | error fault => rfl
      | ok uid => cases (entries '|' p.2).mapM readGid <;> rfl

variable {user rest : List Char}

theorem spoiled_iff_of_none (hsplit : Text.splitFirst? ':' e.text = none) :
    e.Spoiled fault ↔ fault = e.colonFault := by
  have hcolon := Text.splitFirst?_eq_none_iff.1 hsplit
  constructor
  · intro h
    cases h with
    | colon => rfl
    | user htext | gid htext =>
      rw [htext] at hcolon
      exact absurd (by simp) hcolon
  · rintro rfl
    exact .colon hcolon

theorem spoiled_iff_of_some (hsplit : Text.splitFirst? ':' e.text = some (user, rest)) :
    e.Spoiled fault ↔ (∃ f, Misspelled user f ∧ e.userFault f = fault) ∨
      (∃ uid, Spelled user uid) ∧ ∃ f, Leftmost (fun part => ∃ gid, Spelled part gid)
        (Misspelled · f) (e.gids rest) ∧ .groupGid f = fault := by
  obtain ⟨htext, hcolon⟩ := Text.eq_of_splitFirst? hsplit
  constructor
  · intro h
    cases h with
    | colon hno =>
      rw [htext] at hno
      exact absurd (by simp) hno
    | user htext' hcolon' huser =>
      rw [htext', Text.splitFirst?_append hcolon'] at hsplit
      cases hsplit
      exact .inl ⟨_, huser, rfl⟩
    | gid htext' huser hgids =>
      rw [htext', splitFirst?_of_spelled huser] at hsplit
      cases hsplit
      exact .inr ⟨⟨_, huser⟩, _, hgids, rfl⟩
  · rintro (⟨f, huser, rfl⟩ | ⟨⟨uid, huser⟩, f, hgids, rfl⟩)
    · exact .user htext hcolon huser
    · exact .gid htext huser hgids

/-- Checking finds what is first out of order. -/
theorem check_eq_error_iff : e.check = .error fault ↔ e.Spoiled fault := by
  rw [check_eq]
  cases hsplit : Text.splitFirst? ':' e.text with
  | none =>
    rw [spoiled_iff_of_none hsplit]
    exact ⟨fun h => (Except.error.inj h).symm, fun h => congrArg _ h.symm⟩
  | some p =>
    obtain ⟨user, rest⟩ := p
    rw [spoiled_iff_of_some hsplit, ← readGids_eq_error_iff]
    simp only [← Decimal.readInt64_trimChars_eq_error_iff, ← Decimal.readInt64_trimChars_eq_ok_iff]
    cases hread : Decimal.readInt64 (Text.trimChars user) with
    | error f => simp
    | ok uid => simp [Except.map_eq_error_iff]

theorem malformed_iff : e.Malformed ↔ ∃ fault, e.Spoiled fault := by
  cases hsplit : Text.splitFirst? ':' e.text with
  | none =>
    simp only [spoiled_iff_of_none hsplit, exists_eq]
    exact iff_true_intro (.inl (Text.splitFirst?_eq_none_iff.1 hsplit))
  | some p =>
    obtain ⟨user, rest⟩ := p
    obtain ⟨htext, hcolon⟩ := Text.eq_of_splitFirst? hsplit
    have hids : e.Malformed ↔
        (∀ uid, ¬ Spelled user uid) ∨ ∃ part ∈ e.gids rest, ∀ gid, ¬ Spelled part gid := by
      constructor
      · rintro (hno | ⟨user', rest', htext', hcolon', h⟩)
        · rw [htext] at hno
          exact absurd (by simp) hno
        · rw [htext', Text.splitFirst?_append hcolon'] at hsplit
          cases hsplit
          exact h
      · exact fun h => .inr ⟨user, rest, htext, hcolon, h⟩
    have hgids : (∃ f, Leftmost (fun part => ∃ gid, Spelled part gid) (Misspelled · f)
        (e.gids rest)) ↔ ∃ part ∈ e.gids rest, ∀ gid, ¬ Spelled part gid := by
      rw [← leftmost_exists]
      simp only [Decimal.exists_misspelled_iff]
      exact exists_leftmost_iff fun part _ => not_exists.symm
    rw [hids, ← Decimal.exists_misspelled_iff, ← hgids]
    simp only [spoiled_iff_of_some hsplit]
    constructor
    · -- the ids of the groups count only after that of the user
      intro h
      by_cases huser : ∃ uid, Spelled user uid
      · rcases h with ⟨f, hf⟩ | ⟨f, hf⟩
        · exact ⟨_, .inl ⟨f, hf, rfl⟩⟩
        · exact ⟨_, .inr ⟨huser, f, hf, rfl⟩⟩
      · obtain ⟨f, hf⟩ := Decimal.exists_misspelled_iff.2 (not_exists.1 huser)
        exact ⟨_, .inl ⟨f, hf, rfl⟩⟩
    · rintro ⟨fault, ⟨f, hf, -⟩ | ⟨-, f, hf, -⟩⟩
      · exact .inl ⟨f, hf⟩
      · exact .inr ⟨f, hf⟩

theorem exists_check_iff : (∃ u, e.check = .ok u) ↔ ¬ e.Malformed := by
  rw [malformed_iff]
  simp only [← check_eq_error_iff]
  cases e.check <;> simp

end Entry

/-! ## 3. Environments -/

variable {env : Environment}

/-- The mode is a gateway's, in whatever case its letters are. -/
def IsGateway (env : Environment) : Prop :=
  ∃ mode, text? env "CHATLINK_MODE" = some mode ∧ Text.lowerAscii mode = "gateway"

def HasTarget (env : Environment) : Prop :=
  ∃ raw, text? env "CHATLINK_LINK_TARGETS" = some raw ∧ readTargets raw ≠ []

/-- The entries of a variable that are not blank. A variable that is no text has none. -/
def entriesOf (env : Environment) (name : String) : List (List Char) :=
  match text? env name with
  | none => []
  | some raw => entries ',' raw.toList

/-- What the tables have, the tokens first. -/
def tableEntries (env : Environment) : List Entry :=
  (entriesOf env "CHATLINK_ACCESS_TOKENS").map .token ++
    (entriesOf env "CHATLINK_USER_GROUPS").map .group

/-- The variable is a listing of the items, or there are none of either. -/
def Lays {α : Type} (env : Environment) (name : String) (W : List Char → α → Prop)
    (xs : List α) : Prop :=
  match text? env name with
  | none => xs = []
  | some raw => Listing ',' W raw.toList xs

theorem table_eq_mapM {α : Type} (read : List Char → Except Fault α) (name : String) :
    table (fun raw => (entries ',' raw.toList).mapM read) (text? env name) =
      (entriesOf env name).mapM read := by
  rw [entriesOf]
  cases text? env name <;> rfl

def nameStemOf (env : Environment) : String :=
  match text? env "CHATLINK_NAME_PREFIX" with
  | some stem => if stem = "" then "chatlink-gw" else stem
  | none => "chatlink-gw"

/-- With a target, only the tables can keep a gateway from being configured. -/
theorem gateway_eq {raw : String} (hraw : text? env "CHATLINK_LINK_TARGETS" = some raw)
    (hne : readTargets raw ≠ []) :
    gateway env = do
      let accessTokens ← (entriesOf env "CHATLINK_ACCESS_TOKENS").mapM readTokenEntry
      let userGroups ← (entriesOf env "CHATLINK_USER_GROUPS").mapM readGroupEntry
      return { linkTargets := readTargets raw, nameStem := nameStemOf env, accessTokens,
               userGroups } := by
  obtain ⟨bytes, hbytes, hdecode⟩ := Option.bind_eq_some_iff.1 hraw
  have hsome : (readTargets raw).isEmpty = false := List.isEmpty_eq_false_iff.2 hne
  rw [← table_eq_mapM, ← table_eq_mapM]
  unfold gateway
  simp only [hbytes, hdecode, pure_bind, hsome, Bool.false_eq_true, if_false]
  rfl

/-- Without a target there is no gateway. -/
theorem hasTarget_of_gateway {config : GatewayConfig} (h : gateway env = .ok config) :
    HasTarget env := by
  unfold gateway at h
  simp only [bind, Except.bind, pure, Except.pure, throw, throwThe, MonadExceptOf.throw] at h
  split at h
  · cases h
  next bytes hbytes =>
  split at h
  · cases h
  next raw hraw =>
  split at h
  · cases h
  next hsome =>
  refine ⟨raw, ?_, fun hnil => hsome (List.isEmpty_iff.2 hnil)⟩
  rw [text?, hbytes]
  exact hraw

theorem lays_iff {α : Type} {W : List Char → α → Prop} {read : List Char → Except Fault α}
    {name : String} {xs : List α}
    (hread : ∀ raw : String,
      (entries ',' raw.toList).mapM read = .ok xs ↔ Listing ',' W raw.toList xs) :
    Lays env name W xs ↔ (entriesOf env name).mapM read = .ok xs := by
  rw [Lays, entriesOf]
  cases text? env name with
  | none => exact ⟨fun h => h ▸ rfl, fun h => (Except.ok.inj h).symm⟩
  | some raw => exact (hread raw).symm

theorem gateway_eq_ok_iff {raw : String} (hraw : text? env "CHATLINK_LINK_TARGETS" = some raw)
    (hne : readTargets raw ≠ []) {config : GatewayConfig} :
    gateway env = .ok config ↔
      Lays env "CHATLINK_ACCESS_TOKENS" TokenEntry config.accessTokens ∧
      Lays env "CHATLINK_USER_GROUPS" GroupEntry config.userGroups ∧
      config.linkTargets = readTargets raw ∧ config.nameStem = nameStemOf env := by
  rw [lays_iff fun _ => readTokens_eq_ok_iff, lays_iff fun _ => readGroups_eq_ok_iff,
    gateway_eq hraw hne]
  simp only [Except.bind_eq_ok_iff]
  constructor
  · rintro ⟨tokens, htokens, groups, hgroups, h⟩
    obtain rfl := Except.ok.inj h
    exact ⟨htokens, hgroups, rfl, rfl⟩
  · rintro ⟨htokens, hgroups, htargets, hstem⟩
    refine ⟨_, htokens, _, hgroups, ?_⟩
    rw [← htargets, ← hstem]
    rfl

/-- What keeps a gateway with a target from being configured is the leftmost entry out of order. -/
theorem gateway_eq_error_iff {raw : String} (hraw : text? env "CHATLINK_LINK_TARGETS" = some raw)
    (hne : readTargets raw ≠ []) :
    gateway env = .error fault ↔
      Leftmost (fun e => ¬ e.Malformed) (Entry.Spoiled · fault) (tableEntries env) := by
  have hpure : ∀ config : GatewayConfig,
      (pure config : Except Fault GatewayConfig) ≠ .error fault := fun _ => nofun
  rw [gateway_eq hraw hne]
  simp only [Except.bind_eq_error_iff, hpure, and_false, exists_false, or_false, exists_and_right,
    mapM_eq_error_iff, exists_mapM_iff, tableEntries, leftmost_append, leftmost_map,
    List.forall_mem_map, ← Entry.exists_check_iff, ← Entry.check_eq_error_iff, Entry.check,
    Except.exists_map_eq_ok_iff, Except.map_eq_error_iff]

theorem ofEnvironment_of_gateway (h : IsGateway env) :
    ofEnvironment env = (gateway env).map fun config =>
      { port := portOf env, role := .gateway config, linkBuffer := linkBufferOf env } := by
  obtain ⟨mode, hmode, hgateway⟩ := h
  unfold ofEnvironment
  rw [hmode, Option.map_some, hgateway, if_pos rfl]
  cases gateway env <;> rfl

theorem ofEnvironment_of_logic (h : ¬ IsGateway env) :
    ofEnvironment env =
      .ok { port := portOf env, role := .logic, linkBuffer := linkBufferOf env } := by
  unfold ofEnvironment
  rw [if_neg fun hmode => h (Option.map_eq_some_iff.1 hmode)]
  rfl

/-- A table is read exactly when it is a listing of entries in order, whatever is blank in it. A
logic node is configured whatever its variables hold; a gateway with a target is unless an entry is
out of order, and the fault is that of the leftmost such entry. -/
theorem tables_laid_or_spoiled :
    (∀ raw pairs, readTokens raw = .ok pairs ↔ Listing ',' TokenEntry raw.toList pairs) ∧
    (∀ raw pairs, readGroups raw = .ok pairs ↔ Listing ',' GroupEntry raw.toList pairs) ∧
    ∀ env : Environment,
      (¬ IsGateway env → ∃ config, ofEnvironment env = .ok config ∧ config.role = .logic) ∧
      (IsGateway env → HasTarget env →
        (∀ tokens groups, Lays env "CHATLINK_ACCESS_TOKENS" TokenEntry tokens →
          Lays env "CHATLINK_USER_GROUPS" GroupEntry groups →
          ∃ config gateway, ofEnvironment env = .ok config ∧ config.role = .gateway gateway ∧
            gateway.accessTokens = tokens ∧ gateway.userGroups = groups) ∧
        ((∃ fault, ofEnvironment env = .error fault) ↔ ∃ e ∈ tableEntries env, e.Malformed) ∧
        ∀ fault, ofEnvironment env = .error fault ↔
          Leftmost (fun e => ¬ e.Malformed) (Entry.Spoiled · fault) (tableEntries env)) := by
  refine ⟨fun _ _ => readTokens_eq_ok_iff, fun _ _ => readGroups_eq_ok_iff,
    fun env => ⟨?logic, ?gateway⟩⟩
  case logic => exact fun hmode => ⟨_, ofEnvironment_of_logic hmode, rfl⟩
  case gateway =>
    rintro hmode ⟨raw, hraw, hne⟩
    have hfault (fault : Fault) : ofEnvironment env = .error fault ↔
        Leftmost (fun e => ¬ e.Malformed) (Entry.Spoiled · fault) (tableEntries env) := by
      rw [ofEnvironment_of_gateway hmode, Except.map_eq_error_iff, gateway_eq_error_iff hraw hne]
    refine ⟨fun tokens groups htokens hgroups => ?laid, ?malformed, hfault⟩
    case laid =>
      have hgateway : gateway env = .ok ⟨readTargets raw, nameStemOf env, tokens, groups⟩ :=
        (gateway_eq_ok_iff hraw hne).2 ⟨htokens, hgroups, rfl, rfl⟩
      rw [ofEnvironment_of_gateway hmode, hgateway]
      exact ⟨_, _, rfl, rfl, rfl, rfl⟩
    case malformed =>
      simp only [hfault, ← leftmost_exists, ← Entry.malformed_iff]
      exact exists_leftmost_iff fun _ _ => not_not.symm

/-! ### A gateway with untidy tables, and one with a broken entry -/

def gatewayVariables (tokens groups : String) : Environment := fun name =>
  ([("CHATLINK_MODE", "GateWay"), ("CHATLINK_LINK_TARGETS", "ws://logic-1:39099"),
    ("CHATLINK_ACCESS_TOKENS", tokens), ("CHATLINK_USER_GROUPS", groups)].lookup name).map
      Text.Utf8.encode

/-- Blanks, a plus, zeros in front, a colon in a token, and fields that are for nothing. -/
def untidyVariables : Environment := gatewayVariables " 1 :red, ,+02: blue:sky " "1:10| |-011,,2:"

/-- The second entry has no user, and the third not even a colon. -/
def brokenVariables : Environment := gatewayVariables "1:red,x2:blue,green" "3"

theorem untidy_tokens :
    Listing ',' TokenEntry " 1 :red, ,+02: blue:sky ".toList [(1, "red"), (2, "blue:sky")] := by
  have hone : Spelled " 1 ".toList 1 := Decimal.readInt64_trimChars_eq_ok_iff.1 rfl
  have htwo : Spelled "+02".toList 2 := Decimal.readInt64_trimChars_eq_ok_iff.1 rfl
  have hred : TokenEntry " 1 :red".toList (1, "red") :=
    ⟨by decide, Text.trimChars_eq_self_iff.1 rfl, _, _, rfl, hone, [], [], rfl, nofun, nofun⟩
  have hblue : TokenEntry "+02: blue:sky ".toList (2, "blue:sky") :=
    ⟨by decide, Text.trimChars_eq_self_iff.1 rfl, _, _, rfl, htwo, [' '], [' '], rfl, by decide,
      by decide⟩
  exact ⟨[" 1 :red".toList, " ".toList, "+02: blue:sky ".toList], rfl,
    .item hred (.blank (by decide) (.item hblue .nil))⟩

theorem tables_laid_or_spoiled_untidy :
    (∃ config gateway, ofEnvironment untidyVariables = .ok config ∧
      config.role = .gateway gateway ∧ gateway.accessTokens = [(1, "red"), (2, "blue:sky")] ∧
      gateway.userGroups = [(1, [10, -11]), (2, [])]) ∧
    (∃ fault, ofEnvironment brokenVariables = .error fault) ∧
    ofEnvironment brokenVariables = .error (.tokenUid .invalidDigit) := by
  obtain ⟨htokens, hgroups, hconfigured⟩ := tables_laid_or_spoiled
  have huntidy : IsGateway untidyVariables ∧ HasTarget untidyVariables :=
    ⟨⟨"GateWay", by decide +kernel, by decide +kernel⟩,
      "ws://logic-1:39099", by decide +kernel, by decide +kernel⟩
  have hbroken : IsGateway brokenVariables ∧ HasTarget brokenVariables :=
    ⟨⟨"GateWay", by decide +kernel, by decide +kernel⟩,
      "ws://logic-1:39099", by decide +kernel, by decide +kernel⟩
  have hlaid := ((hconfigured untidyVariables).2 huntidy.1 huntidy.2).1
  obtain ⟨-, hmalformed, hleftmost⟩ := (hconfigured brokenVariables).2 hbroken.1 hbroken.2
  have hentries : tableEntries brokenVariables =
      [.token "1:red".toList, .token "x2:blue".toList, .token "green".toList,
        .group "3".toList] := by decide +kernel
  have hfault : Misspelled "x2".toList .invalidDigit :=
    Decimal.readInt64_trimChars_eq_error_iff.1 rfl
  refine ⟨hlaid _ _ ?tokens ?groups, hmalformed.2 ?user, (hleftmost _).2 ?leftmost⟩
  case tokens =>
    have hraw : text? untidyVariables "CHATLINK_ACCESS_TOKENS" =
        some " 1 :red, ,+02: blue:sky " := by decide +kernel
    rw [Lays, hraw]
    exact untidy_tokens
  case groups =>
    have hraw : text? untidyVariables "CHATLINK_USER_GROUPS" = some "1:10| |-011,,2:" := by
      decide +kernel
    rw [Lays, hraw]
    exact (hgroups _ _).1 (by decide +kernel)
  case user =>
    rw [hentries]
    exact ⟨.token "x2:blue".toList, by simp, .inr ⟨"x2".toList, "blue".toList, rfl, by decide,
      .inl (Decimal.exists_misspelled_iff.1 ⟨_, hfault⟩)⟩⟩
  case leftmost =>
    have hred : ¬ (Entry.token "1:red".toList).Malformed := Entry.exists_check_iff.1 ⟨(), rfl⟩
    rw [hentries]
    exact ⟨[.token "1:red".toList], .token "x2:blue".toList, _, rfl, by simpa using hred,
      .user rfl (by decide) hfault⟩

end Switchboard.Config

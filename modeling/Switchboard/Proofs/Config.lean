import Switchboard.Config
import Switchboard.Proofs.Decimal
import Switchboard.Proofs.Text.Blank

/-!
# Config — what the tables and the link buffer of a configuration hold

A table is read entry by entry, and it is read only if all of its entries are. A link buffer is the
number that is given; where none is that could be one, there is a default.
-/

namespace Switchboard.Config

/-! ## 1. Entries -/

/-- What is read of a field is read of no blank one, so blank fields need not be left out. -/
theorem exists_mem_entries {sep : Char} {cs : List Char} {p : List Char → Prop}
    (hp : ∀ field, p field → ¬ ∀ c ∈ field, Text.isBlank c = true) :
    (∃ field ∈ entries sep cs, p field) ↔ ∃ field ∈ Text.fields sep cs, p field := by
  simp only [entries, List.mem_filter, Bool.not_eq_true', ← Bool.not_eq_true, List.all_eq_true]
  exact exists_congr fun field =>
    ⟨fun ⟨⟨hmem, _⟩, h⟩ => ⟨hmem, h⟩, fun ⟨hmem, h⟩ => ⟨⟨hmem, hp field h⟩, h⟩⟩

theorem trim_of_readTokenEntry {entry : List Char} {uid : Int64} {token : String}
    (h : readTokenEntry entry = .ok (uid, token)) : Text.trim token = token := by
  unfold readTokenEntry at h
  split at h
  · cases h
  · split at h
    · cases h
    · obtain ⟨-, rfl⟩ := Prod.mk.inj (Except.ok.inj h)
      rw [Text.trim, String.toList_ofList, Text.trimChars_trimChars]

/-- No token of a table has blanks at its ends. -/
theorem trim_of_readTokens {raw : String} {pairs : List (Int64 × String)}
    (h : readTokens raw = .ok pairs) : ∀ p ∈ pairs, Text.trim p.2 = p.2 := by
  intro p hp
  obtain ⟨entry, -, hentry⟩ := (Except.mem_iff_of_mapM h p).1 hp
  exact trim_of_readTokenEntry hentry

/-! ## 2. The table of groups -/

/-- Some field of the table has the user, and has the group among those after the colon. -/
def Lists (raw : String) (uid gid : Int64) : Prop :=
  ∃ field ∈ Text.fields ',' raw.toList, ∃ user gids,
    Text.splitFirst? ':' field = some (user, gids) ∧
    Decimal.readInt64 (Text.trimChars user) = .ok uid ∧
    ∃ part ∈ Text.fields '|' gids, Decimal.readInt64 (Text.trimChars part) = .ok gid

theorem mem_of_splitFirst? {sep : Char} {cs left right : List Char}
    (h : Text.splitFirst? sep cs = some (left, right)) : sep ∈ cs := by
  induction cs generalizing left with
  | nil => cases h
  | cons c cs ih =>
    rw [Text.splitFirst?] at h
    split at h
    · next hc => exact hc ▸ List.mem_cons_self
    · obtain ⟨⟨l, r⟩, hsplit, hlr⟩ := Option.map_eq_some_iff.1 h
      cases hlr
      exact List.mem_cons_of_mem _ (ih hsplit)

theorem readGroupEntry_eq_ok_iff {field : List Char} {e : Int64 × List Int64} :
    readGroupEntry field = .ok e ↔ ∃ user gids, Text.splitFirst? ':' field = some (user, gids) ∧
      Decimal.readInt64 (Text.trimChars user) = .ok e.1 ∧
      (entries '|' gids).mapM readGid = .ok e.2 := by
  unfold readGroupEntry
  constructor
  · intro h
    split at h
    · cases h
    · next user gids hsplit =>
      split at h
      · cases h
      · next uid huser =>
        obtain ⟨list, hlist, rfl⟩ := Except.map_eq_ok_iff.1 h
        exact ⟨user, gids, hsplit, huser, hlist⟩
  · rintro ⟨user, gids, hsplit, huser, hlist⟩
    rw [hsplit]
    dsimp only
    rw [huser, hlist]
    rfl

theorem mem_readGids_iff {gids : List Char} {list : List Int64}
    (h : (entries '|' gids).mapM readGid = .ok list) (gid : Int64) :
    gid ∈ list ↔
      ∃ part ∈ Text.fields '|' gids, Decimal.readInt64 (Text.trimChars part) = .ok gid := by
  simp only [Except.mem_iff_of_mapM h, readGid, Except.mapError_eq_ok_iff]
  refine exists_mem_entries fun part hpart hblank => ?_
  -- nothing would be left of a blank part
  rw [Text.trimChars, Text.strip_eq_nil_iff.2 hblank] at hpart
  cases hpart

/-- A table has a group for a user when one of its fields lists it. -/
theorem mem_readGroups_iff {raw : String} {table : List (Int64 × List Int64)}
    (h : readGroups raw = .ok table) (uid gid : Int64) :
    (∃ e ∈ table, e.1 = uid ∧ gid ∈ e.2) ↔ Lists raw uid gid := by
  rw [Lists, ← exists_mem_entries fun field hfield hblank => ?notBlank]
  case notBlank =>
    obtain ⟨user, gids, hsplit, -⟩ := hfield
    exact absurd (hblank ':' (mem_of_splitFirst? hsplit)) (by decide)
  constructor
  · rintro ⟨⟨_, list⟩, he, rfl, hgid⟩
    obtain ⟨field, hfield, hread⟩ := (Except.mem_iff_of_mapM h _).1 he
    obtain ⟨user, gids, hsplit, huser, hlist⟩ := readGroupEntry_eq_ok_iff.1 hread
    exact ⟨field, hfield, user, gids, hsplit, huser, (mem_readGids_iff hlist gid).1 hgid⟩
  · rintro ⟨field, hfield, user, gids, hsplit, huser, hparts⟩
    obtain ⟨e, hread⟩ := exists_of_forall₂ (Except.mapM_eq_ok_iff.1 h) hfield
    obtain ⟨user', gids', hsplit', huser', hlist⟩ := readGroupEntry_eq_ok_iff.1 hread
    cases hsplit.symm.trans hsplit'
    have huid : e.1 = uid := Except.ok.inj (huser'.symm.trans huser)
    exact ⟨e, (Except.mem_iff_of_mapM h e).2 ⟨field, hfield, hread⟩, huid,
      (mem_readGids_iff hlist gid).2 hparts⟩

/-! ## 3. A gateway's configuration -/

theorem tables_of_gateway {env : Environment} {config : GatewayConfig}
    (h : gateway env = .ok config) :
    table readTokens (text? env "CHATLINK_ACCESS_TOKENS") = .ok config.accessTokens ∧
      table readGroups (text? env "CHATLINK_USER_GROUPS") = .ok config.userGroups := by
  unfold gateway at h
  -- whatever spoils the configuration, there is then none
  simp only [bind, Except.bind, pure, Except.pure, throw, throwThe, MonadExceptOf.throw] at h
  split at h
  · cases h
  · split at h
    · cases h
    · split at h
      · cases h
      · split at h
        · cases h
        · next tokens htokens =>
          split at h
          · cases h
          · next groups hgroups =>
            cases h
            exact ⟨htokens, hgroups⟩

/-- A gateway has the tokens of its variable. -/
theorem accessTokens_of_gateway {env : Environment} {config : GatewayConfig} {raw : String}
    {pairs : List (Int64 × String)} (hconfig : gateway env = .ok config)
    (hraw : text? env "CHATLINK_ACCESS_TOKENS" = some raw) (hread : readTokens raw = .ok pairs) :
    config.accessTokens = pairs := by
  have htable := (tables_of_gateway hconfig).1
  rw [hraw] at htable
  exact Except.ok.inj (htable.symm.trans hread)

/-- And it has the groups of its variable. -/
theorem readGroups_of_gateway {env : Environment} {config : GatewayConfig} {raw : String}
    (hconfig : gateway env = .ok config) (hraw : text? env "CHATLINK_USER_GROUPS" = some raw) :
    readGroups raw = .ok config.userGroups := by
  have htable := (tables_of_gateway hconfig).2
  rwa [hraw] at htable

/-! ## 4. The link buffer -/

/-- The number that the variable of the link buffer has, if it is one of 64 bits and not zero. -/
def GivenBuffer (env : Environment) (n : Nat) : Prop :=
  ∃ text, text? env "CHATLINK_LINK_BUFFER" = some text ∧ Decimal.Numeral text.toList n ∧
    0 < n ∧ n < UInt64.size

variable {env : Environment} {n : Nat}

theorem GivenBuffer.pos (h : GivenBuffer env n) : 0 < n := by
  obtain ⟨-, -, -, hpos, -⟩ := h
  exact hpos

theorem givenBuffer_iff : GivenBuffer env n ↔ ∃ text x,
    text? env "CHATLINK_LINK_BUFFER" = some text ∧ Decimal.readUInt64 text.toList = .ok x ∧
      x ≠ 0 ∧ x.toNat = n := by
  constructor
  · rintro ⟨text, htext, hnumeral, hpos, hlt⟩
    have hvalue : (UInt64.ofNat n).toNat = n := UInt64.toNat_ofNat_of_lt' hlt
    refine ⟨text, UInt64.ofNat n, htext, Decimal.readUInt64_eq_ok_iff.2 ⟨fun ds hminus => ?_, ?_⟩,
      fun hzero => ?_, hvalue⟩
    · rw [hminus] at hnumeral
      have hnonpos := hnumeral.nonpos
      omega
    · rwa [hvalue]
    · rw [hzero] at hvalue
      exact absurd hvalue (Nat.ne_of_lt hpos)
  · rintro ⟨text, x, htext, hread, hne, rfl⟩
    have hpos : 0 < x.toNat := Nat.pos_of_ne_zero fun hzero => hne (UInt64.toNat_inj.1 hzero)
    exact ⟨text, htext, (Decimal.readUInt64_eq_ok_iff.1 hread).2, hpos, x.toNat_lt⟩

theorem toNat_linkBufferOf_of_given (h : GivenBuffer env n) : (linkBufferOf env).toNat = n := by
  obtain ⟨text, x, htext, hread, hne, rfl⟩ := givenBuffer_iff.1 h
  rw [linkBufferOf, htext, Option.map_some, hread]
  exact congrArg UInt64.toNat (if_neg hne)

theorem linkBufferOf_of_not_given (h : ∀ n, ¬ GivenBuffer env n) : linkBufferOf env = 1024 := by
  unfold linkBufferOf
  split
  · next x hx =>
    obtain ⟨text, htext, hread⟩ := Option.map_eq_some_iff.1 hx
    by_cases hzero : x = 0
    · rw [if_pos hzero]
    · exact absurd (givenBuffer_iff.2 ⟨text, x, htext, hread, hzero, rfl⟩) (h x.toNat)
  · rfl

/-- The link buffer is the number that is given, or else the default. -/
theorem toNat_linkBufferOf_eq_iff : (linkBufferOf env).toNat = n ↔
    GivenBuffer env n ∨ n = 1024 ∧ ∀ m, ¬ GivenBuffer env m := by
  by_cases hgiven : ∃ m, GivenBuffer env m
  · obtain ⟨m, hm⟩ := hgiven
    rw [toNat_linkBufferOf_of_given hm]
    constructor
    · rintro rfl
      exact .inl hm
    · rintro (hn | ⟨-, hnone⟩)
      · rw [← toNat_linkBufferOf_of_given hm, toNat_linkBufferOf_of_given hn]
      · exact absurd hm (hnone m)
  · rw [linkBufferOf_of_not_given (not_exists.1 hgiven)]
    constructor
    · rintro rfl
      exact .inr ⟨rfl, not_exists.1 hgiven⟩
    · rintro (hn | ⟨rfl, -⟩)
      · exact absurd ⟨n, hn⟩ hgiven
      · rfl

theorem linkBuffer_of_ofEnvironment {config : Config} (h : ofEnvironment env = .ok config) :
    config.linkBuffer = linkBufferOf env := by
  unfold ofEnvironment at h
  split at h
  · obtain ⟨role, -, hconfig⟩ := Except.bind_eq_ok_iff.1 h
    exact congrArg linkBuffer (Except.ok.inj hconfig).symm
  · exact congrArg linkBuffer (Except.ok.inj h).symm

end Switchboard.Config

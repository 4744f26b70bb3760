import Switchboard.Proofs.Config
import Switchboard.Proofs.Text.Utf8
import Switchboard.Startup

/-!
# Handshake — whom a token lets in

A token is trimmed when the configuration is read, trimmed again when it comes in a header, and
taken as it is when it comes in the query. A token of the configuration has no blanks at its ends,
so all three agree on it. The table keeps digests, and of several pairs with one token the last one
counts.
-/

namespace Switchboard

/-! ## 1. Visible texts -/

namespace Http

/-- A visible character of ASCII, a space or a tab. -/
def IsVisible (c : Char) : Prop := (0x20 ≤ c.toNat ∧ c.toNat ≤ 0x7e) ∨ c.toNat = 0x09

instance (c : Char) : Decidable (IsVisible c) := inferInstanceAs (Decidable (_ ∨ _))

variable {value : Bytes} {text : String}

theorem IsVisible.ascii {c : Char} (h : IsVisible c) : c.toNat < 128 := by
  unfold IsVisible at h
  omega

theorem toNat_ofNat_byte (b : UInt8) : (Char.ofNat b.toNat).toNat = b.toNat := by
  have hlt : b.toNat < 256 := b.toNat_lt
  have hvalid : b.toNat.isValidChar := Or.inl (by omega)
  rw [Char.ofNat, dif_pos hvalid]
  rfl

theorem toUInt8_ofNat_byte (b : UInt8) : (Char.ofNat b.toNat).toUInt8 = b := by
  apply UInt8.toNat_inj.1
  have hlt : b.toNat < 256 := b.toNat_lt
  have hbyte : (Char.ofNat b.toNat).toUInt8.toNat = (Char.ofNat b.toNat).toNat % 256 := rfl
  rw [hbyte, toNat_ofNat_byte, Nat.mod_eq_of_lt hlt]

theorem ofNat_toUInt8 {c : Char} (h : c.toNat < 128) : Char.ofNat c.toUInt8.toNat = c := by
  have hbyte : c.toUInt8.toNat = c.toNat % 256 := rfl
  rw [hbyte, Nat.mod_eq_of_lt (by omega), Char.ofNat_toNat]

theorem isVisible_ofNat_byte (b : UInt8) :
    IsVisible (Char.ofNat b.toNat) ↔ ((0x20 ≤ b && b ≤ 0x7e) || b = 0x09) = true := by
  have hlow : (0x20 : UInt8) ≤ b ↔ 0x20 ≤ b.toNat := UInt8.le_iff_toNat_le
  have hhigh : b ≤ (0x7e : UInt8) ↔ b.toNat ≤ 0x7e := UInt8.le_iff_toNat_le
  have htab : b = (0x09 : UInt8) ↔ b.toNat = 0x09 := UInt8.toNat_inj.symm
  rw [IsVisible, toNat_ofNat_byte]
  simp [hlow, hhigh, htab]

/-- A value is a visible text when its bytes are those of one. -/
theorem visibleText?_eq_some_iff :
    visibleText? value = some text ↔
      value = Text.Utf8.encode text ∧ ∀ c ∈ text.toList, IsVisible c := by
  have hvisible : (value.all fun b => (0x20 ≤ b && b ≤ 0x7e) || b = 0x09) = true ↔
      ∀ c ∈ value.map fun b => Char.ofNat b.toNat, IsVisible c := by
    simp only [List.all_eq_true, List.forall_mem_map, isVisible_ofNat_byte]
  unfold visibleText?
  constructor
  · intro h
    obtain ⟨hall, rfl⟩ := Option.ite_none_right_eq_some.1 h |>.imp_right Option.some.inj
    have hchars := hvisible.1 hall
    rw [String.toList_ofList]
    refine ⟨?_, hchars⟩
    rw [Text.Utf8.encode_ofList_ascii fun c hc => (hchars c hc).ascii, List.map_map]
    simp [Function.comp_def, toUInt8_ofNat_byte]
  · rintro ⟨rfl, hchars⟩
    have hbytes : Text.Utf8.encode text = text.toList.map Char.toUInt8 := by
      rw [← Text.Utf8.encode_ofList_ascii fun c hc => (hchars c hc).ascii, String.ofList_toList]
    have hback : (Text.Utf8.encode text).map (fun b => Char.ofNat b.toNat) = text.toList := by
      rw [hbytes, List.map_map]
      exact (List.map_congr_left fun c hc => ofNat_toUInt8 (hchars c hc).ascii).trans
        (List.map_id _)
    rw [hback] at hvisible
    rw [if_pos (hvisible.2 hchars), hback, String.ofList_toList]

end Http

/-! ## 2. Tokens of a request -/

namespace Auth

open Text (trim trimChars stripLead?)

/-- The token in the first authorization header, trimmed, or without such a header the one in the
query as it is. -/
inductive Presents (headers : Http.Headers) (query : Http.Query) : String → Prop where
  | bearer {rest : String}
      (hfirst : headers.first? "authorization" = some (Text.Utf8.encode ("Bearer " ++ rest)))
      (hvisible : ∀ c ∈ rest.toList, Http.IsVisible c) : Presents headers query (trim rest)
  | parameter {token : String} (habsent : headers.first? "authorization" = none)
      (hlast : query.last? "access_token" = some token) : Presents headers query token

variable {headers : Http.Headers} {query : Http.Query} {value : Bytes} {token : String}

theorem bearerToken_eq_ok_iff :
    bearerToken value = .ok token ↔ token ≠ "" ∧
      ∃ rest : String, value = Text.Utf8.encode ("Bearer " ++ rest) ∧
        (∀ c ∈ rest.toList, Http.IsVisible c) ∧ trim rest = token := by
  constructor
  · intro h
    unfold bearerToken at h
    split at h
    · cases h
    · next text htext =>
      obtain ⟨rfl, hvisible⟩ := Http.visibleText?_eq_some_iff.1 htext
      split at h
      · cases h
      · next rest hrest =>
        have hchars : text.toList = "Bearer ".toList ++ rest := Text.stripLead?_eq_some_iff.1 hrest
        have htoken : trim (.ofList rest) = .ofList (trimChars rest) := by
          rw [trim, String.toList_ofList]
        split at h
        · cases h
        · next hne =>
          obtain rfl := Except.ok.inj h
          refine ⟨by simpa [String.ext_iff] using hne, .ofList rest, ?_, ?_, htoken⟩
          · rw [← String.ofList_toList (s := text), hchars, String.ofList_append,
              String.ofList_toList]
          · intro c hc
            rw [String.toList_ofList] at hc
            exact hvisible c (hchars ▸ List.mem_append_right _ hc)
  · rintro ⟨hne, rest, rfl, hvisible, rfl⟩
    have hchars : ("Bearer " ++ rest).toList = "Bearer ".toList ++ rest.toList :=
      String.toList_append
    have htext : Http.visibleText? (Text.Utf8.encode ("Bearer " ++ rest)) =
        some ("Bearer " ++ rest) := by
      refine Http.visibleText?_eq_some_iff.2 ⟨rfl, fun c hc => ?_⟩
      rcases List.mem_append.1 (hchars ▸ hc) with hlead | hrest
      · have hscheme : "Bearer ".toList.all (fun c => Http.IsVisible c) = true := by decide
        exact of_decide_eq_true (List.all_eq_true.1 hscheme c hlead)
      · exact hvisible c hrest
    have hrest : stripLead? "Bearer ".toList ("Bearer " ++ rest).toList = some rest.toList :=
      Text.stripLead?_eq_some_iff.2 hchars
    have htrimmed : trimChars rest.toList ≠ [] := fun hnil => hne (by rw [trim, hnil])
    simp only [bearerToken, htext, hrest]
    rfl

theorem presentedToken_eq_ok_iff :
    presentedToken headers query = .ok token ↔ Presents headers query token ∧ token ≠ "" := by
  unfold presentedToken
  cases hfirst : headers.first? "authorization" with
  | some value =>
    dsimp only
    rw [bearerToken_eq_ok_iff]
    constructor
    · rintro ⟨hne, rest, rfl, hvisible, rfl⟩
      exact ⟨.bearer hfirst hvisible, hne⟩
    · rintro ⟨hpresents, hne⟩
      cases hpresents with
      | @bearer rest hbearer hvisible =>
        exact ⟨hne, rest, Option.some.inj (hfirst.symm.trans hbearer), hvisible, rfl⟩
      | parameter habsent => rw [hfirst] at habsent; cases habsent
  | none =>
    dsimp only
    cases hlast : query.last? "access_token" with
    | none =>
      refine ⟨nofun, fun ⟨hpresents, _⟩ => ?_⟩
      cases hpresents with
      | bearer hbearer => rw [hfirst] at hbearer; cases hbearer
      | parameter _ hparameter => rw [hlast] at hparameter; cases hparameter
    | some found =>
      have hpresents : Presents headers query token ↔ found = token := by
        constructor
        · intro h
          cases h with
          | bearer hbearer => rw [hfirst] at hbearer; cases hbearer
          | parameter _ hparameter => exact Option.some.inj (hlast.symm.trans hparameter)
        · rintro rfl
          exact .parameter hfirst hlast
      dsimp only
      rw [hpresents]
      split
      · next hempty => simp [hempty]
      · next hne =>
        rw [Except.ok.injEq]
        exact ⟨fun h => ⟨h, h ▸ hne⟩, And.left⟩

/-! ## 3. The table -/

/-- The last pair with this token is that of this user. -/
def LastHolder (pairs : List (Int64 × String)) (token : String) (uid : Int64) : Prop :=
  ∃ before after, pairs = before ++ (uid, token) :: after ∧ ∀ p ∈ after, p.2 ≠ token

/-- No other token of the pairs has the digest of this one. -/
def Unmistakable (pairs : List (Int64 × String)) (token : String) : Prop :=
  ∀ p ∈ pairs, tokenDigest p.2 = tokenDigest token → p.2 = token

instance (pairs : List (Int64 × String)) (token : String) : Decidable (Unmistakable pairs token) :=
  inferInstanceAs (Decidable (∀ p ∈ pairs, _ → _))

theorem get?_ofPairs {pairs : List (Int64 × String)} (h : Unmistakable pairs token) :
    (TokenTable.ofPairs pairs).users.get? (tokenDigest token) =
      (pairs.reverse.find? fun p => p.2 = token).map Prod.fst := by
  induction pairs using List.reverseRecOn with
  | nil => rfl
  | append_singleton pairs p ih =>
    have hrest : Unmistakable pairs token := fun q hq => h q (List.mem_append_left _ hq)
    have htable : TokenTable.ofPairs (pairs ++ [p]) =
        (TokenTable.ofPairs pairs).insert p.1 p.2 := by
      simp [TokenTable.ofPairs]
    have hdigest : tokenDigest p.2 = tokenDigest token ↔ p.2 = token :=
      ⟨h p (by simp), congrArg tokenDigest⟩
    rw [htable, TokenTable.insert, Table.get?_insert, ih hrest, List.reverse_append]
    by_cases hp : p.2 = token <;> simp [hdigest, hp]

theorem identify_ofPairs_eq_ok_iff {pairs : List (Int64 × String)} (h : Unmistakable pairs token)
    {uid : Int64} :
    (TokenTable.ofPairs pairs).identify token = .ok uid ↔ LastHolder pairs token uid := by
  have hok : (TokenTable.ofPairs pairs).identify token = .ok uid ↔
      (TokenTable.ofPairs pairs).users.get? (tokenDigest token) = some uid := by
    unfold TokenTable.identify
    split
    · next hget => rw [hget, Except.ok.injEq, Option.some.injEq]
    · next hget => simp [hget]
  rw [hok, get?_ofPairs h, Option.map_eq_some_iff]
  constructor
  · rintro ⟨⟨uid', token'⟩, hfind, rfl⟩
    obtain ⟨htoken, later, earlier, hreverse, hlater⟩ := List.find?_eq_some_iff_append.1 hfind
    obtain rfl : token' = token := by simpa using htoken
    refine ⟨earlier.reverse, later.reverse, ?_, fun p hp => ?_⟩
    · rw [← List.reverse_reverse pairs, hreverse]
      simp
    · simpa using hlater p (List.mem_reverse.1 hp)
  · rintro ⟨before, later, rfl, hlater⟩
    refine ⟨(uid, token), List.find?_eq_some_iff_append.2 ⟨by simp, later.reverse,
      before.reverse, by simp, fun p hp => ?_⟩, rfl⟩
    simpa using hlater p (List.mem_reverse.1 hp)

/-- Pairs without a token do not matter to one that is there. -/
theorem identify_ofPairs_filter {pairs : List (Int64 × String)} (h : Unmistakable pairs token)
    (hne : token ≠ "") : (TokenTable.ofPairs (pairs.filter fun p => p.2 ≠ "")).identify token =
      (TokenTable.ofPairs pairs).identify token := by
  have hfiltered : Unmistakable (pairs.filter fun p => p.2 ≠ "") token :=
    fun p hp => h p (List.mem_filter.1 hp).1
  have hsame : ((pairs.reverse.filter fun p => p.2 ≠ "").find? fun p => p.2 = token) =
      pairs.reverse.find? fun p => p.2 = token := by
    rw [List.find?_filter]
    congr 1
    funext p
    by_cases hp : p.2 = token <;> simp [hp, hne]
  unfold TokenTable.identify
  rw [get?_ofPairs h, get?_ofPairs hfiltered, ← List.filter_reverse, hsame]

theorem exists_lastHolder {pairs : List (Int64 × String)} {p : Int64 × String} (hp : p ∈ pairs) :
    ∃ uid, LastHolder pairs p.2 uid := by
  induction pairs using List.reverseRecOn with
  | nil => cases hp
  | append_singleton pairs q ih =>
    by_cases hq : q.2 = p.2
    · exact ⟨q.1, pairs, [], by rw [← hq], nofun⟩
    · have hne : p ≠ q := fun h => hq (h ▸ rfl)
      have hbefore : p ∈ pairs := by simpa [hne] using hp
      obtain ⟨uid, before, later, rfl, hlater⟩ := ih hbefore
      refine ⟨uid, before, later ++ [q], by simp, fun r hr => ?_⟩
      rcases List.mem_append.1 hr with hr | hr
      · exact hlater r hr
      · exact List.mem_singleton.1 hr ▸ hq

end Auth

/-! ## 4. Admission -/

namespace Gateway

open Auth

section

variable {pairs : List (Int64 × String)} {tokens : TokenTable} {headers : Http.Headers}
  {query : Http.Query} {uid : Int64} {token : String}

theorem identify_eq_admitted_iff :
    Server.identify tokens headers query = .admitted uid token ↔
      Presents headers query token ∧ token ≠ "" ∧ tokens.identify token = .ok uid := by
  rw [← and_assoc, ← presentedToken_eq_ok_iff]
  unfold Server.identify
  cases hpresented : presentedToken headers query with
  | error fault => simp
  | ok presented =>
    dsimp only
    by_cases htoken : presented = token
    · subst htoken
      cases tokens.identify presented <;> simp
    · cases tokens.identify presented <;> simp [htoken]

end

/-- Who is let in by the pairs of a configuration. -/
structure Honours (pairs : List (Int64 × String)) (tokens : TokenTable) : Prop where
  admitted_iff : ∀ headers query,
    (∀ token, Presents headers query token → Unmistakable pairs token) →
    ∀ uid token, Server.identify tokens headers query = .admitted uid token ↔
      Presents headers query token ∧ token ≠ "" ∧ LastHolder pairs token uid
  by_header : ∀ p ∈ pairs, p.2 ≠ "" → (∀ c ∈ p.2.toList, Http.IsVisible c) →
    Unmistakable pairs p.2 → ∀ (headers : Http.Headers) (query : Http.Query),
      headers.first? "authorization" = some (Text.Utf8.encode ("Bearer " ++ p.2)) →
      ∃ uid, LastHolder pairs p.2 uid ∧ Server.identify tokens headers query = .admitted uid p.2
  by_query : ∀ p ∈ pairs, p.2 ≠ "" → Unmistakable pairs p.2 →
    ∀ (headers : Http.Headers) (query : Http.Query),
      headers.first? "authorization" = none → query.last? "access_token" = some p.2 →
      ∃ uid, LastHolder pairs p.2 uid ∧ Server.identify tokens headers query = .admitted uid p.2
  never_empty : ∀ headers query uid, Server.identify tokens headers query ≠ .admitted uid ""
  /-- A pair without a token is as good as none. -/
  empty_useless : ∀ headers query,
    (∀ token, Presents headers query token → Unmistakable pairs token) →
    Server.identify tokens headers query =
      Server.identify (.ofPairs (pairs.filter fun p => p.2 ≠ "")) headers query
  header_first : ∀ headers : Http.Headers, headers.first? "authorization" ≠ none →
    ∀ query query', Server.identify tokens headers query = Server.identify tokens headers query'

/-- The tokens of a configuration let in whom they are meant for, however they are sent. -/
theorem honours_ofPairs {raw : String} {pairs : List (Int64 × String)}
    (hread : Config.readTokens raw = .ok pairs) : Honours pairs (.ofPairs pairs) where
  admitted_iff headers query hunmistakable uid token := by
    rw [identify_eq_admitted_iff]
    constructor
    · rintro ⟨hpresents, hne, hok⟩
      exact ⟨hpresents, hne, (identify_ofPairs_eq_ok_iff (hunmistakable _ hpresents)).1 hok⟩
    · rintro ⟨hpresents, hne, hlast⟩
      exact ⟨hpresents, hne, (identify_ofPairs_eq_ok_iff (hunmistakable _ hpresents)).2 hlast⟩
  by_header p hp hne hvisible hunmistakable headers query hfirst := by
    have hpresents : Presents headers query p.2 := by
      have hbearer : Presents headers query (Text.trim p.2) := .bearer hfirst hvisible
      rwa [Config.trim_of_readTokens hread p hp] at hbearer
    obtain ⟨uid, hlast⟩ := exists_lastHolder hp
    exact ⟨uid, hlast, identify_eq_admitted_iff.2
      ⟨hpresents, hne, (identify_ofPairs_eq_ok_iff hunmistakable).2 hlast⟩⟩
  by_query p hp hne hunmistakable headers query habsent hquery := by
    obtain ⟨uid, hlast⟩ := exists_lastHolder hp
    exact ⟨uid, hlast, identify_eq_admitted_iff.2
      ⟨.parameter habsent hquery, hne, (identify_ofPairs_eq_ok_iff hunmistakable).2 hlast⟩⟩
  never_empty headers query uid h := (identify_eq_admitted_iff.1 h).2.1 rfl
  empty_useless headers query hunmistakable := by
    unfold Server.identify
    cases hpresented : presentedToken headers query with
    | error fault => rfl
    | ok token =>
      obtain ⟨hpresents, hne⟩ := presentedToken_eq_ok_iff.1 hpresented
      dsimp only
      rw [identify_ofPairs_filter (hunmistakable token hpresents) hne]
  header_first headers hpresent query query' := by
    have hsame : presentedToken headers query = presentedToken headers query' := by
      unfold presentedToken
      cases hfirst : headers.first? "authorization" with
      | none => exact absurd hfirst hpresent
      | some value => rfl
    rw [Server.identify, hsame, ← Server.identify]

/-- The table of a gateway is made of the pairs that its variable lists, and lets in whom they are
meant for, however the token is sent. -/
theorem tokens_honoured (raw : String) (pairs : List (Int64 × String))
    (hread : Config.readTokens raw = .ok pairs) :
    (∀ env config ids pipeSize, Config.text? env "CHATLINK_ACCESS_TOKENS" = some raw →
      Config.gateway env = .ok config →
      (Startup.gatewayServer config ids pipeSize).tokens = .ofPairs pairs) ∧
    Honours pairs (.ofPairs pairs) := by
  refine ⟨fun env config ids pipeSize hraw hconfig => ?_, honours_ofPairs hread⟩
  have hpairs := Config.accessTokens_of_gateway hconfig hraw hread
  exact congrArg TokenTable.ofPairs hpairs

/-- A token of two users, one with a colon, and a user without a token. -/
def sharedTokens : List (Int64 × String) := [(1, "red"), (2, ""), (3, "sky:blue"), (4, "red")]

/-- The header of a request with a token of two users goes before its query. -/
theorem tokens_honoured_shared :
    Config.readTokens "1:red, 2: ,3:sky:blue,, 4 : red " = .ok sharedTokens ∧
    Unmistakable sharedTokens "red" ∧
    Server.identify (.ofPairs sharedTokens)
      [("Authorization", Text.Utf8.encode "Bearer red ")] [("access_token", "sky:blue")] =
        .admitted 4 "red" := by
  have hread : Config.readTokens "1:red, 2: ,3:sky:blue,, 4 : red " = .ok sharedTokens := by
    decide +kernel
  have hred : Unmistakable sharedTokens "red" := by decide +kernel
  have hempty : Unmistakable sharedTokens "" := by decide +kernel
  have hpresented : presentedToken [("Authorization", Text.Utf8.encode "Bearer red ")]
      [("access_token", "sky:blue")] = .ok "red" := by
    decide +kernel
  obtain ⟨-, hhonours⟩ := tokens_honoured _ _ hread
  refine ⟨hread, hred, (hhonours.admitted_iff _ _ (fun token hpresents => ?_) 4 "red").2 ?_⟩
  · by_cases hne : token = ""
    · exact hne ▸ hempty
    · have htoken := hpresented.symm.trans (presentedToken_eq_ok_iff.2 ⟨hpresents, hne⟩)
      exact Except.ok.inj htoken ▸ hred
  · obtain ⟨hpresents, hne⟩ := presentedToken_eq_ok_iff.1 hpresented
    exact ⟨hpresents, hne, [(1, "red"), (2, ""), (3, "sky:blue")], [], rfl, nofun⟩

end Gateway

end Switchboard

import Switchboard.Proofs.WebSocket.Streaming

/-!
# Seeking — the first message of a kind

Reading on past other messages comes to the first message of a kind, unless there is a close frame
or a violation of the protocol before it. Bytes that come later change nothing about either.
-/

namespace Switchboard.WebSocket

/-- What reading on comes to. -/
inductive Sought where
  | starved
  | ended
  | found (m : Message) (rest : Reader)
  deriving DecidableEq, Repr, Inhabited

/-- The same with more bytes behind. -/
def Sought.feed (more : Bytes) : Sought → Sought
  | .found m rest => .found m (rest.feed more)
  | .starved => .starved
  | .ended => .ended

namespace Reader

/-- Reads on to the first message of a kind, over at most `fuel` frames. -/
def seekIn (kind : Message → Bool) : (fuel : Nat) → Reader → Sought
  | 0, _ => .starved
  | fuel + 1, r =>
    match r.next with
    | .starved => .starved
    | .fault _ | .frame (some (.close _)) _ => .ended
    | .frame none rest => seekIn kind fuel rest
    | .frame (some m) rest => if kind m then .found m rest else seekIn kind fuel rest

/-- Reads on to the first message of a kind. There are no more frames than bytes. -/
def seek (kind : Message → Bool) (r : Reader) : Sought := r.seekIn kind (r.pending.length + 1)

variable {kind : Message → Bool} {r rest : Reader} {m : Message}

/-! ## 1. Step by step -/

theorem seekIn_congr {fuel fuel' : Nat} (h : r.pending.length < fuel)
    (h' : r.pending.length < fuel') : r.seekIn kind fuel = r.seekIn kind fuel' := by
  induction fuel generalizing fuel' r with
  | zero => exact absurd h (Nat.not_lt_zero _)
  | succ fuel ih =>
    cases fuel' with
    | zero => exact absurd h' (Nat.not_lt_zero _)
    | succ fuel' =>
      unfold seekIn
      split
      · rfl
      · rfl
      · rfl
      · next rest hnext =>
        have hless := pending_next hnext
        exact ih (by omega) (by omega)
      · next m rest _ hnext =>
        have hless := pending_next hnext
        rw [ih (by omega : rest.pending.length < fuel) (by omega : rest.pending.length < fuel')]

theorem seek_eq (kind : Message → Bool) (r : Reader) :
    r.seek kind = match r.next with
      | .starved => .starved
      | .fault _ | .frame (some (.close _)) _ => .ended
      | .frame none rest => rest.seek kind
      | .frame (some m) rest => if kind m then .found m rest else rest.seek kind := by
  have hrest : ∀ {m rest}, r.next = .frame m rest →
      rest.seekIn kind r.pending.length = rest.seek kind := fun hnext =>
    seekIn_congr (pending_next hnext) (Nat.lt_succ_self _)
  rw [seek, seekIn]
  split
  · rfl
  · rfl
  · rfl
  · next rest hnext => exact hrest hnext
  · next m rest _ hnext => rw [hrest hnext]

theorem seek_of_starved (h : r.next = .starved) : r.seek kind = .starved := by
  rw [seek_eq, h]

theorem seek_of_fault {fault : ReadFault} (h : r.next = .fault fault) : r.seek kind = .ended := by
  rw [seek_eq, h]

theorem seek_of_close {reason : Option (UInt16 × String)}
    (h : r.next = .frame (some (.close reason)) rest) : r.seek kind = .ended := by
  rw [seek_eq, h]

theorem seek_of_part (h : r.next = .frame none rest) : r.seek kind = rest.seek kind := by
  rw [seek_eq, h]

theorem seek_of_message (h : r.next = .frame (some m) rest) (hm : ∀ reason, m ≠ .close reason) :
    r.seek kind = if kind m then .found m rest else rest.seek kind := by
  rw [seek_eq, h]
  cases m with
  | close reason => exact absurd rfl (hm reason)
  | text | binary | ping | pong => rfl

/-- A message that is found has taken bytes. -/
theorem pending_seek (h : r.seek kind = .found m rest) :
    rest.pending.length < r.pending.length := by
  induction hlength : r.pending.length using Nat.strongRecOn generalizing r with
  | ind n ih =>
    subst hlength
    cases hnext : r.next with
    | starved => rw [seek_of_starved hnext] at h; cases h
    | fault f => rw [seek_of_fault hnext] at h; cases h
    | frame message next =>
      have hless := pending_next hnext
      cases message with
      | none =>
        rw [seek_of_part hnext] at h
        exact Nat.lt_trans (ih _ hless h rfl) hless
      | some m' =>
        cases m' with
        | close reason => rw [seek_of_close hnext] at h; cases h
        | text | binary | ping | pong =>
          rw [seek_of_message hnext nofun] at h
          split at h
          · cases h
            exact hless
          · exact Nat.lt_trans (ih _ hless h rfl) hless

/-! ## 2. More bytes at the end -/

theorem next_feed_of_fault {fault : ReadFault} (h : r.next = .fault fault) (more : Bytes) :
    (r.feed more).next = .fault fault := by
  rw [next_eq] at h ⊢
  split at h
  · cases h
  next header tail hread =>
  obtain ⟨front, -, hpending, hfront⟩ := Header.read?_cases hread
  have hread' : Header.read? (r.feed more).pending = some (header, tail ++ more) := by
    rw [feed, hpending, List.append_assoc, hfront]
  rw [hread']
  dsimp only
  -- the reserved code and the length are told by the header, the rest by the payload
  split at h
  · next hopcode => rw [if_pos hopcode, h]
  next hopcode =>
  rw [if_neg hopcode]
  split at h
  · next hlength => rw [if_pos hlength, h]
  next hlength =>
  rw [if_neg hlength]
  split at h
  · cases h
  next payload after hcut =>
  obtain ⟨front', htail, hfront'⟩ := readsFront_split? _ hcut
  have hcut' : split? header.length (tail ++ more) = some (payload, after ++ more) := by
    rw [htail, List.append_assoc, hfront']
  rw [hcut']
  show (if badForm r.role header = true then _ else
    conclude _ _ (content r.fragments header payload)) = _
  split at h
  · next hform => rw [if_pos hform, h]
  next hform =>
  rw [if_neg hform]
  cases hcontent : content r.fragments header payload with
  | error f =>
    rw [hcontent] at h
    exact h
  | ok p =>
    rw [hcontent] at h
    cases h

/-- Whatever reading on comes to, it comes to with more bytes behind. -/
theorem seek_feed (h : r.seek kind ≠ .starved) (more : Bytes) :
    (r.feed more).seek kind = (r.seek kind).feed more := by
  induction hlength : r.pending.length using Nat.strongRecOn generalizing r with
  | ind n ih =>
    subst hlength
    cases hnext : r.next with
    | starved => exact absurd (seek_of_starved hnext) h
    | fault f => rw [seek_of_fault hnext, seek_of_fault (next_feed_of_fault hnext more)]; rfl
    | frame message rest =>
      have hnext' := next_feed hnext more
      cases message with
      | none =>
        rw [seek_of_part hnext] at h ⊢
        rw [seek_of_part hnext', ih _ (pending_next hnext) h rfl]
      | some m =>
        cases m with
        | close reason => rw [seek_of_close hnext, seek_of_close hnext']; rfl
        | text | binary | ping | pong =>
          rw [seek_of_message hnext nofun] at h ⊢
          rw [seek_of_message hnext' nofun]
          split at h
          · next hkind => rw [if_pos hkind, if_pos hkind]; rfl
          · next hkind => rw [if_neg hkind, if_neg hkind, ih _ (pending_next hnext) h rfl]

/-! ## 3. Readers that come to the same -/

/-- Whatever still comes, reading on comes to the same for both. -/
def Abreast (kind : Message → Bool) (r r' : Reader) : Prop :=
  ∀ more, (r.feed more).seek kind = (r'.feed more).seek kind

theorem feed_nil (r : Reader) : r.feed [] = r := by
  rw [feed, List.append_nil]

theorem feed_feed (r : Reader) (bytes more : Bytes) :
    (r.feed bytes).feed more = r.feed (bytes ++ more) := by
  simp only [feed, List.append_assoc]

variable {r' r'' : Reader}

theorem Abreast.refl (kind : Message → Bool) (r : Reader) : Abreast kind r r := fun _ => rfl

theorem Abreast.trans (h : Abreast kind r r') (h' : Abreast kind r' r'') : Abreast kind r r'' :=
  fun more => (h more).trans (h' more)

theorem Abreast.feed (h : Abreast kind r r') (bytes : Bytes) :
    Abreast kind (r.feed bytes) (r'.feed bytes) := by
  intro more
  rw [feed_feed, feed_feed]
  exact h (bytes ++ more)

theorem Abreast.seek_eq (h : Abreast kind r r') : r.seek kind = r'.seek kind := by
  have hnow := h []
  rwa [feed_nil, feed_nil] at hnow

theorem abreast_of_part (h : r.next = .frame none rest) : Abreast kind r rest :=
  fun more => seek_of_part (next_feed h more)

theorem abreast_of_message (h : r.next = .frame (some m) rest)
    (hm : ∀ reason, m ≠ .close reason) (hkind : kind m = false) : Abreast kind r rest := by
  intro more
  rw [seek_of_message (next_feed h more) hm, hkind, if_neg Bool.false_ne_true]

end Reader

end Switchboard.WebSocket

import Switchboard.Proofs.WebSocket.Reader

/-!
# Streaming — what has come can be read before the rest comes

A frame that is there as a whole is read in the same way whatever bytes follow it. So messages that
come in several parts, each of whole messages, are read one after another.
-/

namespace Switchboard.WebSocket

namespace Reader

variable {r r' : Reader} {message : Option Message} {ms ms' : List Message}

/-! ## 1. More bytes at the end -/

theorem role_next (h : r.next = .frame message r') : r'.role = r.role := by
  obtain ⟨_, _, _, hframed⟩ := framed_of_next h
  exact hframed.role

theorem next_feed (h : r.next = .frame message r') (more : Bytes) :
    (r.feed more).next = .frame message (r'.feed more) := by
  obtain ⟨header, rest, payload, hframed⟩ := framed_of_next h
  obtain ⟨front, -, hpending, hfront⟩ := Header.read?_cases hframed.header
  obtain ⟨front', hrest, hfront'⟩ := readsFront_split? _ hframed.cut
  have hframed' : Framed (r.feed more) message (r'.feed more) header (rest ++ more) payload :=
    { hframed with
      header := by rw [feed, hpending, List.append_assoc, hfront]
      cut := by rw [feed, hrest, List.append_assoc, hfront'] }
  exact hframed'.next_eq

/-! ## 2. Whole messages -/

/-- What has come and is not read yet are these messages, each of them whole. -/
inductive Spells : Reader → List Message → Prop where
  | done (role : Role) : Spells { role } []
  | part {r r' : Reader} {ms : List Message} (hnext : r.next = .frame none r')
      (hrest : Spells r' ms) : Spells r ms
  | message {r r' : Reader} {m : Message} {ms : List Message}
      (hnext : r.next = .frame (some m) r') (hrest : Spells r' ms) : Spells r (m :: ms)

theorem Spells.feed {role : Role} {bytes : Bytes} (h : Spells r ms) (hrole : r.role = role)
    (h' : Spells { role, pending := bytes } ms') : Spells (r.feed bytes) (ms ++ ms') := by
  induction h with
  | done role' =>
    obtain rfl : role' = role := hrole
    exact h'
  | part hnext hrest ih => exact .part (next_feed hnext bytes) (ih ((role_next hnext).trans hrole))
  | message hnext hrest ih =>
    exact .message (next_feed hnext bytes) (ih ((role_next hnext).trans hrole))

theorem Spells.of_part (h : Spells r ms) (hnext : r.next = .frame none r') : Spells r' ms := by
  cases h with
  | done role => cases hnext
  | part hpart hrest =>
    obtain ⟨-, rfl⟩ := Reading.frame.inj (hpart.symm.trans hnext)
    exact hrest
  | message hmessage hrest =>
    obtain ⟨hnone, -⟩ := Reading.frame.inj (hmessage.symm.trans hnext)
    cases hnone

theorem Spells.of_message {m : Message} (h : Spells r ms) (hnext : r.next = .frame (some m) r') :
    ∃ rest, ms = m :: rest ∧ Spells r' rest := by
  cases h with
  | done role => cases hnext
  | part hpart hrest =>
    obtain ⟨hnone, -⟩ := Reading.frame.inj (hpart.symm.trans hnext)
    cases hnone
  | message hmessage hrest =>
    obtain ⟨hm, rfl⟩ := Reading.frame.inj (hmessage.symm.trans hnext)
    obtain rfl := Option.some.inj hm
    exact ⟨_, rfl, hrest⟩

theorem Spells.of_starved (h : Spells r ms) (hnext : r.next = .starved) : ms = [] := by
  cases h with
  | done role => rfl
  | part hpart hrest => simp [hnext] at hpart
  | message hmessage hrest => simp [hnext] at hmessage

/-- What is read next, if anything, is the first of the messages or a part of it. -/
theorem Spells.next (h : Spells r ms) :
    r.next = .starved ∨ (∃ r', r.next = .frame none r') ∨
      ∃ m ∈ ms, ∃ r', r.next = .frame (some m) r' := by
  cases h with
  | done role => exact .inl rfl
  | part hpart => exact .inr (.inl ⟨_, hpart⟩)
  | message hmessage => exact .inr (.inr ⟨_, List.mem_cons_self, _, hmessage⟩)

end Reader

end Switchboard.WebSocket

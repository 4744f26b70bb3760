import Switchboard.WebSocket.Reader

/-!
# Reader — every frame that is read takes bytes with it

A frame is read off the front, part by part: the header with its length and its mask, and then the
payload. No part depends on the bytes behind it.
-/

namespace Switchboard.WebSocket

/-! ## 1. Reading off the front -/

/-- Whatever is read takes some bytes off the front, in the same way whatever is behind them. -/
def ReadsFront {α : Type} (read? : Bytes → Option (α × Bytes)) : Prop :=
  ∀ ⦃bytes x rest⦄, read? bytes = some (x, rest) →
    ∃ front, bytes = front ++ rest ∧ ∀ more, read? (front ++ more) = some (x, more)

section ReadsFront

variable {α β : Type} {read? read'? : Bytes → Option (α × Bytes)}

theorem readsFront_split? (n : Nat) : ReadsFront (split? n) := by
  intro bytes front rest h
  unfold split? at h
  dsimp only at h
  split at h
  · next hlength =>
    obtain ⟨rfl, rfl⟩ := Prod.mk.inj (Option.some.inj h)
    refine ⟨bytes.take n, (List.take_append_drop n bytes).symm, fun more => ?_⟩
    unfold split?
    dsimp only
    rw [List.take_left' hlength, List.drop_left' hlength, if_pos hlength]
  · cases h

theorem readsFront_some (x : α) : ReadsFront fun bytes => some (x, bytes) := by
  intro bytes y rest h
  obtain ⟨rfl, rfl⟩ := Prod.mk.inj (Option.some.inj h)
  exact ⟨[], rfl, fun _ => rfl⟩

theorem ReadsFront.bind (h : ReadsFront read?) {next? : α → Bytes → Option (β × Bytes)}
    (hnext : ∀ x, ReadsFront (next? x)) :
    ReadsFront fun bytes => (read? bytes).bind fun p => next? p.1 p.2 := by
  intro bytes y rest hboth
  obtain ⟨⟨x, middle⟩, hfirst, hsecond⟩ := Option.bind_eq_some_iff.1 hboth
  obtain ⟨front, rfl, hfront⟩ := h hfirst
  obtain ⟨front', rfl, hfront'⟩ := hnext x hsecond
  refine ⟨front ++ front', (List.append_assoc _ _ _).symm, fun more => ?_⟩
  rw [List.append_assoc]
  dsimp only
  rw [hfront, Option.bind_some, hfront']

theorem ReadsFront.map (h : ReadsFront read?) (f : α → β) :
    ReadsFront fun bytes => (read? bytes).map fun p => (f p.1, p.2) := by
  have hbind := h.bind fun x => readsFront_some (f x)
  simpa only [Option.map_eq_bind, Function.comp_def] using hbind

theorem ReadsFront.ite (h : ReadsFront read?) (h' : ReadsFront read'?) (c : Prop) [Decidable c] :
    ReadsFront fun bytes => if c then read? bytes else read'? bytes := by
  by_cases hc : c
  · simpa only [if_pos hc] using h
  · simpa only [if_neg hc] using h'

end ReadsFront

/-- After its two bytes a header has a longer length or none, and then a mask or none. -/
theorem readsFront_header (a b : UInt8) : ReadsFront fun tail => Header.read? (a :: b :: tail) := by
  have hlast : ∀ length mask, ReadsFront fun rest =>
      some ((⟨128 ≤ a.toNat, a.toNat / 16 % 8 ≠ 0, a.toNat % 16, mask, length⟩ : Header), rest) :=
    fun length mask => readsFront_some _
  have hmask := fun length => ((readsFront_some none).bind (hlast length)).ite
    (((readsFront_split? 4).map some).bind (hlast length)) (b.toNat < 128)
  have hlong := (readsFront_split? (if b.toNat % 128 = 126 then 2 else 8)).map bigEndian
  exact ((readsFront_some (b.toNat % 128)).bind hmask).ite (hlong.bind hmask) (b.toNat % 128 < 126)

/-- A header takes two bytes or more off the front. -/
theorem Header.read?_cases {bytes rest : Bytes} {header : Header}
    (h : Header.read? bytes = some (header, rest)) :
    ∃ front, 2 ≤ front.length ∧ bytes = front ++ rest ∧
      ∀ more, Header.read? (front ++ more) = some (header, more) := by
  match bytes with
  | [] | [_] => cases h
  | a :: b :: tail =>
    obtain ⟨front, rfl, hfront⟩ := readsFront_header a b h
    exact ⟨a :: b :: front, by simp, rfl, hfront⟩

/-! ## 2. The next frame -/

namespace Reader

variable {r r' : Reader} {message : Option Message}

/-- The message of a frame, if it is the last of its fragments, and the fragments after it. -/
def content (fragments : Option Partial) (h : Header) (payload : Bytes) :
    Except ReadFault (Option Message × Option Partial) :=
  let payload := match h.mask with
    | some mask => unmask mask payload
    | none => payload
  if Opcode.isControl h.opcode then (control h payload).map fun m => (some m, fragments)
  else data fragments h payload

/-- What the content of a frame comes to. -/
def conclude (r : Reader) (after : Bytes) :
    Except ReadFault (Option Message × Option Partial) → Reading
  | .error f => .fault f
  | .ok (message, fragments) => .frame message { r with pending := after, fragments }

theorem next_eq (r : Reader) :
    r.next = match Header.read? r.pending with
      | none => .starved
      | some (h, rest) =>
        if Opcode.isReserved h.opcode then .fault .protocol
        else if maxFrame < h.length then .fault .capacity
        else
          match split? h.length rest with
          | none => .starved
          | some (payload, after) =>
            if badForm r.role h then .fault .protocol
            else r.conclude after (content r.fragments h payload) := by
  unfold next content
  cases Header.read? r.pending with
  | none => rfl
  | some p =>
    obtain ⟨h, rest⟩ := p
    dsimp only
    cases split? h.length rest with
    | none => rfl
    | some q =>
      obtain ⟨payload, after⟩ := q
      dsimp only
      by_cases hcontrol : Opcode.isControl h.opcode = true
      · rw [if_pos hcontrol, if_pos hcontrol]
        cases control h _ <;> rfl
      · rw [if_neg hcontrol, if_neg hcontrol]
        cases data r.fragments h _ <;> rfl

/-- What a frame that is read is made of. -/
structure Framed (r : Reader) (message : Option Message) (r' : Reader) (h : Header)
    (rest payload : Bytes) : Prop where
  header : Header.read? r.pending = some (h, rest)
  opcode : ¬ Opcode.isReserved h.opcode = true
  length : ¬ maxFrame < h.length
  cut : split? h.length rest = some (payload, r'.pending)
  form : ¬ badForm r.role h = true
  content : content r.fragments h payload = .ok (message, r'.fragments)
  role : r'.role = r.role

theorem Framed.next_eq {h : Header} {rest payload : Bytes}
    (hframed : Framed r message r' h rest payload) : r.next = .frame message r' := by
  rw [Reader.next_eq, hframed.header]
  dsimp only
  rw [if_neg hframed.opcode, if_neg hframed.length, hframed.cut]
  dsimp only
  rw [if_neg hframed.form, hframed.content, conclude, ← hframed.role]

theorem framed_of_next (hnext : r.next = .frame message r') :
    ∃ h rest payload, Framed r message r' h rest payload := by
  rw [next_eq] at hnext
  split at hnext
  · cases hnext
  next h rest hread =>
  split at hnext
  · cases hnext
  next hopcode =>
  split at hnext
  · cases hnext
  next hlength =>
  split at hnext
  · cases hnext
  next payload after hcut =>
  split at hnext
  · cases hnext
  next hform =>
  cases hcontent : content r.fragments h payload with
  | error f =>
    rw [hcontent] at hnext
    cases hnext
  | ok p =>
    rw [hcontent] at hnext
    obtain ⟨rfl, rfl⟩ := Reading.frame.inj hnext
    exact ⟨h, rest, payload, hread, hopcode, hlength, hcut, hform, hcontent, rfl⟩

theorem pending_next (h : r.next = .frame message r') : r'.pending.length < r.pending.length := by
  obtain ⟨header, rest, payload, hframed⟩ := framed_of_next h
  obtain ⟨front, hfront, hpending, -⟩ := Header.read?_cases hframed.header
  obtain ⟨front', hrest, -⟩ := readsFront_split? _ hframed.cut
  rw [hpending, hrest, List.length_append, List.length_append]
  omega

end Reader

end Switchboard.WebSocket

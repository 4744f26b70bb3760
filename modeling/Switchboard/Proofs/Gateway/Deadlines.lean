import Switchboard.Proofs.Gateway.Course

/-!
# Deadlines — how long a write can hold a task

A write goes on until the client has taken it, or is gone. Only the write of a payload has a
deadline: it is never older than the limit, and a client that does not read loses its session with
it. A ping or a close frame that is stuck stays stuck for as long as the client neither reads nor
goes.
-/

namespace Switchboard.Gateway

open Session WebSocket

/-! ## 1. Clients that do not read -/

/-- The client has room for no more, and reads nothing. -/
structure Stuck (c : Client Task) : Prop where
  there : c.socket.gone = false
  reading : c.socket.pipe.reading = false
  full : c.socket.isFlushed = false

/-- The client does something else than to read on or to go. -/
def LeavesStuck (name : String) (a : Act) : Prop :=
  a ≠ .touch name .resume ∧ a ≠ .touch name .drop

def Write.isPayload : Write → Bool
  | .payload _ _ => true
  | .ping | .close => false

section Stuck

variable {name : String} {c : Client Task} {v : Serving} {w : Write}

theorem Stuck.apply (h : Stuck c) {gesture : Gesture}
    (hleaves : LeavesStuck name (.touch name gesture)) : Stuck (gesture.apply c) := by
  cases gesture with
  | send bytes => exact ⟨h.there, h.reading, h.full⟩
  | stall => exact ⟨h.there, rfl, h.full⟩
  | resume => exact absurd rfl hleaves.1
  | drop => exact absurd rfl hleaves.2

/-- The only step that a stuck write leaves to the task is to give up. -/
theorem Stuck.ending (h : Stuck c) (hwrite : v.write = some w) {now : Nat} {node : Node}
    {choice : Option Wakeup} {turn : Turn} (htaken : v.Taken now c.socket node choice turn) :
    w.isPayload = true ∧ ∃ log, turn = v.finish c.socket node log := by
  have hfull : ¬ c.socket.isFlushed = true := by simp [h.full]
  rcases htaken.writing hwrite with ⟨-, hflushed⟩ | ⟨hending, log, rfl⟩
  · exact absurd hflushed hfull
  cases hending with
  | gone hgone => simp [h.there] at hgone
  | broken hnone =>
    rw [hnone] at hwrite
    cases hwrite
  | closed _ hflushed => exact absurd hflushed hfull
  | late hlate =>
    rw [hlate] at hwrite
    obtain rfl := Option.some.inj hwrite
    exact ⟨rfl, log, rfl⟩

end Stuck

/-! ## 2. Writes under way -/

/-- What a write that began at a time has written, and how much later it can be now. -/
inductive Write.Begun (now begun : Nat) : Write → Message → Prop where
  | payload (h : Handle) (bytes : Bytes) (hnow : now ≤ begun + writeLimit) :
      Begun now begun (.payload h (begun + writeLimit)) (.ofPayload bytes)
  | ping : Begun now begun .ping (.ping [])
  | close (closing : Closing) : Begun now begun .close closing.frame

namespace Journal

variable {j j' : Journal} {name : String} {c c' : Client Task} {v v' : Serving} {w : Write}
  {s : SessionRef} {a : Act}

/-- The last entry of the diary is that of the write under way. -/
def Writes (j : Journal) (v : Serving) : Prop :=
  ∀ w, v.write = some w → ∃ begun m, (j.diary v.session.slot).sent.getLast? = some (begun, m) ∧
    begun ≤ j.now ∧ w.Begun j.now begun m

theorem writes_of_none (h : v.write = none) : j.Writes v := by
  intro w hw
  rw [h] at hw
  cases hw

/-- A write that starts is the last entry from then on. -/
theorem writes_take {turn : Turn} {m : Message} (hsession : v'.session = v.session)
    (hsocket : turn.socket = c.socket.write m) (hwrite : v'.write = some w)
    (hbegun : w.Begun j.now j.now m) : (j.take name c v turn).Writes v' := by
  intro w' hw'
  obtain rfl : w = w' := Option.some.inj (hwrite.symm.trans hw')
  refine ⟨j.now, m, ?_, Nat.le_refl _, hbegun⟩
  have hsent : Pipe.sentSince c.socket.pipe turn.socket.pipe = [m] := by
    rw [hsocket]
    exact Pipe.sentSince_write _ _
  rw [hsession, diary_take, hsent]
  simp [Diary.write]

/-- Nothing but a step of the task or the clock touches the write. -/
theorem Writes.of_same (h : j.Writes v)
    (hsent : (j'.diary v.session.slot).sent = (j.diary v.session.slot).sent)
    (hnow : j'.now = j.now) : j'.Writes v := by
  intro w hw
  rw [hsent, hnow]
  exact h w hw

theorem Writes.pass (h : j.Writes v) (hserved : served? j.endpoint name = some (c, v))
    (span : Nat) : (j.pass span).Writes v := by
  intro w hw
  obtain ⟨begun, m, hlast, hle, hbegun⟩ := h w hw
  refine ⟨begun, m, hlast, Nat.le_trans hle (j.le_clock span), ?_⟩
  cases hbegun with
  | payload handle bytes hnow =>
    -- the clock stops at the deadline
    have hdeadline : v.deadline? = some (begun + writeLimit) := by
      rw [Serving.deadline?, hw]
    have hclock := clock_le hserved hdeadline span
    exact .payload handle bytes (Nat.le_trans hclock (Nat.max_le.2 ⟨hnow, Nat.le_refl _⟩))
  | ping => exact .ping
  | close closing => exact .close closing

theorem Course.writes (hserved : served? j.endpoint name = some (c, v)) (h : j.Writes v)
    (hcourse : Course j name c v a j' (some (c', v'))) : j'.Writes v' := by
  cases hcourse with
  | step htaken htask =>
    cases htaken with
    | part hwrite hnext =>
      cases htask
      exact writes_of_none hwrite
    | heard hwrite hnext hopen =>
      cases htask
      exact writes_of_none hwrite
    | payload hwrite hqueue =>
      cases htask
      exact writes_take rfl rfl rfl (.payload _ _ (Nat.le_add_right _ _))
    | ping hwrite hdue hheard =>
      cases htask
      exact writes_take rfl rfl rfl .ping
    | silence hwrite hdue hsilent =>
      cases htask
      exact writes_take rfl rfl rfl (.close _)
    | closing hwrite hcancelled =>
      cases htask
      exact writes_take rfl rfl rfl (.close _)
    | written hwrite hclose hflushed hpool =>
      cases htask
      exact writes_of_none rfl
    | ended log hending => cases htask
  | touch gesture hthere =>
    refine h.of_same ?_ rfl
    rw [diary_touch, Gesture.sent_note]
  | accept envelope => exact h.of_same rfl rfl
  | pass span => exact h.pass hserved span
  | other hsame => exact h.of_same (congrArg Diary.sent hsame.diary) hsame.now

/-- At any time the write under way is the last that was begun, and a payload's is in time. -/
theorem writes_after (room : Nat) (acts : List Act)
    (hserved : served? ((start room).after acts).endpoint name = some (c, v)) :
    ((start room).after acts).Writes v :=
  served_induction (motive := fun j _ _ v => j.Writes v) (fun _ _ _ _ _ _ _ => writes_of_none rfl)
    (fun _ hserved hwrites hcourse => hcourse.writes hserved hwrites) acts hserved

/-! ## 3. A write that is stuck -/

/-- A write that is stuck, or the end of its session. -/
inductive Held (j : Journal) (name : String) (s : SessionRef) (w : Write)
    (sent : List (Nat × Message)) : Prop where
  | stuck {c : Client Task} {v : Serving} (hserved : served? j.endpoint name = some (c, v))
      (hsession : v.session = s) (hwrite : v.write = some w) (hstuck : Stuck c)
      (hsent : (j.diary s.slot).sent = sent)
  | ended (hpayload : w.isPayload = true) (hover : j.Over s) (hsent : (j.diary s.slot).sent = sent)

theorem sent_finish (j : Journal) (name : String) (c : Client Task) (v : Serving)
    (log : List LogLine) :
    ((j.take name c v (v.finish c.socket j.node log)).diary v.session.slot).sent =
      (j.diary v.session.slot).sent := by
  have hsent : Pipe.sentSince c.socket.pipe (v.finish c.socket j.node log).socket.pipe = [] :=
    Pipe.sentSince_shut _
  rw [diary_take, hsent, Diary.write_nil]

theorem Held.act {sent : List (Nat × Message)} (hsound : j.Sound) (h : Held j name s w sent)
    (hleaves : LeavesStuck name a) : Held (j.act a) name s w sent := by
  cases h with
  | ended hpayload hover hsent =>
    obtain ⟨hover', hdiary⟩ := hsound.over_act hover a
    exact .ended hpayload hover' (hdiary ▸ hsent)
  | @stuck c v hserved hsession hwrite hstuck hsent =>
    have hcourse := hsound.course hserved a
    subst hsession
    generalize j.act a = j' at hcourse
    generalize hserved' : served? j'.endpoint name = after at hcourse
    cases hcourse with
    | step htaken htask =>
      obtain ⟨-, log, rfl⟩ := hstuck.ending hwrite htaken
      cases htask
    -- only a payload's deadline can have ended it
    | ended htaken htask =>
      obtain ⟨hpayload, log, rfl⟩ := hstuck.ending hwrite htaken
      exact .ended hpayload (hsound.over_take hserved htask)
        ((sent_finish j name c v log).trans hsent)
    | touch gesture hthere =>
      refine .stuck hserved' rfl hwrite (hstuck.apply hleaves) ?_
      rw [diary_touch, Gesture.sent_note]
      exact hsent
    | accept envelope => exact .stuck hserved' rfl hwrite hstuck hsent
    | pass span => exact .stuck hserved' rfl hwrite hstuck hsent
    | other hsame =>
      exact .stuck hserved' rfl hwrite hstuck ((congrArg Diary.sent hsame.diary).trans hsent)

theorem Held.after {sent : List (Nat × Message)} (hsound : j.Sound) (h : Held j name s w sent)
    {more : List Act} (hleaves : ∀ a ∈ more, LeavesStuck name a) :
    Held (j.after more) name s w sent := by
  induction more generalizing j with
  | nil => exact h
  | cons a more ih =>
    exact ih (hsound.act a) (h.act hsound (hleaves a List.mem_cons_self))
      fun b hb => hleaves b (List.mem_cons_of_mem _ hb)

/-! ## 4. How long a write can last -/

/-- The write under way is the last message of the diary, and only of a payload is it certain that
it began no longer than the limit ago. When the client has stopped reading and the write is stuck,
then, whatever else happens, a payload costs the client its session, which is in no registry any
more once the limit is over; any other write is still under way. -/
theorem bounded_iff_payload (room : Nat) (acts : List Act)
    (hserved : served? ((start room).after acts).endpoint name = some (c, v))
    (hwrite : v.write = some w) :
    let j := (start room).after acts
    ∃ begun m, (j.diary v.session.slot).sent.getLast? = some (begun, m) ∧ begun ≤ j.now ∧
      (w.isPayload = true → j.now ≤ begun + writeLimit) ∧
      (Stuck c → ∀ more, (∀ a ∈ more, LeavesStuck name a) →
        ((j.after more).diary v.session.slot).sent = (j.diary v.session.slot).sent ∧
        (w.isPayload = true → begun + writeLimit < (j.after more).now →
          (j.after more).Over v.session ∧ v.session ∉ (j.after more).node.index.all ∧
            (j.after more).node.groups.groupsOf v.session = []) ∧
        (w.isPayload = false → ∃ c' v', served? (j.after more).endpoint name = some (c', v') ∧
          v'.session = v.session ∧ v'.write = some w ∧ Stuck c')) := by
  intro j
  have hsound : j.Sound := (sound_start room).after acts
  obtain ⟨begun, m, hlast, hle, hbegun⟩ := writes_after room acts hserved w hwrite
  have hbound : ∀ {now : Nat}, w.Begun now begun m → w.isPayload = true →
      now ≤ begun + writeLimit := by
    intro now hbegun hpayload
    cases hbegun with
    | payload h bytes hnow => exact hnow
    | ping => cases hpayload
    | close closing => cases hpayload
  refine ⟨begun, m, hlast, hle, hbound hbegun, fun hstuck more hleaves => ?_⟩
  have hheld : Held (j.after more) name v.session w (j.diary v.session.slot).sent :=
    Held.after hsound (.stuck hserved rfl hwrite hstuck rfl) hleaves
  cases hheld with
  | ended hpayload hover hsent =>
    obtain ⟨-, -, hout, hgroups⟩ := (hsound.after more).left_nothing hover
    refine ⟨hsent, fun _ _ => ⟨hover, hout, hgroups⟩, fun hother => ?_⟩
    rw [hpayload] at hother
    cases hother
  | @stuck c' v' hserved' hsession hwrite' hstuck' hsent =>
    refine ⟨hsent, fun hpayload hlate => ?_,
      fun _ => ⟨c', v', hserved', hsession, hwrite', hstuck'⟩⟩
    -- the write that is still under way would be the one that began back then
    rw [← after_append] at hserved' hlate hsent
    obtain ⟨begun', m', hlast', -, hbegun'⟩ := writes_after room _ hserved' w hwrite'
    rw [hsession, hsent, hlast] at hlast'
    obtain ⟨rfl, rfl⟩ := Prod.mk.inj (Option.some.inj hlast')
    exact absurd (hbound hbegun' hpayload) (Nat.not_le_of_lt hlate)

/-! ### A phone that does not read -/

/-- The phone stops reading after its first ping. -/
def stalledPhone : List Act :=
  [.join "phone" 7 1 "red" [5], .step "phone" (some .tick), .step "phone" none,
    .touch "phone" .stall]

/-- Data of this many bytes for the phone, which are no text. Their write begins. -/
def greetedPhone (size : Nat) : List Act :=
  stalledPhone ++
    [.accept (.packet (.forUsers [1] (List.replicate size 255))), .step "phone" (some .payload)]

/-- The clock stops at the deadline, where the task gives up. -/
def tenSeconds : List Act := [.pass 20000, .step "phone" none, .pass 1]

/-- A pipe of 166 bytes does not take the data, and the task gives up before the clock goes on. -/
theorem bounded_iff_payload_greetedPhone :
    (((start 0).after (greetedPhone 200)).after tenSeconds).now = 10001 ∧
      (((start 0).after (greetedPhone 200)).after tenSeconds).Over ⟨0, 7, 1, "red"⟩ := by
  have hview : (served? ((start 0).after (greetedPhone 200)).endpoint "phone").map
      (fun x => (x.2, x.1.socket.gone, x.1.socket.pipe.reading, x.1.socket.isFlushed)) =
        some (⟨⟨0, 7, 1, "red"⟩, 0, 45000, some (.payload 0 10000)⟩, false, false, false) := by
    decide +kernel
  obtain ⟨⟨c, v⟩, hserved, hcv⟩ := Option.map_eq_some_iff.1 hview
  simp only [Prod.mk.injEq] at hcv
  obtain ⟨rfl, hthere, hreading, hfull⟩ := hcv
  obtain ⟨begun, m, hlast, -, -, hstuck⟩ := bounded_iff_payload 0 (greetedPhone 200) hserved rfl
  have hbegun : (((start 0).after (greetedPhone 200)).diary 0).sent.getLast?.map Prod.fst =
      some 0 := by
    decide +kernel
  rw [hlast] at hbegun
  obtain rfl : begun = 0 := Option.some.inj hbegun
  have hleaves : ∀ a ∈ tenSeconds, LeavesStuck "phone" a := by
    unfold LeavesStuck
    decide
  have hnow : (((start 0).after (greetedPhone 200)).after tenSeconds).now = 10001 := by
    decide +kernel
  obtain ⟨-, hover, -⟩ := hstuck ⟨hthere, hreading, hfull⟩ tenSeconds hleaves
  exact ⟨hnow, (hover rfl (by rw [hnow]; decide)).1⟩

/-- The frame of the data leaves one byte of a pipe of 512. The second ping does not fit there, and
more than ten seconds pass. -/
def pingedPhone : List Act :=
  greetedPhone 507 ++
    [.step "phone" none, .pass 50000, .step "phone" (some .tick), .pass 10001]

/-- The ping that was begun at 45 s is still under way at 55.001 s. -/
theorem not_every_write_bounded :
    ¬ ∀ (room : Nat) (acts : List Act) (name : String) (c : Client Task) (v : Serving)
      (w : Write) (begun : Nat) (m : Message),
      served? ((start room).after acts).endpoint name = some (c, v) → v.write = some w →
      (((start room).after acts).diary v.session.slot).sent.getLast? = some (begun, m) →
      ((start room).after acts).now ≤ begun + writeLimit := by
  intro hbounded
  have hview : (served? ((start 346).after pingedPhone).endpoint "phone").map (fun x =>
      (x.2, (((start 346).after pingedPhone).diary x.2.session.slot).sent.getLast?)) =
        some (⟨⟨0, 7, 1, "red"⟩, 0, 90000, some .ping⟩, some (45000, .ping [])) := by
    decide +kernel
  obtain ⟨⟨c, v⟩, hserved, hcv⟩ := Option.map_eq_some_iff.1 hview
  dsimp only at hcv
  obtain ⟨rfl, hbegun⟩ := Prod.mk.inj hcv
  have hnow : ((start 346).after pingedPhone).now = 55001 := by decide +kernel
  have hle := hbounded 346 pingedPhone "phone" c _ .ping 45000 (.ping []) hserved rfl hbegun
  rw [hnow] at hle
  exact absurd hle (by decide)

end Journal

end Switchboard.Gateway

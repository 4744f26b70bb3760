import Mathlib.Data.List.Nodup
import Switchboard.Proofs.Json.Written
import Switchboard.Wire.Decoder

/-!
# Records — fields by their keys, and room for others

An object says which record it means by the values under the keys of the fields. Where the members
stand, what other keys there are and how the text is laid out does not matter; a field that holds
its default may be missing. Each field that must be there has to be there once, and none twice.
-/

namespace Switchboard.Wire

open Json (Outline Spells)

/-! ## 1. Objects of a record -/

/-- A field as it is rendered; one that holds its default may be left out. -/
structure Rendered where
  name : String
  value : Json.Value
  isDefault : Bool := false

namespace Rendered

def member (f : Rendered) : String × Json.Value := (f.name, f.value)

def entry (f : Rendered) : Option String × Outline := (some f.name, f.value.outline)

theorem outline_object (fields : List Rendered) :
    (Json.Value.object (fields.map member)).outline = .object (fields.map entry) true := by
  rw [Json.Value.outline, Json.Value.outlineMembers_eq_map, List.map_map]
  rfl

end Rendered

/-- In some order, the members are the fields and others under other keys. Of the fields only
defaults are left out. -/
inductive Arranged (fields : List Rendered) (members : List (Option String × Outline)) : Prop
  | mk {shown : List Rendered} {others : List (Option String × Outline)}
      (hperm : members.Perm (shown.map Rendered.entry ++ others))
      (hshown : shown.Sublist fields)
      (hleft : ∀ f ∈ fields, f ∈ shown ∨ f.isDefault = true)
      (hothers : ∀ m ∈ others, ∃ k, m.1 = some k ∧ k ∉ fields.map Rendered.name)

/-- How texts of a record are read. Records are rendered by `rendered`, with fields of these names,
of which some are required. An object of the fields is the record, and so is the array of their
values. A key that is there twice is a fault, as is a required field that is not there. -/
structure Lenient {α : Type} (read : List Char → Except Fault α) (rendered : α → List Rendered)
    (names required : List String) : Prop where
  object : ∀ {x : α} {text members}, Spells text (.object members true) →
    Arranged (rendered x) members → read text = .ok x
  array : ∀ {x : α} {text}, Spells text (.array ((rendered x).map fun f => f.value.outline) true) →
    read text = .ok x
  repeated : ∀ {text members name}, Spells text (.object members true) → name ∈ names →
    2 ≤ members.countP (fun m => m.1 = some name) → ∃ fault, read text = .error fault
  missing : ∀ {text members name}, Spells text (.object members true) → name ∈ required →
    (∀ m ∈ members, m.1 ≠ some name) → ∃ fault, read text = .error fault
  tooShort : ∀ {text items}, Spells text (.array items true) →
    (∃ name ∈ names.drop items.length, name ∈ required) → ∃ fault, read text = .error fault

/-! ## 2. Fields that were met -/

section Met

variable {β : Type} {seen : List String} {name : String} {b : β}

/-- What a draft has for a field: its value, once the field was met. -/
def met (seen : List String) (name : String) (b : β) : Option β :=
  if name ∈ seen then some b else none

@[simp] theorem isSome_met : (met seen name b).isSome = decide (name ∈ seen) := by
  rw [met]
  split <;> simp_all

@[simp] theorem met_cons {k : String} :
    met (k :: seen) name b = if name = k then some b else met seen name b := by
  by_cases h : name = k <;> simp [met, h]

theorem met_of_mem (h : name ∈ seen) : met seen name b = some b := if_pos h

/-- A default that was not met is there all the same. -/
theorem getD_met {default : β} (h : name ∈ seen ∨ b = default) :
    (met seen name b).getD default = b := by
  rcases h with hin | hdefault
  · rw [met_of_mem hin]
    rfl
  · rw [met]
    split
    · rfl
    · exact hdefault.symm

end Met

namespace Shape

variable {δ α : Type} {shape : Shape δ α}

/-! ## 3. Each field once -/

/-- A member that its field takes is put into the draft. -/
theorem readMembers_cons {draft draft' : δ} {k : String}
    {v : Outline} {field : Field δ} (hfind : shape.fields.find? (·.name = k) = some field)
    (hset : field.isSet draft = false) (hread : field.read v draft = .ok draft')
    (ms : List (Option String × Outline)) :
    shape.readMembers draft ((some k, v) :: ms) = shape.readMembers draft' ms := by
  rw [readMembers, hfind]
  simp only [hset, hread]
  rfl

/-- A member that is read fills a field that was not filled yet. -/
theorem of_readMembers_field {d d' : δ} {k : String} {v : Outline} {field : Field δ}
    {members : List (Option String × Outline)}
    (hfind : shape.fields.find? (·.name = k) = some field)
    (hread : shape.readMembers d ((some k, v) :: members) = .ok d') :
    field.isSet d = false ∧ ∃ mid, field.read v d = .ok mid ∧
      shape.readMembers mid members = .ok d' := by
  rw [readMembers, hfind] at hread
  cases hset : field.isSet d with
  | true =>
    simp only [hset, if_true] at hread
    cases hread
  | false =>
    cases hfield : field.read v d with
    | error fault =>
      simp only [hset, hfield] at hread
      cases hread
    | ok mid =>
      simp only [hset, hfield] at hread
      exact ⟨rfl, mid, rfl, hread⟩

/-- The draft keeps track of which fields were read, and the record needs the required ones. -/
structure Tracks (shape : Shape δ α) : Prop where
  nodup : (shape.fields.map Field.name).Nodup
  unset : ∀ f ∈ shape.fields, f.isSet shape.draft = false
  sets : ∀ f ∈ shape.fields, ∀ {v d d'}, f.read v d = .ok d' →
    ∀ g ∈ shape.fields, g.isSet d' = (decide (g.name = f.name) || g.isSet d)
  needs : ∀ {d x}, shape.build d = .ok x → ∀ f ∈ shape.fields, f.required = true → f.isSet d = true

/-- Once an object is read, each of its fields is set as often as its key is there. -/
theorem Tracks.isSet_readMembers (h : shape.Tracks) {members : List (Option String × Outline)}
    {d d' : δ} (hread : shape.readMembers d members = .ok d') {f : Field δ}
    (hf : f ∈ shape.fields) :
    (f.isSet d').toNat = (f.isSet d).toNat + members.countP fun m => m.1 = some f.name := by
  induction members generalizing d with
  | nil =>
    obtain rfl : d = d' := Except.ok.inj hread
    rfl
  | cons m members ih =>
    obtain ⟨k, v⟩ := m
    cases k with
    | none => cases hread
    | some k =>
      rw [List.countP_cons]
      cases hfind : shape.fields.find? (·.name = k) with
      | none =>
        -- no field has this key
        have hne : ¬ k = f.name := fun hk => by
          have hnot := List.find?_eq_none.1 hfind f hf
          exact hnot (decide_eq_true hk.symm)
        rw [readMembers, hfind] at hread
        dsimp only at hread
        split at hread
        · rw [ih hread]
          simp [hne]
        · cases hread
      | some g =>
        have hg := List.mem_of_find?_eq_some hfind
        have hk : g.name = k := by simpa using List.find?_some hfind
        obtain ⟨hset, mid, hfield, hrest⟩ := of_readMembers_field hfind hread
        rw [ih hrest, h.sets g hg hfield f hf]
        by_cases hname : f.name = g.name
        · obtain rfl : f = g := List.inj_on_of_nodup_map h.nodup hf hg hname
          simp [hset, hk]
          omega
        · have hne : ¬ k = f.name := fun hkf => hname (hkf.symm.trans hk.symm)
          simp [hname, hne]

theorem of_decode_object {members : List (Option String × Outline)} {x : α}
    (h : shape.decode (.object members true) = .ok x) :
    ∃ d, shape.readMembers shape.draft members = .ok d ∧ shape.build d = .ok x := by
  rw [decode] at h
  cases hread : shape.readMembers shape.draft members with
  | error fault =>
    rw [hread] at h
    cases h
  | ok d =>
    rw [hread] at h
    exact ⟨d, rfl, h⟩

/-- In an object that decodes, each key of a field is there at most once, and each required one is
there. -/
theorem Tracks.once (h : shape.Tracks) {members : List (Option String × Outline)} {x : α}
    (hdecode : shape.decode (.object members true) = .ok x) {f : Field δ} (hf : f ∈ shape.fields) :
    members.countP (fun m => m.1 = some f.name) ≤ 1 ∧
      (f.required = true → 0 < members.countP fun m => m.1 = some f.name) := by
  obtain ⟨d, hread, hbuild⟩ := of_decode_object hdecode
  have hset := h.isSet_readMembers hread hf
  rw [h.unset f hf] at hset
  simp only [Bool.toNat_false, Nat.zero_add] at hset
  rw [← hset]
  refine ⟨Bool.toNat_le _, fun hrequired => ?_⟩
  rw [h.needs hbuild f hf hrequired]
  decide

/-- An array that ends before a required field does not decode. -/
theorem readItems_tooShort {fields : List (Field δ)} {items : List Outline}
    (h : ∃ f ∈ fields.drop items.length, f.required = true) (closed : Bool) (i : Nat) (d : δ) :
    ∃ fault, shape.readItems closed i d fields items = .error fault := by
  induction fields generalizing items i d with
  | nil =>
    obtain ⟨f, hf, -⟩ := h
    rw [List.drop_nil] at hf
    cases hf
  | cons g fields ih =>
    cases items with
    | nil =>
      cases hclosed : closed with
      | false => exact ⟨.malformed, rfl⟩
      | true =>
        rw [readItems]
        cases hrequired : g.required with
        | true => exact ⟨_, rfl⟩
        | false =>
          -- the required field is a later one
          obtain ⟨f, hf, hneeded⟩ := h
          rcases List.mem_cons.1 hf with rfl | hin
          · rw [hrequired] at hneeded
            cases hneeded
          · simpa [hclosed] using @ih [] ⟨f, hin, hneeded⟩ (i + 1) d
    | cons v items =>
      rw [readItems]
      cases hread : g.read v d with
      | error fault => exact ⟨fault.inside (.item i), rfl⟩
      | ok d' => exact ih h (i + 1) d'

/-! ## 4. Fields as they come -/

/-- The record is rendered with these fields. `draftOf` has what was read of them once the fields of
the given names were met. -/
structure Renders (shape : Shape δ α) (x : α) (fields : List Rendered) (draftOf : List String → δ) :
    Prop where
  names : fields.map Rendered.name = shape.fields.map Field.name
  empty : draftOf [] = shape.draft
  isSet : ∀ f ∈ shape.fields, ∀ seen, f.isSet (draftOf seen) = decide (f.name ∈ seen)
  read : ∀ r ∈ fields, ∃ f ∈ shape.fields, f.name = r.name ∧ ∀ seen,
    f.read r.value.outline (draftOf seen) = .ok (draftOf (r.name :: seen))
  build : ∀ seen, (∀ r ∈ fields, r.name ∈ seen ∨ r.isDefault = true) →
    shape.build (draftOf seen) = .ok x

/-- The keys of the members that are those of fields. -/
def knownKeys (fields : List Rendered) (members : List (Option String × Outline)) : List String :=
  (members.filterMap Prod.fst).filter (· ∈ fields.map Rendered.name)

variable {x : α} {fields : List Rendered} {draftOf : List String → δ}

theorem Renders.read_field (h : shape.Renders x fields draftOf) (htracks : shape.Tracks)
    {f : Field δ} (hf : f ∈ shape.fields) {r : Rendered} (hr : r ∈ fields) (hname : f.name = r.name)
    (seen : List String) :
    f.read r.value.outline (draftOf seen) = .ok (draftOf (r.name :: seen)) := by
  obtain ⟨g, hg, hgr, hread⟩ := h.read r hr
  obtain rfl : f = g := List.inj_on_of_nodup_map htracks.nodup hf hg (hname.trans hgr.symm)
  exact hread seen

theorem Renders.readMembers (h : shape.Renders x fields draftOf) (htracks : shape.Tracks)
    {members : List (Option String × Outline)}
    (hmembers : ∀ m ∈ members, (∃ r ∈ fields, m = r.entry) ∨
      ∃ k, m.1 = some k ∧ k ∉ fields.map Rendered.name ∧ m.2.isWhole = true)
    {seen : List String} (hnodup : (seen ++ knownKeys fields members).Nodup) :
    shape.readMembers (draftOf seen) members =
      .ok (draftOf ((knownKeys fields members).reverse ++ seen)) := by
  induction members generalizing seen with
  | nil => rfl
  | cons m members ih =>
    have hrest := fun m' hm' => hmembers m' (List.mem_cons_of_mem _ hm')
    obtain ⟨key, v⟩ := m
    rcases hmembers _ List.mem_cons_self with ⟨r, hr, hentry⟩ | ⟨k, hkey, hk, hwhole⟩
    · obtain ⟨rfl, rfl⟩ := Prod.mk.inj hentry
      have hknown : r.name ∈ shape.fields.map Field.name := h.names ▸ List.mem_map_of_mem hr
      have hkeys : knownKeys fields ((some r.name, r.value.outline) :: members) =
          r.name :: knownKeys fields members := by
        simp only [knownKeys, List.filterMap_cons, h.names]
        exact List.filter_cons_of_pos (by simpa using hknown)
      rw [hkeys] at hnodup ⊢
      obtain ⟨field, hfind⟩ : ∃ field, shape.fields.find? (·.name = r.name) = some field := by
        obtain ⟨f, hf, hfr⟩ := List.mem_map.1 hknown
        exact Option.isSome_iff_exists.1 (List.find?_isSome.2 ⟨f, hf, decide_eq_true hfr⟩)
      have hfield := List.mem_of_find?_eq_some hfind
      have hname : field.name = r.name := by simpa using List.find?_some hfind
      have hnew : r.name ∉ seen := fun hin =>
        (List.nodup_append.1 hnodup).2.2 _ hin _ List.mem_cons_self rfl
      have hset : field.isSet (draftOf seen) = false := by
        rw [h.isSet field hfield, hname]
        exact decide_eq_false hnew
      have hread := h.read_field htracks hfield hr hname seen
      rw [readMembers_cons hfind hset hread, ih hrest (List.perm_middle.nodup_iff.1 hnodup),
        List.reverse_cons, List.append_assoc]
      rfl
    · obtain rfl : key = some k := hkey
      have hkeys : knownKeys fields ((some k, v) :: members) = knownKeys fields members := by
        simp only [knownKeys, List.filterMap_cons]
        exact List.filter_cons_of_neg (by simpa using hk)
      have hfind : shape.fields.find? (·.name = k) = none := by
        refine List.find?_eq_none.2 fun f hf hfk => hk ?_
        rw [h.names, ← of_decide_eq_true hfk]
        exact List.mem_map_of_mem hf
      rw [hkeys] at hnodup ⊢
      rw [Shape.readMembers, hfind]
      dsimp only
      rw [if_pos hwhole, ih hrest hnodup]

/-- Objects decode to the record whatever the order of their members. -/
theorem Renders.decode_object (h : shape.Renders x fields draftOf) (htracks : shape.Tracks)
    {members : List (Option String × Outline)} (harranged : Arranged fields members)
    (hwhole : ∀ m ∈ members, m.2.isWhole = true) :
    shape.decode (.object members true) = .ok x := by
  obtain ⟨hperm, hshown, hleft, hothers⟩ := harranged
  next shown others =>
  have hmembers : ∀ m ∈ members, (∃ r ∈ fields, m = r.entry) ∨
      ∃ k, m.1 = some k ∧ k ∉ fields.map Rendered.name ∧ m.2.isWhole = true := by
    intro m hm
    rcases List.mem_append.1 (hperm.subset hm) with hin | hin
    · obtain ⟨r, hr, rfl⟩ := List.mem_map.1 hin
      exact .inl ⟨r, hshown.subset hr, rfl⟩
    · obtain ⟨k, hkey, hk⟩ := hothers m hin
      exact .inr ⟨k, hkey, hk, hwhole m hm⟩
  -- so the keys that count are those of the fields that are shown
  have hkeys : (knownKeys fields members).Perm (shown.map Rendered.name) := by
    have hshownKeys : (shown.map Rendered.entry).filterMap Prod.fst = shown.map Rendered.name := by
      rw [List.filterMap_map]
      exact congrFun List.filterMap_eq_map shown
    have hall : (shown.map Rendered.name).filter (· ∈ fields.map Rendered.name) =
        shown.map Rendered.name :=
      List.filter_eq_self.2 fun k hk => decide_eq_true ((hshown.map _).subset hk)
    have hnone : (others.filterMap Prod.fst).filter (· ∈ fields.map Rendered.name) = [] := by
      refine List.filter_eq_nil_iff.2 fun k hk => ?_
      obtain ⟨m, hm, hkey⟩ := List.mem_filterMap.1 hk
      obtain ⟨k', hkey', hk'⟩ := hothers m hm
      obtain rfl : k' = k := Option.some.inj (hkey'.symm.trans hkey)
      simpa using hk'
    have hmoved := (hperm.filterMap Prod.fst).filter (· ∈ fields.map Rendered.name)
    rw [List.filterMap_append, hshownKeys, List.filter_append, hall, hnone,
      List.append_nil] at hmoved
    exact hmoved
  have hdistinct : (knownKeys fields members).Nodup := by
    have hfields : (fields.map Rendered.name).Nodup := h.names ▸ htracks.nodup
    exact hkeys.nodup_iff.2 (hfields.sublist (hshown.map _))
  have hread := @Renders.readMembers _ _ _ _ _ _ h htracks _ hmembers [] hdistinct
  rw [h.empty] at hread
  rw [decode, hread]
  refine h.build _ fun r hr => ?_
  rcases hleft r hr with hin | hdefault
  · left
    rw [List.append_nil, List.mem_reverse, hkeys.mem_iff]
    exact List.mem_map_of_mem hin
  · exact .inr hdefault

/-- The object of the fields themselves is one of these. -/
theorem Renders.decode_rendered (h : shape.Renders x fields draftOf) (htracks : shape.Tracks) :
    shape.decode (.object (fields.map Rendered.entry) true) = .ok x := by
  have harranged : Arranged fields (fields.map Rendered.entry) :=
    @Arranged.mk _ _ fields [] (by simp) (.refl _) (fun _ hf => .inl hf) nofun
  refine h.decode_object htracks harranged fun m hm => ?_
  obtain ⟨r, -, rfl⟩ := List.mem_map.1 hm
  exact r.value.spells_write.isWhole

theorem Renders.readItems (h : shape.Renders x fields draftOf) (htracks : shape.Tracks)
    {fs : List (Field δ)} (hfs : ∀ f ∈ fs, f ∈ shape.fields) {rs : List Rendered}
    (hrs : ∀ r ∈ rs, r ∈ fields)
    (hnames : rs.map Rendered.name = fs.map Field.name) (i : Nat) (seen : List String) :
    shape.readItems true i (draftOf seen) fs (rs.map fun r => r.value.outline) =
      .ok (draftOf ((fs.map Field.name).reverse ++ seen)) := by
  induction fs generalizing rs i seen with
  | nil =>
    obtain rfl : rs = [] := List.map_eq_nil_iff.1 hnames
    rfl
  | cons f fs ih =>
    cases rs with
    | nil => cases hnames
    | cons r rs =>
      obtain ⟨hname, hnames⟩ := List.cons.inj hnames
      have hread := h.read_field htracks (hfs f List.mem_cons_self) (hrs r List.mem_cons_self)
        hname.symm seen
      rw [hname] at hread
      rw [List.map_cons, Shape.readItems, hread]
      show shape.readItems true (i + 1) (draftOf (f.name :: seen)) fs _ = _
      rw [ih (fun g hg => hfs g (List.mem_cons_of_mem _ hg))
          (fun s hs => hrs s (List.mem_cons_of_mem _ hs)) hnames,
        List.map_cons, List.reverse_cons, List.append_assoc]
      rfl

theorem Renders.decode_array (h : shape.Renders x fields draftOf) (htracks : shape.Tracks) :
    shape.decode (.array (fields.map fun f => f.value.outline) true) = .ok x := by
  have hitems := h.readItems htracks (fun _ hf => hf) (fun _ hr => hr) h.names 0 []
  have hall : ∀ r ∈ fields, r.name ∈ (shape.fields.map Field.name).reverse ++ [] ∨
      r.isDefault = true := by
    intro r hr
    left
    rw [List.append_nil, List.mem_reverse, ← h.names]
    exact List.mem_map_of_mem hr
  rw [decode, ← h.empty, hitems]
  exact h.build _ hall

/-- Texts of a record, however they are laid out. -/
theorem Tracks.lenient (htracks : shape.Tracks) {rendered : α → List Rendered}
    {draftOf : α → List String → δ} (hrenders : ∀ x, shape.Renders x (rendered x) (draftOf x))
    {read : List Char → Except Fault α}
    (hread : ∀ {text o}, Spells text o → read text = shape.decode o) :
    Lenient read rendered (shape.fields.map Field.name)
      ((shape.fields.filter Field.required).map Field.name) where
  object htext harranged := by
    rw [hread htext]
    exact (hrenders _).decode_object htracks harranged htext.isWhole_of_mem.2
  array htext := by
    rw [hread htext]
    exact (hrenders _).decode_array htracks
  repeated {text members name} htext hname htwice := by
    obtain ⟨f, hf, rfl⟩ := List.mem_map.1 hname
    rw [hread htext]
    cases hdecode : shape.decode (.object members true) with
    | error fault => exact ⟨fault, rfl⟩
    | ok x =>
      have honce := (htracks.once hdecode hf).1
      omega
  missing {text members name} htext hname hnone := by
    obtain ⟨f, hf, rfl⟩ := List.mem_map.1 hname
    obtain ⟨hf, hrequired⟩ := List.mem_filter.1 hf
    rw [hread htext]
    cases hdecode : shape.decode (.object members true) with
    | error fault => exact ⟨fault, rfl⟩
    | ok x =>
      have hthere := (htracks.once hdecode hf).2 hrequired
      rw [List.countP_pos_iff] at hthere
      obtain ⟨m, hm, hkey⟩ := hthere
      exact absurd (of_decide_eq_true hkey) (hnone m hm)
  tooShort {text items} htext hshort := by
    have hneeded : ∃ f ∈ shape.fields.drop items.length, f.required = true := by
      obtain ⟨name, hname, hrequired⟩ := hshort
      rw [← List.map_drop] at hname
      obtain ⟨f, hf, rfl⟩ := List.mem_map.1 hname
      obtain ⟨g, hg, hgf⟩ := List.mem_map.1 hrequired
      obtain ⟨hg, hneeded⟩ := List.mem_filter.1 hg
      obtain rfl : g = f :=
        List.inj_on_of_nodup_map htracks.nodup hg (List.mem_of_mem_drop hf) hgf
      exact ⟨g, hf, hneeded⟩
    obtain ⟨fault, hitems⟩ := readItems_tooShort hneeded true 0 shape.draft
    refine ⟨fault, ?_⟩
    rw [hread htext, decode, hitems]
    rfl

end Shape

theorem decodeDocument_clean {α : Type} (decode : Decoder α) (o : Outline) :
    decodeDocument decode ⟨o, true⟩ = decode o := by
  rw [decodeDocument]
  cases decode o <;> rfl

end Switchboard.Wire

import DrawnSchema.Proofs.Document.Complaints
import Mathlib.Data.List.Pairwise

/-!
# Other spellings of attributes

An attribute of a record has several keys that it can be given under. To respell it is to give it
under another one of them, where it was given once. A respelled record has the same attributes, and
under keys that belong to no attribute it has what it had.
-/

namespace DrawnSchema

/-! ### Respelling -/

/-- An attribute that a record may have: its key, and what may stand in the place of its value where
that holds records itself. -/
structure Slot where
  key : Key
  respelled : Value → Value → Prop := fun _ _ => False

/-- The attribute of a key whose value holds no records. -/
def Slot.plain (k : Key) : Slot := { key := k }

def Key.accepts (k : Key) (s : Scalar) : Bool := k.accepted.any fun name => s == .text name

theorem Key.accepts_iff {k : Key} {s : Scalar} :
    k.accepts s = true ↔ ∃ name ∈ k.accepted, s = .text name := by
  simp [accepts]

/-- An entry of a map and one in its place: the same, or, if no other entry gives the attribute, one
that gives it under any of its spellings, its value respelled or not. -/
inductive RespelledEntry (slots : List Slot) (m : Entries) :
    Scalar × Value → Scalar × Value → Prop
  | kept (e : Scalar × Value) : RespelledEntry slots m e e
  | respelled {s : Slot} {name name' : String} {v v' : Value} (slot : s ∈ slots)
      (once : m.countP (fun e => s.key.accepts e.1) ≤ 1) (spelled : name ∈ s.key.accepted)
      (accepted : name' ∈ s.key.accepted) (value : v = v' ∨ s.respelled v v') :
      RespelledEntry slots m (.text name, v) (.text name', v')

/-- A map with attributes under other spellings. Which attributes may be respelled can depend on the
map. One without entries has none. -/
inductive RespelledRecord (slots : Entries → List Slot) (v v' : Value) : Prop
  | intro {m m' : Entries} (entries : v.exposed = .map m) (entries' : v'.exposed = .map m')
      (nonempty : m ≠ []) (each : List.Forall₂ (RespelledEntry (slots m) m) m m')

/-- A list in which some items have been respelled. -/
inductive RespelledList (item : Value → Value → Prop) (v v' : Value) : Prop
  | intro {vs vs' : List Value} (items : v.exposed = .list vs) (items' : v'.exposed = .list vs')
      (each : List.Forall₂ (fun v v' => v = v' ∨ item v v') vs vs')

/-! ### What respelled maps have in common -/

namespace Entries

variable {slots : List Slot} {s : Slot} {m m' : Entries} {name : String} {v : Value}

/-- Maps that agree on the attributes of a record and on all keys that belong to none of them. -/
structure Alike (slots : List Slot) (m m' : Entries) : Prop where
  others : ∀ name, (∀ s ∈ slots, name ∉ s.key.accepted) → m'.get? name = m.get? name
  agree : ∀ s ∈ slots, AgreeOn (fun v v' => v = v' ∨ s.respelled v v') s.key m m'

theorem get?_eq_of_forall₂
    (h : List.Forall₂ (fun e e' => e' = e ∨ e.1 ≠ .text name ∧ e'.1 ≠ .text name) m m') :
    get? m' name = get? m name := by
  induction h with
  | nil => rfl
  | cons he _ ih =>
      rw [get?_cons, get?_cons, ih]
      obtain rfl | ⟨hne, hne'⟩ := he
      · rfl
      · rw [if_neg hne, if_neg hne']

theorem pick_cons_of_not_accepts {k : Key} {e : Scalar × Value} (h : k.accepts e.1 = false) :
    pick (e :: m) k = m.pick k := by
  refine pick_congr fun name hname => ?_
  rw [get?_cons, if_neg]
  rintro he
  rw [he, ← Bool.not_eq_true, Key.accepts_iff] at h
  exact h ⟨name, hname, rfl⟩

theorem get?_eq_none_of_not_accepts {k : Key} (h : ∀ e ∈ m, k.accepts e.1 = false)
    (hname : name ∈ k.accepted) : m.get? name = none := by
  rw [Option.eq_none_iff_forall_ne_some]
  intro v hv
  have hnot := h _ (mem_of_get? hv)
  rw [← Bool.not_eq_true, Key.accepts_iff] at hnot
  exact hnot ⟨name, hname, rfl⟩

/-- An attribute is what its only entry gives. -/
theorem pick_cons_of_only {k : Key} (hname : name ∈ k.accepted)
    (h : ∀ e ∈ m, k.accepts e.1 = false) : pick ((.text name, v) :: m) k = some (name, v) := by
  have hfound : ∀ other ∈ k.accepted,
      ((get? ((.text name, v) :: m) other).map fun w => (other, w)) =
        if name = other then (some v).map fun w => (name, w) else none := by
    intro other hother
    rw [get?_cons, get?_eq_none_of_not_accepts h hother]
    by_cases heq : name = other <;> simp [heq]
  exact findSome?_eq_of_unique hname hfound

/-- A spelling is one of a single attribute. -/
theorem slot_eq_of_mem_accepted {t : Slot} (hdistinct : Key.Distinct (slots.map (·.key)))
    (hs : s ∈ slots) (ht : t ∈ slots) (hname : name ∈ s.key.accepted)
    (hname' : name ∈ t.key.accepted) : s = t := by
  have hnodup := hdistinct.1
  rw [List.flatMap_map, List.nodup_flatMap] at hnodup
  by_contra hne
  have hsymm : Std.Symm (Function.onFun List.Disjoint fun t : Slot => t.key.accepted) :=
    ⟨fun _ _ h _ hname hname' => h hname' hname⟩
  exact hnodup.2.forall hs ht hne hname hname'

end Entries

section Respelled

variable {slots : List Slot} {s : Slot} {m l l' : Entries}
  (hdistinct : Key.Distinct (slots.map (·.key)))
include hdistinct

theorem RespelledEntry.accepts_eq {e e' : Scalar × Value} (h : RespelledEntry slots m e e')
    (hs : s ∈ slots) : s.key.accepts e'.1 = s.key.accepts e.1 := by
  cases h with
  | kept => rfl
  | @respelled t name name' v v' slot once spelled accepted value =>
      rw [Bool.eq_iff_iff, Key.accepts_iff, Key.accepts_iff]
      constructor
      · rintro ⟨_, hname, heq⟩
        obtain rfl := Scalar.text.inj heq
        obtain rfl := Entries.slot_eq_of_mem_accepted hdistinct hs slot hname accepted
        exact ⟨name, spelled, rfl⟩
      · rintro ⟨_, hname, heq⟩
        obtain rfl := Scalar.text.inj heq
        obtain rfl := Entries.slot_eq_of_mem_accepted hdistinct hs slot hname spelled
        exact ⟨name', accepted, rfl⟩

theorem accepts_eq_false_of_forall₂ (h : List.Forall₂ (RespelledEntry slots m) l l')
    (hs : s ∈ slots) (hnot : ∀ e ∈ l, s.key.accepts e.1 = false) :
    ∀ e ∈ l', s.key.accepts e.1 = false := by
  induction h with
  | nil => exact hnot
  | cons he _ ih =>
      rw [List.forall_mem_cons] at hnot ⊢
      exact ⟨(he.accepts_eq hdistinct hs).trans hnot.1, ih hnot.2⟩

/-- Where an attribute is given once, it is given once in the respelled map. -/
theorem agreeOn_of_once (h : List.Forall₂ (RespelledEntry slots m) l l') (hs : s ∈ slots)
    (honce : l.countP (fun e => s.key.accepts e.1) ≤ 1) :
    Entries.AgreeOn (fun v v' => v = v' ∨ s.respelled v v') s.key l l' := by
  induction h with
  | nil => exact Entries.AgreeOn.refl _ (fun _ => .inl rfl)
  | @cons e e' l l' he hrest ih =>
      have haccepts := he.accepts_eq hdistinct hs
      cases hspelled : s.key.accepts e.1 with
      | false =>
          rw [List.countP_cons_of_neg (by simp [hspelled])] at honce
          exact (ih honce).congr (Entries.pick_cons_of_not_accepts hspelled)
            (Entries.pick_cons_of_not_accepts (haccepts.trans hspelled))
      | true =>
          rw [List.countP_cons_of_pos (by simp [hspelled])] at honce
          have hzero : l.countP (fun e => s.key.accepts e.1) = 0 := by omega
          have hnot : ∀ e ∈ l, s.key.accepts e.1 = false := by
            simpa using List.countP_eq_zero.mp hzero
          have hnot' := accepts_eq_false_of_forall₂ hdistinct hrest hs hnot
          cases he with
          | kept =>
              obtain ⟨name, hname, heq⟩ := Key.accepts_iff.mp hspelled
              obtain ⟨key, v⟩ := e
              obtain rfl : key = .text name := heq
              rw [Entries.AgreeOn, Entries.pick_cons_of_only hname hnot,
                Entries.pick_cons_of_only hname hnot']
              exact .some (.inl rfl)
          | @respelled t name name' v v' slot once spelled accepted value =>
              obtain ⟨_, hname, heq⟩ := Key.accepts_iff.mp hspelled
              obtain rfl := Scalar.text.inj heq
              obtain rfl := Entries.slot_eq_of_mem_accepted hdistinct hs slot hname spelled
              rw [Entries.AgreeOn, Entries.pick_cons_of_only spelled hnot,
                Entries.pick_cons_of_only accepted hnot']
              exact .some value

theorem alike_of_forall₂ {m' : Entries} (h : List.Forall₂ (RespelledEntry slots m) m m') :
    m.Alike slots m' := by
  refine ⟨fun name hname => ?_, fun s hs => ?_⟩
  · refine Entries.get?_eq_of_forall₂ (h.imp fun e e' he => ?_)
    cases he with
    | kept => exact .inl rfl
    | @respelled t _ _ _ _ slot _ spelled accepted _ =>
        have hne {other : String} (hother : other ∈ t.key.accepted) :
            Scalar.text other ≠ .text name :=
          fun heq => hname _ slot (Scalar.text.inj heq ▸ hother)
        exact .inr ⟨hne spelled, hne accepted⟩
  · by_cases honce : m.countP (fun e => s.key.accepts e.1) ≤ 1
    · exact agreeOn_of_once hdistinct h hs honce
    -- An attribute that is given more than once stays as it was given.
    · refine (Entries.AgreeOn.refl m fun _ => .inl rfl).congr rfl (Entries.pick_congr ?_)
      refine fun name hname => Entries.get?_eq_of_forall₂ (h.imp fun e e' he => ?_)
      cases he with
      | kept => exact .inl rfl
      | @respelled t _ _ _ _ slot once spelled accepted _ =>
          have hne {other : String} (hother : other ∈ t.key.accepted) :
              Scalar.text other ≠ .text name := by
            intro heq
            obtain rfl := Scalar.text.inj heq
            obtain rfl := Entries.slot_eq_of_mem_accepted hdistinct hs slot hname hother
            exact honce once
          exact .inr ⟨hne spelled, hne accepted⟩

end Respelled

namespace RespelledRecord

variable {slots : Entries → List Slot} {v v' : Value}

theorem exists_alike (h : RespelledRecord slots v v')
    (hdistinct : ∀ m, Key.Distinct ((slots m).map (·.key))) :
    ∃ m m' : Entries, v.exposed = .map m ∧ v'.exposed = .map m' ∧ m.Alike (slots m) m' := by
  obtain @⟨m, m', hv, hv', -, heach⟩ := h
  exact ⟨m, m', hv, hv', alike_of_forall₂ (hdistinct m) heach⟩

theorem readsAlike {α : Type} {type : RecordType} {read : Entries → Reading α}
    (h : RespelledRecord slots v v') (hdistinct : ∀ m, Key.Distinct ((slots m).map (·.key)))
    (hread : ∀ m m' : Entries, m.Alike (slots m) m' → (read m').unplaced = (read m).unplaced) :
    ReadsAlike (readRecord type read) v v' := by
  obtain ⟨m, m', hv, hv', halike⟩ := h.exists_alike hdistinct
  exact readsAlike_record hv hv' (hread m m' halike)

end RespelledRecord

/-! ### Attributes of maps that are alike -/

namespace Entries.Alike

variable {α : Type} {slots : List Slot} {s : Slot} {m m' : Entries} {k : Key} {name : String}
  {v v' : Value} {read : Value → Reading α}

theorem required (h : m.Alike slots m') (hs : s ∈ slots)
    (hread : ∀ v v', s.respelled v v' → ReadsAlike read v v') :
    (m'.required s.key read).unplaced = (m.required s.key read).unplaced := by
  refine (h.agree s hs).required ?_
  rintro v v' (rfl | hrespelled)
  · exact .refl read v
  · exact hread v v' hrespelled

theorem withDefault (h : m.Alike slots m') (hs : s ∈ slots) (default : α)
    (hread : ∀ v v', s.respelled v v' → ReadsAlike read v v') :
    (m'.withDefault s.key default read).unplaced = (m.withDefault s.key default read).unplaced := by
  refine (h.agree s hs).withDefault default ?_
  rintro v v' (rfl | hrespelled)
  · exact .refl read v
  · exact hread v v' hrespelled

theorem required_plain (h : m.Alike slots m') (hk : Slot.plain k ∈ slots) :
    (m'.required k read).unplaced = (m.required k read).unplaced :=
  h.required hk fun _ _ => False.elim

theorem withDefault_plain (h : m.Alike slots m') (hk : Slot.plain k ∈ slots) (default : α) :
    (m'.withDefault k default read).unplaced = (m.withDefault k default read).unplaced :=
  h.withDefault hk default fun _ _ => False.elim

theorem optional_plain (h : m.Alike slots m') (hk : Slot.plain k ∈ slots) :
    (m'.optional k read).unplaced = (m.optional k read).unplaced :=
  h.withDefault_plain hk none

/-- What is under the only spelling of an attribute. -/
theorem get?_single (h : m.Alike slots m') (hs : s ∈ slots) (hkey : s.key.accepted = [name]) :
    Option.Rel (fun v v' => v = v' ∨ s.respelled v v') (m.get? name) (m'.get? name) :=
  (agreeOn_iff_of_single hkey).mp (h.agree s hs)

theorem isSome_get? (h : m.Alike slots m') (hs : s ∈ slots) (hkey : s.key.accepted = [name]) :
    (m'.get? name).isSome = (m.get? name).isSome := by
  have hrel := h.get?_single hs hkey
  generalize m.get? name = a at hrel ⊢
  generalize m'.get? name = b at hrel ⊢
  cases hrel <;> rfl

theorem get?_eq (h : m.Alike slots m') (hs : Slot.plain (.plain name) ∈ slots) :
    m'.get? name = m.get? name := by
  have hrel := h.get?_single hs rfl
  generalize m.get? name = a at hrel ⊢
  generalize m'.get? name = b at hrel ⊢
  cases hrel with
  | some hv => rw [hv.resolve_right id]
  | none => rfl

theorem getD_eq (h : m.Alike slots m') (hs : Slot.plain (.plain name) ∈ slots) :
    m'.getD name = m.getD name := by
  rw [getD, getD, h.get?_eq hs]

/-- Maps with something put under a key are alike if they were, apart from an attribute of which the
key is the only spelling. -/
theorem insert {slots' : List Slot} (h : m.Alike slots m')
    (hkeys : ∀ s ∈ slots, ∃ t ∈ slots', t.key = s.key)
    (hother : (∀ t ∈ slots', name ∉ t.key.accepted) → v' = v)
    (hslots : ∀ t ∈ slots', t ∈ slots ∧ name ∉ t.key.accepted ∨
      t.key.accepted = [name] ∧ (v = v' ∨ t.respelled v v')) :
    (m.insert name v).Alike slots' (m'.insert name v') := by
  refine ⟨fun other hnone => ?_, fun t ht => ?_⟩
  · by_cases heq : other = name
    · subst heq
      rw [get?_insert_self, get?_insert_self, hother hnone]
    · rw [get?_insert_of_ne heq, get?_insert_of_ne heq]
      refine h.others other fun s hs => ?_
      obtain ⟨t, ht, hkey⟩ := hkeys s hs
      rw [← hkey]
      exact hnone t ht
  · obtain ⟨hs, hname⟩ | ⟨hkey, hv⟩ := hslots t ht
    · have hne : ∀ other ∈ t.key.accepted, other ≠ name :=
        fun other haccepted heq => hname (heq ▸ haccepted)
      exact (h.agree t hs).congr (pick_congr fun other hname => get?_insert_of_ne (hne other hname))
        (pick_congr fun other hname => get?_insert_of_ne (hne other hname))
    · rw [agreeOn_iff_of_single hkey, get?_insert_self, get?_insert_self]
      exact .some hv

theorem insert_same (h : m.Alike slots m') (v : Value)
    (hsingle : ∀ s ∈ slots, name ∈ s.key.accepted → s.key.accepted = [name]) :
    (m.insert name v).Alike slots (m'.insert name v) := by
  refine h.insert (fun s hs => ⟨s, hs, rfl⟩) (fun _ => rfl) fun s hs => ?_
  by_cases hname : name ∈ s.key.accepted
  · exact Or.inr ⟨hsingle s hs hname, Or.inl rfl⟩
  · exact Or.inl ⟨hs, hname⟩

/-- The last of the attributes, if it has one spelling, may be set on both sides. -/
theorem insert_last {t t' : Slot} (h : m.Alike (slots ++ [t]) m') (hkey : t'.key = t.key)
    (hsingle : t'.key.accepted = [name]) (hslots : ∀ s ∈ slots, name ∉ s.key.accepted)
    (hv : v = v' ∨ t'.respelled v v') :
    (m.insert name v).Alike (slots ++ [t']) (m'.insert name v') := by
  have hlast : name ∈ t'.key.accepted := hsingle ▸ List.mem_singleton_self name
  refine h.insert (fun s hs => ?_) (fun hnone => ?_) fun s hs => ?_
  · obtain hs | hs := List.mem_append.mp hs
    · exact ⟨s, List.mem_append_left _ hs, rfl⟩
    · exact ⟨t', List.mem_append_right _ (List.mem_singleton_self t'),
        (List.mem_singleton.mp hs) ▸ hkey⟩
  · exact absurd hlast (hnone t' (List.mem_append_right _ (List.mem_singleton_self t')))
  · obtain hs | hs := List.mem_append.mp hs
    · exact Or.inl ⟨List.mem_append_left _ hs, hslots s hs⟩
    · obtain rfl := List.mem_singleton.mp hs
      exact Or.inr ⟨hsingle, hv⟩

/-- Maps stay alike when a key of no attribute goes. -/
theorem erase (h : m.Alike slots m') (hname : ∀ s ∈ slots, name ∉ s.key.accepted) :
    (m.erase name).Alike slots (m'.erase name) := by
  refine ⟨fun other hnone => ?_, fun s hs => ?_⟩
  · by_cases heq : other = name
    · subst heq
      rw [get?_erase_self, get?_erase_self]
    · rw [get?_erase_of_ne heq, get?_erase_of_ne heq, h.others other hnone]
  · have hne : ∀ other ∈ s.key.accepted, other ≠ name :=
      fun _ hother heq => hname s hs (heq ▸ hother)
    exact (h.agree s hs).congr (pick_congr fun other hother => get?_erase_of_ne (hne other hother))
      (pick_congr fun other hother => get?_erase_of_ne (hne other hother))

/-- The last of the attributes may be told to agree in another way. -/
theorem respell {t t' : Slot} (h : m.Alike (slots ++ [t]) m') (hkey : t'.key = t.key)
    (hagree : AgreeOn (fun v v' => v = v' ∨ t'.respelled v v') t'.key m m') :
    m.Alike (slots ++ [t']) m' := by
  refine ⟨fun name hname => h.others name fun s hs => ?_, fun s hs => ?_⟩
  · obtain hs | hs := List.mem_append.mp hs
    · exact hname s (List.mem_append_left _ hs)
    · rw [List.mem_singleton.mp hs, ← hkey]
      exact hname t' (List.mem_append_right _ (List.mem_singleton_self t'))
  · obtain hs | hs := List.mem_append.mp hs
    · exact h.agree s (List.mem_append_left _ hs)
    · rwa [List.mem_singleton.mp hs]

theorem respell_same {t t' : Slot} (h : m.Alike (slots ++ [t]) m') (hkey : t'.key = t.key)
    (hsingle : t'.key.accepted = [name]) (hsame : m'.get? name = m.get? name) :
    m.Alike (slots ++ [t']) m' := by
  refine h.respell hkey ?_
  rw [agreeOn_iff_of_single hsingle, hsame]
  cases m.get? name with
  | none => exact .none
  | some v => exact .some (Or.inl rfl)

end Entries.Alike

namespace RespelledList

variable {item : Value → Value → Prop} {v v' : Value}

/-- Values that are the same or respelled lists have respelled items, or are no lists. -/
theorem items_or (h : v = v' ∨ RespelledList item v v') :
    (∃ vs vs', v.exposed = .list vs ∧ v'.exposed = .list vs' ∧
        List.Forall₂ (fun v v' => v = v' ∨ item v v') vs vs') ∨
      (∀ vs, v.exposed ≠ .list vs) ∧ v = v' := by
  obtain rfl | ⟨hv, hv', heach⟩ := h
  · by_cases hlist : ∃ vs, v.exposed = .list vs
    · obtain ⟨vs, hvs⟩ := hlist
      exact Or.inl ⟨vs, vs, hvs, hvs, List.forall₂_same.mpr fun _ _ => Or.inl rfl⟩
    · exact Or.inr ⟨fun vs hvs => hlist ⟨vs, hvs⟩, rfl⟩
  · exact Or.inl ⟨_, _, hv, hv', heach⟩

theorem readsAlike {α : Type} {read : Value → Reading α} (h : RespelledList item v v')
    (hread : ∀ v v', item v v' → ReadsAlike read v v') : ReadsAlike (readList read) v v' := by
  obtain ⟨hv, hv', heach⟩ := h
  refine readsAlike_list hv hv' (heach.imp ?_)
  rintro v v' (rfl | hitem)
  · exact .refl read v
  · exact hread v v' hitem

end RespelledList

/-- An attribute of one spelling that is a list of records is so on both sides, or is the same. -/
theorem Entries.Alike.items {slots : List Slot} {s : Slot} {m m' : Entries} {name : String}
    {item : Value → Value → Prop} (h : m.Alike slots m') (hs : s ∈ slots)
    (hkey : s.key.accepted = [name]) (hitem : s.respelled = RespelledList item) :
    (∃ vs vs', (m.get? name).map Value.exposed = some (.list vs) ∧
        (m'.get? name).map Value.exposed = some (.list vs') ∧
        List.Forall₂ (fun v v' => v = v' ∨ item v v') vs vs') ∨
      (∀ vs, (m.get? name).map Value.exposed ≠ some (.list vs)) ∧ m'.get? name = m.get? name := by
  have hrel := h.get?_single hs hkey
  rw [hitem] at hrel
  generalize m.get? name = a at hrel ⊢
  generalize m'.get? name = b at hrel ⊢
  cases hrel with
  | none => exact Or.inr ⟨fun vs => nofun, rfl⟩
  | some hv =>
      simp only [Option.map_some, ne_eq, Option.some.injEq]
      exact (RespelledList.items_or hv).imp_right fun hsame => ⟨hsame.1, hsame.2.symm⟩

end DrawnSchema

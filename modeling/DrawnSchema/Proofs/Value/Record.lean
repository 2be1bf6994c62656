import DrawnSchema.Document.Dump
import DrawnSchema.Proofs.Value.Entries
import Mathlib.Data.List.Nodup

/-!
# Records as they are written

A record is written with every member, or with those alone that are not null, at every depth. Either
way each attribute is found again under its key, because no two members share a spelling: a member
that is missing was null, and stands for what an attribute is without one.
-/

namespace DrawnSchema

/-- How much of a record is written: each member, or only those that are not null. -/
inductive Detail where
  | full
  | brief
deriving DecidableEq, Repr

namespace Value

theorem briefItems_eq_map (vs : List Value) : briefItems vs = vs.map brief := by
  induction vs with
  | nil => rfl
  | cons v vs ih => rw [briefItems, ih, List.map_cons]

def written : Detail → Value → Value
  | .full, v => v
  | .brief, v => v.brief

section Written

variable (detail : Detail)

@[simp]
theorem written_scalar (s : Scalar) : (Value.scalar s).written detail = .scalar s := by
  cases detail
  · rfl
  · rw [written, brief]

@[simp]
theorem written_list (vs : List Value) :
    (Value.list vs).written detail = .list (vs.map (written detail)) := by
  cases detail with
  | full =>
      have hid : vs.map (written .full) = vs := List.map_id vs
      rw [hid]
      rfl
  | brief => rw [written, brief, briefItems_eq_map]; rfl

theorem isNull_written (v : Value) : (v.written detail).isNull = v.isNull := by
  cases detail with
  | full => rfl
  | brief =>
      rw [written]
      cases v <;> simp only [brief, isNull]

/-- What is written of a member: nothing, if it is null and the record brief. -/
def asMember (v : Value) : Option Value :=
  match detail with
  | .full => some v
  | .brief => if v.isNull then none else some v.brief

theorem asMember_of_isNull_eq_false {v : Value} (h : v.isNull = false) :
    v.asMember detail = some (v.written detail) := by
  cases detail with
  | full => rfl
  | brief => simp [asMember, written, h]

end Written

end Value

theorem readOptional_of_isNull_eq_false {α : Type} {read : Value → Reading α} {v : Value}
    (h : v.isNull = false) : readOptional read v = some <$> read v := by
  unfold readOptional
  split
  · cases h
  · rfl

/-- Items are read back if each of them is. -/
theorem readList_written {α : Type} {read : Value → Reading α} {write : α → Value}
    (detail : Detail) (l : List α)
    (hread : ∀ a ∈ l, read ((write a).written detail) = .value a) :
    readList read ((Value.list (l.map write)).written detail) = .value l := by
  have hitems (start : Nat) :
      readItems read start (l.map fun a => (write a).written detail) = .value l := by
    induction l generalizing start with
    | nil => rfl
    | cons a l ih =>
        have hrest := ih (fun b hb => hread b (List.mem_cons_of_mem a hb)) (start + 1)
        rw [List.map_cons, readItems, hread a List.mem_cons_self, hrest]
        rfl
  rw [Value.written_list, List.map_map]
  exact hitems 0

/-! ### Members by their keys -/

/-- No spelling of a key is one of another key, and each key is found by the one it is written
with. -/
def Key.Distinct (keys : List Key) : Prop :=
  (keys.flatMap Key.accepted).Nodup ∧ ∀ k ∈ keys, k.camel ∈ k.accepted

instance (keys : List Key) : Decidable (Key.Distinct keys) :=
  inferInstanceAs (Decidable (_ ∧ _))

namespace Entries

variable {α : Type} {detail : Detail} {m : Entries} {k : Key} {v : Value}

/-- The entries of a record whose members have some values. -/
def written (detail : Detail) (members : List (Key × Value)) : Entries :=
  members.filterMap fun a => (a.2.asMember detail).map fun v => (.text a.1.camel, v)

theorem record_written (detail : Detail) (members : List (Key × Value)) :
    (Value.record (members.map fun a => (a.1.camel, a.2))).written detail =
      .map (written detail members) := by
  unfold Value.record
  cases detail with
  | full => simp [Value.written, written, Value.asMember, List.filterMap_eq_map']
  | brief =>
      rw [Value.written, Value.brief]
      congr 1
      induction members with
      | nil => rfl
      | cons a members ih =>
          rw [List.map_cons, List.map_cons, Value.briefMembers, ih]
          cases hnull : a.2.isNull <;> simp [written, Value.asMember, hnull]

theorem get?_written_cons (k : Key) (v : Value) (members : List (Key × Value)) (name : String) :
    (written detail ((k, v) :: members)).get? name =
      if k.camel = name then (v.asMember detail).or ((written detail members).get? name)
      else (written detail members).get? name := by
  have hcons : written detail ((k, v) :: members) =
      ((v.asMember detail).map fun w => (Scalar.text k.camel, w)).toList ++
        written detail members := by
    unfold written
    rw [List.filterMap_cons]
    cases v.asMember detail <;> rfl
  rw [hcons]
  cases v.asMember detail with
  | none => simp
  | some w =>
      rw [Option.map_some, Option.toList_some, List.singleton_append, get?_cons]
      by_cases hname : k.camel = name <;> simp [hname]

theorem get?_written_eq_none {members : List (Key × Value)} {name : String}
    (h : ∀ a ∈ members, a.1.camel ≠ name) : (written detail members).get? name = none := by
  induction members with
  | nil => rfl
  | cons a members ih =>
      rw [get?_written_cons, if_neg (h a List.mem_cons_self)]
      exact ih fun b hb => h b (List.mem_cons_of_mem a hb)

/-- Under its own spelling an attribute is found, under its other ones there is nothing. -/
theorem get?_written {members : List (Key × Value)}
    (hkeys : Key.Distinct (members.map Prod.fst)) (hmem : (k, v) ∈ members) {name : String}
    (hname : name ∈ k.accepted) :
    (written detail members).get? name = if k.camel = name then v.asMember detail else none := by
  induction members with
  | nil => cases hmem
  | cons a members ih =>
      obtain ⟨hnodup, hcamel⟩ := hkeys
      rw [List.map_cons, List.flatMap_cons, List.nodup_append] at hnodup
      obtain ⟨-, hrest, hapart⟩ := hnodup
      have hcamelRest : ∀ b ∈ members, b.1.camel ∈ b.1.accepted := by
        intro b hb
        exact hcamel b.1 (List.mem_map_of_mem (List.mem_cons_of_mem a hb))
      rw [get?_written_cons]
      obtain rfl | hmem := List.mem_cons.mp hmem
      · have hnone : (written detail members).get? name = none := by
          refine get?_written_eq_none fun b hb heq => ?_
          refine hapart name hname b.1.camel ?_ heq.symm
          exact List.mem_flatMap.mpr ⟨b.1, List.mem_map_of_mem hb, hcamelRest b hb⟩
        rw [hnone, Option.or_none]
      · have hne : a.1.camel ≠ name := by
          refine hapart a.1.camel (hcamel a.1 List.mem_cons_self) name ?_
          exact List.mem_flatMap.mpr ⟨k, List.mem_map.mpr ⟨(k, v), hmem, rfl⟩, hname⟩
        rw [if_neg hne]
        refine ih ⟨hrest, fun k' hk' => ?_⟩ hmem
        exact hcamel k' (List.mem_cons_of_mem _ hk')

/-- Entries in which an attribute has a value, if only by not being there. -/
def Shows (detail : Detail) (m : Entries) (k : Key) (v : Value) : Prop :=
  m.pick k = (v.asMember detail).map fun w => (k.camel, w)

theorem findSome?_eq_of_unique {names : List String} {camel : String} {found : Option Value}
    (hcamel : camel ∈ names) {f : String → Option (String × Value)}
    (hf : ∀ name ∈ names, f name = if camel = name then found.map fun w => (camel, w) else none) :
    names.findSome? f = found.map fun w => (camel, w) := by
  induction names with
  | nil => cases hcamel
  | cons name names ih =>
      rw [List.findSome?_cons, hf name List.mem_cons_self]
      have hrest : ∀ n ∈ names, f n = if camel = n then found.map fun w => (camel, w) else none :=
        fun n hn => hf n (List.mem_cons_of_mem name hn)
      by_cases hname : camel = name
      · rw [if_pos hname]
        cases found with
        | some w => rfl
        | none =>
            refine List.findSome?_eq_none_iff.mpr fun n hn => ?_
            rw [hrest n hn]
            split <;> rfl
      · rw [if_neg hname]
        exact ih ((List.mem_cons.mp hcamel).resolve_left hname) hrest

namespace Shows

variable {read : Value → Reading α} {a : α}

theorem required (h : m.Shows detail k v) (hnull : v.isNull = false)
    (hread : read (v.written detail) = .value a) : m.required k read = .value a := by
  unfold Entries.required
  rw [h, Value.asMember_of_isNull_eq_false detail hnull]
  simp [hread]

theorem withDefault (h : m.Shows detail k v) (hnull : v.isNull = false)
    (hread : read (v.written detail) = .value a) (default : α) :
    m.withDefault k default read = .value a := by
  unfold Entries.withDefault
  rw [h, Value.asMember_of_isNull_eq_false detail hnull]
  simp [hread]

/-- An attribute that may be missing is read as what was written, null as none. -/
theorem optional {write : α → Value} {o : Option α} (h : m.Shows detail k (.optional write o))
    (hread : ∀ a ∈ o, (write a).isNull = false ∧ read ((write a).written detail) = .value a) :
    m.optional k read = .value o := by
  unfold Entries.optional Entries.withDefault
  rw [h]
  cases o with
  | none => cases detail <;> rfl
  | some a =>
      obtain ⟨hnull, hread⟩ := hread a rfl
      have hsome : readOptional read ((write a).written detail) = .value (some a) := by
        rw [readOptional_of_isNull_eq_false, hread, Reading.map_value]
        rw [Value.isNull_written, hnull]
      rw [Value.optional, Value.asMember_of_isNull_eq_false detail hnull]
      simp [hsome]

theorem get?_plain {name : String} (h : m.Shows detail (.plain name) v) (hnull : v.isNull = false) :
    m.get? name = some (v.written detail) := by
  unfold Shows at h
  rw [pick_plain, Value.asMember_of_isNull_eq_false detail hnull] at h
  obtain ⟨w, hw, heq⟩ := Option.map_eq_some_iff.mp h
  rw [hw, (Prod.mk.inj heq).2]

theorem required_text {s : String} (h : m.Shows detail k (.text s)) :
    m.required k readText = .value s :=
  h.required rfl (by rw [Value.written_scalar]; rfl)

theorem optional_text {o : Option String} (h : m.Shows detail k (.optionText o)) :
    m.optional k readText = .value o := by
  have hoptional : Value.optionText o = .optional .text o := by cases o <;> rfl
  rw [hoptional] at h
  exact h.optional fun s _ => ⟨rfl, by rw [Value.written_scalar]; rfl⟩

theorem withDefault_scalar {c : Scalar} (h : m.Shows detail k (.scalar c))
    (hnull : (Value.scalar c).isNull = false) (hread : read (.scalar c) = .value a) (default : α) :
    m.withDefault k default read = .value a :=
  h.withDefault hnull (by rw [Value.written_scalar, hread]) default

theorem withDefault_text {s : String} (h : m.Shows detail k (.text s)) (default : String) :
    m.withDefault k default readText = .value s := by
  have hread : readText (.text s) = .value s := rfl
  exact h.withDefault_scalar rfl hread default

theorem withDefault_list {write : α → Value} {l : List α}
    (h : m.Shows detail k (.list (l.map write)))
    (hread : ∀ a ∈ l, read ((write a).written detail) = .value a) (default : List α) :
    m.withDefault k default (readList read) = .value l :=
  h.withDefault rfl (readList_written detail l hread) default

end Shows

end Entries

/-! ### The members of a record -/

/-- The members of a record: keys that tell them apart, each with a value. -/
structure Members where
  keys : List Key
  values : List Value
  distinct : Key.Distinct keys := by decide
  length_eq : values.length = keys.length := by rfl

namespace Members

variable (members : Members) (detail : Detail)

def pairs : List (Key × Value) := members.keys.zip members.values

def toValue : Value := .record (members.pairs.map fun a => (a.1.camel, a.2))

def written : Entries := .written detail members.pairs

theorem toValue_written : members.toValue.written detail = .map (members.written detail) :=
  Entries.record_written detail members.pairs

theorem readRecord_written {α : Type} (type : RecordType) (read : Entries → Reading α) :
    readRecord type read (members.toValue.written detail) = read (members.written detail) := by
  rw [toValue_written, readRecord, Value.exposed_map]

theorem shows (n : Nat) {k : Key} {v : Value} (hk : members.keys[n]? = some k)
    (hv : members.values[n]? = some v) : (members.written detail).Shows detail k v := by
  have hfst : members.pairs.map Prod.fst = members.keys :=
    List.map_fst_zip (Nat.le_of_eq members.length_eq.symm)
  have hmem : (k, v) ∈ members.pairs :=
    List.mem_of_getElem? (List.getElem?_zip_eq_some.mpr ⟨hk, hv⟩)
  have hcamel := members.distinct.2 k (List.mem_of_getElem? hk)
  refine Entries.findSome?_eq_of_unique hcamel fun name hname => ?_
  rw [written, Entries.get?_written (hfst ▸ members.distinct) hmem hname]
  by_cases heq : k.camel = name
  · rw [if_pos heq, if_pos heq, heq]
  · rw [if_neg heq, if_neg heq, Option.map_none]

theorem get?_eq_none {name : String} (h : ∀ k ∈ members.keys, k.camel ≠ name) :
    (members.written detail).get? name = none := by
  refine Entries.get?_written_eq_none fun a ha => h a.1 ?_
  exact (List.of_mem_zip ha).1

end Members

end DrawnSchema

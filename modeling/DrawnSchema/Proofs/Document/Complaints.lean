import DrawnSchema.Proofs.Document.Normalization
import DrawnSchema.Proofs.Value.Record

/-!
# Readings up to the places of their faults

Two readings are alike if they come to the same value, or complain of the same things in the same
order, or end at the same wrong shape. Where a fault is found may differ. Readings of attributes are
put together to readings of records without looking at the places, so alike ones make alike ones.
-/

namespace DrawnSchema

/-! ### Outcomes -/

/-- Outcomes that are both there and related, or are the same error. -/
inductive SameOutcome {α β : Type} (R : α → β → Prop) :
    Except ShapeError α → Except ShapeError β → Prop
  | ok {a : α} {b : β} (h : R a b) : SameOutcome R (.ok a) (.ok b)
  | error (e : ShapeError) : SameOutcome R (.error e) (.error e)

namespace SameOutcome

variable {α β γ δ : Type} {R : α → β → Prop} {S : γ → δ → Prop} {x : Except ShapeError α}
  {y : Except ShapeError β}

theorem refl {R : α → α → Prop} (h : ∀ a, R a a) (x : Except ShapeError α) : SameOutcome R x x := by
  cases x with
  | ok a => exact .ok (h a)
  | error e => exact .error e

theorem imp {S : α → β → Prop} (h : SameOutcome R x y) (himp : ∀ a b, R a b → S a b) :
    SameOutcome S x y := by
  cases h with
  | ok h => exact .ok (himp _ _ h)
  | error e => exact .error e

/-- Outcomes that are there, with what they are. -/
theorem attach (h : SameOutcome R x y) :
    SameOutcome (fun a b => R a b ∧ x = .ok a ∧ y = .ok b) x y := by
  cases h with
  | ok h => exact .ok ⟨h, rfl, rfl⟩
  | error e => exact .error e

theorem bind {f : α → Except ShapeError γ} {g : β → Except ShapeError δ} (h : SameOutcome R x y)
    (hstep : ∀ a b, R a b → SameOutcome S (f a) (g b)) : SameOutcome S (x >>= f) (y >>= g) := by
  cases h with
  | ok hab => exact hstep _ _ hab
  | error e => exact .error e

theorem mapM {f : α → Except ShapeError γ} {g : β → Except ShapeError δ} {as : List α} {bs : List β}
    (h : List.Forall₂ R as bs) (hstep : ∀ a b, R a b → SameOutcome S (f a) (g b)) :
    SameOutcome (List.Forall₂ S) (as.mapM f) (bs.mapM g) := by
  induction h with
  | nil => exact .ok .nil
  | cons hab _ ih =>
      rw [List.mapM_cons, List.mapM_cons]
      exact (hstep _ _ hab).bind fun _ _ hfirst => ih.bind fun _ _ hrest => .ok (.cons hfirst hrest)

end SameOutcome

/-! ### Readings -/

namespace Reading

variable {α β : Type}

/-- A reading that does not tell where its faults are. -/
def unplaced : Reading α → Reading α
  | .faulty faults => .faulty (faults.map fun f => { f with path := [] })
  | r => r

@[simp]
theorem unplaced_map (f : α → β) (r : Reading α) : (f <$> r).unplaced = f <$> r.unplaced := by
  cases r <;> rfl

@[simp]
theorem unplaced_seq (f : Reading (α → β)) (r : Reading α) :
    (f <*> r).unplaced = f.unplaced <*> r.unplaced := by
  change (f.seq fun _ => r).unplaced = f.unplaced.seq fun _ => r.unplaced
  cases f <;> cases r <;> simp [seq, map, unplaced]

@[simp]
theorem unplaced_under (step : Step) (r : Reading α) : (r.under step).unplaced = r.unplaced := by
  cases r <;> simp [under, unplaced]

@[simp]
theorem unplaced_check (complaint : α → Option Complaint) (r : Reading α) :
    (r.check complaint).unplaced = r.unplaced.check complaint := by
  cases r with
  | value a =>
      simp only [check, unplaced]
      cases complaint a <;> rfl
  | faulty faults => rfl
  | broken e => rfl

end Reading

/-- Two values that are read alike. -/
def ReadsAlike {α : Type} (read : Value → Reading α) (v v' : Value) : Prop :=
  (read v').unplaced = (read v).unplaced

section ReadsAlike

variable {α : Type} {read : Value → Reading α} {v v' : Value}

theorem ReadsAlike.refl (read : Value → Reading α) (v : Value) : ReadsAlike read v v := rfl

theorem readItems_unplaced {vs vs' : List Value} (h : List.Forall₂ (ReadsAlike read) vs vs')
    (start : Nat) : (readItems read start vs').unplaced = (readItems read start vs).unplaced := by
  induction h generalizing start with
  | nil => rfl
  | cons hv _ ih =>
      simp only [readItems, Reading.unplaced_seq, Reading.unplaced_map, Reading.unplaced_under, ih]
      rw [show (read _).unplaced = _ from hv]

theorem readsAlike_list {vs vs' : List Value} (hv : v.exposed = .list vs)
    (hv' : v'.exposed = .list vs') (h : List.Forall₂ (ReadsAlike read) vs vs') :
    ReadsAlike (readList read) v v' := by
  simp only [ReadsAlike, readList, Value.items?, hv, hv', readItems_unplaced h]

theorem readsAlike_record {type : RecordType} {read : Entries → Reading α} {m m' : Entries}
    (hv : v.exposed = .map m) (hv' : v'.exposed = .map m')
    (h : (read m').unplaced = (read m).unplaced) : ReadsAlike (readRecord type read) v v' := by
  simp only [ReadsAlike, readRecord, hv, hv', h]

theorem readsAlike_optional (hv : v.isNull = false) (hv' : v'.isNull = false)
    (h : ReadsAlike read v v') : ReadsAlike (readOptional read) v v' := by
  rw [ReadsAlike, readOptional_of_isNull_eq_false hv, readOptional_of_isNull_eq_false hv',
    Reading.unplaced_map, Reading.unplaced_map, h]

/-- What is observed of readings of raw data is observed once the data was put in order, if that
ends in the same way. -/
theorem readPrepared_congr {β : Type} (observe : Reading α → β) {read : Entries → Reading α}
    {x y : Except ShapeError Entries}
    (h : SameOutcome (fun m m' => observe (read m') = observe (read m)) x y) :
    observe (readPrepared y read) = observe (readPrepared x read) := by
  cases h with
  | ok h => exact h
  | error e => rfl

end ReadsAlike

/-! ### Attributes -/

namespace Entries

variable {α : Type} {R : Value → Value → Prop} {k : Key} {m m' : Entries} {read : Value → Reading α}

/-- Two maps of which neither or each has an attribute, under whichever spelling, with related
values. -/
def AgreeOn (R : Value → Value → Prop) (k : Key) (m m' : Entries) : Prop :=
  Option.Rel (fun a b => R a.2 b.2) (m.pick k) (m'.pick k)

theorem AgreeOn.refl (m : Entries) (h : ∀ v, R v v) : AgreeOn R k m m := by
  unfold AgreeOn
  cases m.pick k with
  | none => exact .none
  | some a => exact .some (h a.2)

theorem AgreeOn.imp {S : Value → Value → Prop} (h : AgreeOn R k m m')
    (himp : ∀ v v', R v v' → S v v') : AgreeOn S k m m' := by
  rw [AgreeOn] at h ⊢
  generalize m.pick k = a at h ⊢
  generalize m'.pick k = b at h ⊢
  cases h with
  | some h => exact .some (himp _ _ h)
  | none => exact .none

theorem AgreeOn.required (h : AgreeOn R k m m') (hread : ∀ v v', R v v' → ReadsAlike read v v') :
    (m'.required k read).unplaced = (m.required k read).unplaced := by
  rw [AgreeOn] at h
  rw [Entries.required, Entries.required]
  generalize m.pick k = a at h ⊢
  generalize m'.pick k = b at h ⊢
  cases h with
  | some h => simpa [ReadsAlike] using hread _ _ h
  | none => rfl

theorem AgreeOn.withDefault (h : AgreeOn R k m m') (default : α)
    (hread : ∀ v v', R v v' → ReadsAlike read v v') :
    (m'.withDefault k default read).unplaced = (m.withDefault k default read).unplaced := by
  rw [AgreeOn] at h
  rw [Entries.withDefault, Entries.withDefault]
  generalize m.pick k = a at h ⊢
  generalize m'.pick k = b at h ⊢
  cases h with
  | some h => simpa [ReadsAlike] using hread _ _ h
  | none => rfl

theorem AgreeOn.congr {n n' : Entries} (h : AgreeOn R k m m') (hn : n.pick k = m.pick k)
    (hn' : n'.pick k = m'.pick k) : AgreeOn R k n n' := by
  rwa [AgreeOn, hn, hn']

/-- An attribute of one spelling is what is under it. -/
theorem agreeOn_iff_of_single {name : String} (hk : k.accepted = [name]) :
    AgreeOn R k m m' ↔ Option.Rel R (m.get? name) (m'.get? name) := by
  have hpick (m : Entries) : m.pick k = (m.get? name).map fun v => (name, v) := by simp [pick, hk]
  rw [AgreeOn, hpick, hpick]
  cases m.get? name <;> cases m'.get? name <;> simp

end Entries

end DrawnSchema

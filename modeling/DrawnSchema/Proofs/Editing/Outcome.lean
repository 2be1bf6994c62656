import DrawnSchema.Graph.Edit

/-!
# How an edit comes out

An edit is a sequence of questions to the graph and of changes. What holds at its end, and what if
it is refused on the way, is found by going along that sequence: a question leaves the graph as it
is and tells what it was answered, a change is never refused.
-/

namespace DrawnSchema

namespace Editing

variable {α β : Type}

/-- What holds after an edit, or the rest of one, if it is accepted, and what if it is refused. -/
def Ends (p : Editing α) (s : Session) (accepted : α → Session → Prop) (refused : Session → Prop) :
    Prop :=
  match p.run s with
  | .ok a t => accepted a t
  | .error _ t => refused t

section Rules

variable {p : Editing α} {k : α → Editing β} {s t : Session} {accepted : β → Session → Prop}
  {refused : Session → Prop}

theorem Ends.pure {b : β} (h : accepted b s) : Ends (Pure.pure b) s accepted refused := h

theorem Ends.bind {between : α → Session → Prop} (hp : Ends p s between refused)
    (hrest : ∀ a t, between a t → Ends (k a) t accepted refused) :
    Ends (p >>= k) s accepted refused := by
  unfold Ends at hp ⊢
  rw [EStateM.run_bind]
  cases hrun : p.run s with
  | ok a t =>
      rw [hrun] at hp
      exact hrest a t hp
  | error e t =>
      rw [hrun] at hp
      exact hp

theorem Ends.bind_of_run {a : α} (hrun : p.run s = .ok a t)
    (hrest : Ends (k a) t accepted refused) : Ends (p >>= k) s accepted refused := by
  unfold Ends
  rw [EStateM.run_bind, hrun]
  exact hrest

/-- A question is answered, or the edit is refused and nothing was done by the question. -/
theorem Ends.ask_bind {f : Graph → Except EditError α} (hrefused : refused s)
    (hrest : ∀ a, f s.graph = .ok a → Ends (k a) s accepted refused) :
    Ends (ask f >>= k) s accepted refused := by
  cases hf : f s.graph with
  | ok a =>
      refine .bind_of_run ?_ (hrest a hf)
      rw [run_ask, hf]
  | error e =>
      unfold Ends
      rw [EStateM.run_bind, run_ask, hf]
      exact hrefused

theorem Ends.ask_bind_of_eq {f : Graph → Except EditError α} {a : α} (hf : f s.graph = .ok a)
    (hrest : Ends (k a) s accepted refused) : Ends (ask f >>= k) s accepted refused := by
  refine .bind_of_run ?_ hrest
  rw [run_ask, hf]

theorem Ends.change_bind {f : Graph → Graph} {k : Unit → Editing β}
    (hrest : Ends (k ()) (s.changing f) accepted refused) :
    Ends (change f >>= k) s accepted refused :=
  .bind_of_run (run_change f s) hrest

theorem Ends.nextId_bind {label : String} {k : String → Editing β}
    (hrest : Ends (k (s.nextId label)) (s.taking 1) accepted refused) :
    Ends (nextId label >>= k) s accepted refused :=
  .bind_of_run (run_nextId label s) hrest

theorem Ends.idFor_bind {label : String} {given : Option String} {k : String → Editing β}
    (hrest : ∀ t, t.graph = s.graph → Ends (k (s.idFor label given)) t accepted refused) :
    Ends (idFor label given >>= k) s accepted refused := by
  have hgraph : (if Session.givesId given then s else s.taking 1).graph = s.graph := by
    split <;> rfl
  exact .bind_of_run (run_idFor label given s) (hrest _ hgraph)

end Rules

end Editing

theorem Session.apply_eq_of_ends {s : Session} {e : Edit} {accepted : Edited → Session → Prop}
    {refused : Session → Prop} (h : Editing.Ends e.editing s accepted refused) :
    (∃ r t, s.apply e = { session := t, answer := .ok r.answer, outcomes := r.outcomes } ∧
        accepted r t) ∨
      ∃ error t, s.apply e = { session := t, answer := .error error } ∧ refused t := by
  unfold Editing.Ends at h
  unfold apply
  cases hrun : e.editing.run s with
  | ok r t =>
      rw [hrun] at h
      exact Or.inl ⟨r, t, rfl, h⟩
  | error error t =>
      rw [hrun] at h
      exact Or.inr ⟨error, t, rfl, h⟩

theorem Session.apply_of_ends {s : Session} {e : Edit} {accepted : Edited → Session → Prop}
    {refused : Session → Prop} (h : Editing.Ends e.editing s accepted refused) :
    (∃ r, (s.apply e).answer = .ok r.answer ∧ accepted r (s.apply e).session) ∨
      (∃ error, (s.apply e).answer = .error error) ∧ refused (s.apply e).session := by
  obtain ⟨r, t, happly, haccepted⟩ | ⟨error, t, happly, hrefused⟩ := apply_eq_of_ends h
  · rw [happly]
    exact Or.inl ⟨r, rfl, haccepted⟩
  · rw [happly]
    exact Or.inr ⟨⟨error, rfl⟩, hrefused⟩

theorem Session.accepted_of_ends {s : Session} {e : Edit} {accepted : Edited → Session → Prop}
    {refused : Session → Prop} (h : Editing.Ends e.editing s accepted refused) {answer : Answer}
    (hok : (s.apply e).answer = .ok answer) :
    ∃ r, r.answer = answer ∧ accepted r (s.apply e).session := by
  obtain ⟨r, hanswer, haccepted⟩ | ⟨⟨error, herror⟩, -⟩ := apply_of_ends h
  · exact ⟨r, Except.ok.inj (hanswer.symm.trans hok), haccepted⟩
  · rw [hok] at herror
    cases herror

/-- An edit that is never refused is accepted. -/
theorem Session.apply_of_ends_accepted {s : Session} {e : Edit}
    {accepted : Edited → Session → Prop}
    (h : Editing.Ends e.editing s accepted fun _ => False) :
    ∃ r, (s.apply e).answer = .ok r.answer ∧ accepted r (s.apply e).session := by
  obtain haccepted | ⟨-, hnever⟩ := apply_of_ends h
  · exact haccepted
  · exact hnever.elim

end DrawnSchema

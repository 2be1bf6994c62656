import DrawnSchema.Snapshot.FileTree

/-!
# What a written file leaves behind

A path is followed from folder to folder. Writing changes the one place where a path ends, and a
file is written nowhere that was a folder. So every path leads where it led before, and only what
the written one leads to is new.
-/

namespace DrawnSchema

def FileEntry.ofText (text : String) : FileEntry := .file (Text.octets text)

namespace FileTree

variable {t t' : FileTree} {place other : FilePlace} {e : FileEntry} {p : Path} {text : String}

theorem lookup_filter_of_ne (entries : List (FilePlace × FileEntry)) (h : other ≠ place) :
    (entries.filter fun o => o.1 != place).lookup other = entries.lookup other := by
  induction entries with
  | nil => rfl
  | cons o entries ih =>
      by_cases hplace : o.1 = place
      · have hother : (other == o.1) = false := beq_eq_false_iff_ne.mpr (hplace ▸ h)
        rw [List.filter_cons_of_neg (by simpa using hplace), ih, List.lookup_cons, hother]
      · rw [List.filter_cons_of_pos (by simpa using hplace), List.lookup_cons, List.lookup_cons, ih]

theorem at?_put_self (h : isGround place = false) : (t.put place e).at? place = some e := by
  simp [at?, put, h]

theorem at?_put_of_ne (h : other ≠ place) : (t.put place e).at? other = t.at? other := by
  have hother : (other == place) = false := beq_eq_false_iff_ne.mpr h
  simp only [at?, put, List.lookup_cons, hother, lookup_filter_of_ne _ h]

theorem isGround_eq_false (h : t.at? place ≠ some .folder) : isGround place = false := by
  cases hground : isGround place with
  | false => rfl
  | true => exact absurd (if_pos hground) h

theorem step_eq_ok {name : String} (h : t.step place name = .ok other) :
    t.at? place = some .folder := by
  unfold step at h
  split at h
  · cases h
  · cases h
  · assumption

theorem foldlM_step_put {steps : List String} {start : FilePlace}
    (hplace : t.at? place ≠ some .folder) (h : steps.foldlM t.step start = .ok place) :
    steps.foldlM (t.put place e).step start = .ok place := by
  induction steps generalizing start with
  | nil => exact h
  | cons name steps ih =>
      rw [List.foldlM_cons] at h ⊢
      cases hstep : t.step start name with
      | error error => rw [hstep] at h; cases h
      | ok next =>
          -- the path goes on from here, so this is a folder and not where it ends
          have hstart : start ≠ place := fun hsame => hplace (hsame ▸ step_eq_ok hstep)
          have hstep' : (t.put place e).step start name = .ok next := by
            rw [← hstep]
            unfold step
            rw [at?_put_of_ne hstart]
          rw [hstep] at h
          rw [hstep']
          exact ih h

theorem follow_put (hplace : t.at? place ≠ some .folder) (h : t.follow p = .ok place) :
    (t.put place e).follow p = .ok place := by
  unfold follow at h ⊢
  split at h
  · cases h
  · next hshort =>
      rw [if_neg hshort]
      exact foldlM_step_put hplace h

theorem entry?_of_follow (h : t.follow p = .ok place) : t.entry? p = t.at? place := by
  simp [ entry?, find, h, bind, Except.bind]

theorem write_of_follow (h : t.follow p = .ok place) (text : String) :
    t.write p text = .ok (t.put place (.ofText text)) := by
  simp [write, h, bind, Except.bind, FileEntry.ofText]

theorem write_eq_ok (h : t.write p text = .ok t') :
    ∃ place, t.follow p = .ok place ∧ t' = t.put place (.ofText text) := by
  cases hfollow : t.follow p with
  | error error => simp [write, hfollow, bind, Except.bind] at h
  | ok place =>
      rw [write_of_follow hfollow] at h
      exact ⟨place, rfl, (Except.ok.inj h).symm⟩

/-- What is written to a path is found there. -/
theorem entry?_put (hfolder : t.entry? p ≠ some .folder) (h : t.follow p = .ok place) :
    entry? (t.put place e) p = some e := by
  rw [entry?_of_follow h] at hfolder
  rw [entry?_of_follow (follow_put hfolder h), at?_put_self (isGround_eq_false hfolder)]

end FileTree

end DrawnSchema

import DrawnSchema.CommandLine.Run
import DrawnSchema.Proofs.Text.Surrogate
import Mathlib.Data.List.Infix

/-!
# What becomes of a text that is printed

Control sequences for a terminal are left out of what is printed. They consist of characters below
`0x80`, so a half of a surrogate pair is never among what is left out.
-/

namespace DrawnSchema

namespace Text

theorem isWhole_empty : isWhole "" = true := rfl

theorem isWhole_append (s t : String) : isWhole (s ++ t) = (isWhole s && isWhole t) := by
  simp [isWhole, List.any_append]

theorem isWhole_append_newline (s : String) : isWhole (s ++ "\n") = isWhole s := by
  have hnewline : isHalf '\n' = false := isHalf_of_lt (by decide)
  rw [isWhole_append]
  simp [isWhole, hnewline]

end Text

namespace CommandLine

open Text (isHalf isWhole)

theorem toNat_lt_of_within {first last : Nat} {c : Char} (hlast : last < 0x80)
    (h : sequenceLength.within first last c = true) : c.toNat < 0x80 := by
  have hc : c.toNat ≤ last := (by simpa [sequenceLength.within] using h : _ ∧ _).2
  omega

theorem pos_of_mem_take_takeWhile {α : Type} {p : α → Bool} {l : List α} {a : α}
    (h : a ∈ l.take (l.takeWhile p).length) : p a = true := by
  rw [← List.prefix_iff_eq_take.mp (List.takeWhile_prefix p)] at h
  exact List.all_eq_true.mp List.all_takeWhile a h

/-- A control sequence is made of characters that take one octet each. -/
theorem toNat_lt_of_mem_sequence {cs : List Char} {c : Char}
    (h : c ∈ cs.take (sequenceLength cs)) : c.toNat < 0x80 := by
  unfold sequenceLength at h
  split at h
  · next rest =>
      dsimp only at h
      split at h
      · next hlast =>
          rw [List.take_succ_cons, List.take_succ_cons, List.take_add, List.take_add] at h
          simp only [List.mem_cons, List.mem_append] at h
          obtain rfl | rfl | (hnumber | hmark) | hend := h
          · decide
          · decide
          · exact toNat_lt_of_within (by decide) (pos_of_mem_take_takeWhile hnumber)
          · exact toNat_lt_of_within (by decide) (pos_of_mem_take_takeWhile hmark)
          · rw [List.take_one, List.head?_drop] at hend
            rw [Option.mem_toList.mp hend] at hlast
            exact toNat_lt_of_within (by decide) hlast
      · cases h
  · cases h

theorem any_withoutSequences (skip : Nat) (cs : List Char) :
    (withoutSequences skip cs).any isHalf = (cs.drop skip).any isHalf := by
  induction cs generalizing skip with
  | nil => cases skip <;> rfl
  | cons c cs ih =>
      cases skip with
      | succ skip => exact ih skip
      | zero =>
          unfold withoutSequences
          have hsequence : ((c :: cs).take (sequenceLength (c :: cs))).any isHalf = false := by
            refine List.any_eq_false.mpr fun b hb => Bool.eq_false_iff.mp (Text.isHalf_of_lt ?_)
            exact Nat.lt_trans (toNat_lt_of_mem_sequence hb) (by decide)
          split
          · rw [List.any_cons, ih 0]
            rfl
          · next more hlength =>
              rw [hlength] at hsequence
              calc (withoutSequences more cs).any isHalf
                  = (cs.drop more).any isHalf := ih more
                _ = (((c :: cs).take (more + 1)) ++ (c :: cs).drop (more + 1)).any isHalf := by
                    rw [List.any_append, hsequence, Bool.false_or, List.drop_succ_cons]
                _ = ((c :: cs).drop 0).any isHalf := by rw [List.take_append_drop, List.drop_zero]

/-- A text can be encoded as it is printed if and only if it can be encoded. -/
theorem isWhole_printed (s : String) : isWhole (printed s) = isWhole s := by
  rw [printed, Text.isWhole_append_newline]
  simp [isWhole, any_withoutSequences]

/-- Whether a text is printed as it is: no control sequence for a terminal begins in it. -/
def IsPlain (s : String) : Prop := ∀ cs ∈ s.toList.tails, sequenceLength cs = 0

instance (s : String) : Decidable (IsPlain s) :=
  inferInstanceAs (Decidable (∀ cs ∈ s.toList.tails, sequenceLength cs = 0))

theorem withoutSequences_eq_self {cs : List Char} (h : ∀ l, l <:+ cs → sequenceLength l = 0) :
    withoutSequences 0 cs = cs := by
  induction cs with
  | nil => rfl
  | cons c cs ih =>
      unfold withoutSequences
      rw [h _ List.suffix_rfl]
      exact congrArg (c :: ·) (ih fun l hl => h l (hl.trans (List.suffix_cons c cs)))

theorem IsPlain.printed {s : String} (h : IsPlain s) : printed s = s ++ "\n" := by
  rw [CommandLine.printed, withoutSequences_eq_self, String.ofList_toList]
  exact fun l hl => h l ((List.mem_tails _ _).mpr hl)

end CommandLine

end DrawnSchema

import DrawnSchema.Text.Digits
import DrawnSchema.Text.Surrogate

namespace DrawnSchema.Json

inductive LiteralFault where
  | unterminated
  | controlCharacter (rest : List Char)
  | badEscape (rest : List Char)
  | badUnicodeEscape (rest : List Char)
deriving DecidableEq

def shortEscape? : Char → Option Char
  | '"' => some '"'
  | '\\' => some '\\'
  | '/' => some '/'
  | 'b' => some '\x08'
  | 'f' => some '\x0c'
  | 'n' => some '\n'
  | 'r' => some '\r'
  | 't' => some '\t'
  | _ => none

/-- The second half of a pair of escapes, after a first half. A half that is not followed by
another stands alone. -/
def lowHalf (first : Nat) (rest : List Char) : Except LiteralFault (List Char × List Char) :=
  match rest with
  | '\\' :: 'u' :: more =>
    if more.length < 5 then .ok (Text.ofCode first, rest)
    else
      match Text.hexQuad? more with
      | none => .error (.badUnicodeEscape ('u' :: more))
      | some (second, after) =>
        if Text.isLowHalf second then
          .ok (Text.ofCode (0x10000 + (first - 0xd800) * 0x400 + (second - 0xdc00)), after)
        else .ok (Text.ofCode first, rest)
  | _ => .ok (Text.ofCode first, rest)

def readEscape : List Char → Except LiteralFault (List Char × List Char)
  | [] => .error .unterminated
  | 'u' :: digits =>
    if digits.length < 5 then .error (.badUnicodeEscape ('u' :: digits))
    else
      match Text.hexQuad? digits with
      | none => .error (.badUnicodeEscape ('u' :: digits))
      | some (n, rest) =>
        if Text.isHighHalf n then lowHalf n rest else .ok (Text.ofCode n, rest)
  | c :: rest =>
    match shortEscape? c with
    | some e => .ok ([e], rest)
    | none => .error (.badEscape ('\\' :: c :: rest))

/-- What a character or an escape stands for; nothing for the quote at the end. -/
def readUnit : List Char → Except LiteralFault (Option (List Char) × List Char)
  | [] => .error .unterminated
  | c :: rest =>
    if c = '"' then .ok (none, rest)
    else if c = '\\' then (readEscape rest).map fun r => (some r.1, r.2)
    else if c.toNat < 0x20 then .error (.controlCharacter (c :: rest))
    else .ok (some [c], rest)

theorem lowHalf_shorter {n : Nat} {rest after unit : List Char}
    (h : lowHalf n rest = .ok (unit, after)) : after.length ≤ rest.length := by
  unfold lowHalf at h
  split at h
  · split at h
    · cases h
      exact Nat.le_refl _
    · split at h
      · cases h
      · rename_i hq
        have := Text.length_of_hexQuad? hq
        split at h <;> obtain ⟨_, rfl⟩ := Prod.mk.inj (Except.ok.inj h)
        · simp only [List.length_cons]
          omega
        · exact Nat.le_refl _
  · cases h
    exact Nat.le_refl _

theorem readEscape_shorter {cs rest unit : List Char}
    (h : readEscape cs = .ok (unit, rest)) : rest.length < cs.length := by
  unfold readEscape at h
  split at h
  · cases h
  · split at h
    · cases h
    · split at h
      · cases h
      · rename_i hq
        have := Text.length_of_hexQuad? hq
        split at h
        · have := lowHalf_shorter h
          simp only [List.length_cons]
          omega
        · cases h
          simp only [List.length_cons]
          omega
  · split at h <;> cases h
    simp

theorem readUnit_shorter {cs rest : List Char} {unit : Option (List Char)}
    (h : readUnit cs = .ok (unit, rest)) : rest.length < cs.length := by
  unfold readUnit at h
  split at h
  · cases h
  · split at h
    · cases h
      simp
    · split at h
      · cases he : readEscape _ with
        | error e => rw [he] at h; cases h
        | ok r =>
          rw [he] at h
          cases h
          have := readEscape_shorter he
          simp only [List.length_cons]
          omega
      · split at h <;> cases h
        simp

def readBody (cs : List Char) : Except LiteralFault (List Char × List Char) :=
  match _h : readUnit cs with
  | .error e => .error e
  | .ok (none, rest) => .ok ([], rest)
  | .ok (some unit, rest) => (readBody rest).map fun r => (unit ++ r.1, r.2)
termination_by cs.length
decreasing_by exact readUnit_shorter _h

def readLiteral : List Char → Option (List Char × List Char)
  | '"' :: cs => (readBody cs).toOption
  | _ => none

end DrawnSchema.Json

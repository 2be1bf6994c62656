import DrawnSchema.Text.Digits

namespace DrawnSchema.Yaml

def sixBits? (c : Char) : Option Nat :=
  if 'A' ≤ c && c ≤ 'Z' then some (c.toNat - 'A'.toNat)
  else if 'a' ≤ c && c ≤ 'z' then some (c.toNat - 'a'.toNat + 26)
  else if Text.isDecimal c then some (c.toNat - '0'.toNat + 52)
  else if c == '+' then some 62
  else if c == '/' then some 63
  else none

/-- Reads groups of four characters. Characters that stand for nothing are passed over; `held` of
a group are read, worth `bits`; `pads` padding marks came since. A group that is padded in full
ends the text. -/
def decodeFrom (held bits pads : Nat) : List Char → Option (List UInt8)
  | [] => if held = 0 then some [] else none
  | '=' :: cs =>
    if held ≥ 2 && held + (pads + 1) ≥ 4 then some []
    else decodeFrom held bits (if held ≥ 2 then pads + 1 else pads) cs
  | c :: cs =>
    match sixBits? c with
    | none => decodeFrom held bits pads cs
    | some n =>
      match held with
      | 0 => decodeFrom 1 n 0 cs
      | 1 => (decodeFrom 2 (n % 16) 0 cs).map (UInt8.ofNat (bits * 4 + n / 16) :: ·)
      | 2 => (decodeFrom 3 (n % 4) 0 cs).map (UInt8.ofNat (bits * 16 + n / 4) :: ·)
      | _ => (decodeFrom 0 0 0 cs).map (UInt8.ofNat (bits * 64 + n) :: ·)

def decodeBase64? (cs : List Char) : Option (List UInt8) := decodeFrom 0 0 0 cs

end DrawnSchema.Yaml

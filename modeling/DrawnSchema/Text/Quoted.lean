import DrawnSchema.Text.Surrogate

namespace DrawnSchema.Text

def hexDigit (n : Nat) : Char := Nat.digitChar n

def hexQuad (n : Nat) : List Char :=
  [hexDigit (n / 4096 % 16), hexDigit (n / 256 % 16), hexDigit (n / 16 % 16), hexDigit (n % 16)]

def unicodeEscape (n : Nat) : List Char := '\\' :: 'u' :: hexQuad n

/-- How a character is written between double quotes: the quote, the backslash and the controls
are escaped, all else stands for itself. -/
def escapeChar (c : Char) : List Char :=
  if c = '"' then ['\\', '"']
  else if c = '\\' then ['\\', '\\']
  else if c = '\n' then ['\\', 'n']
  else if c = '\r' then ['\\', 'r']
  else if c = '\t' then ['\\', 't']
  else if c = '\x08' then ['\\', 'b']
  else if c = '\x0c' then ['\\', 'f']
  else if c.toNat < 0x20 then unicodeEscape c.toNat
  else [c]

/-- How a code is written in printable ASCII only: one beyond sixteen bits becomes a pair of
escapes, half of a pair one escape. -/
def escapeCode (n : Nat) : List Char :=
  if n < 0x7f then escapeChar (Char.ofNat n)
  else if n < 0x10000 then unicodeEscape n
  else unicodeEscape (0xd800 + (n - 0x10000) / 0x400) ++ unicodeEscape (0xdc00 + n % 0x400)

def quoteChars (cs : List Char) : List Char := '"' :: cs.flatMap escapeChar ++ ['"']

def quote (s : String) : String := String.ofList (quoteChars s.toList)

def quoteAscii (s : String) : String :=
  String.ofList ('"' :: (codes s.toList).flatMap escapeCode ++ ['"'])

def escapeHalves (s : String) : String :=
  String.ofList (s.toList.flatMap fun c =>
    if isHalf c then unicodeEscape (codePoint c) else [c])

end DrawnSchema.Text

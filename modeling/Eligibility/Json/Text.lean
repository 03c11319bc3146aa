import Eligibility.Json

/-!
# JSON strings

Between its quotes a JSON string holds characters and escapes. `Json.escaped` writes a text,
with escapes for the quote, the backslash and the control characters below the space.
`Json.stringUnits?` reads up to the closing quote and lists the code point of each character
and the 16-bit unit of each `\u` escape; `Json.textOfUnits?` joins the two units of a surrogate
pair. A unit that is half of a pair and has no other half denotes no character.
-/

namespace Eligibility

namespace Json

/-- The spelling of one character between the quotes. -/
def escapedChar (c : Char) : List Char :=
  match c with
  | '"' => ['\\', '"']
  | '\\' => ['\\', '\\']
  | '\x08' => ['\\', 'b']
  | '\x0c' => ['\\', 'f']
  | '\n' => ['\\', 'n']
  | '\r' => ['\\', 'r']
  | '\t' => ['\\', 't']
  | c =>
    if c.toNat < 0x20 then
      ['\\', 'u', '0', '0', Nat.digitChar (c.toNat / 16), Nat.digitChar (c.toNat % 16)]
    else [c]

/-- A text between quotes. -/
def escaped (text : List Char) : List Char :=
  '"' :: text.flatMap escapedChar ++ ['"']

/-- The code point that a backslash with one character denotes. -/
def escapeUnit? (c : Char) : Option Nat :=
  match c with
  | '"' => some 0x22
  | '\\' => some 0x5c
  | '/' => some 0x2f
  | 'b' => some 0x08
  | 'f' => some 0x0c
  | 'n' => some 0x0a
  | 'r' => some 0x0d
  | 't' => some 0x09
  | _ => none

/-- The value of a hexadecimal digit. -/
def hexDigit? (c : Char) : Option Nat :=
  if '0' ≤ c ∧ c ≤ '9' then some (c.toNat - '0'.toNat)
  else if 'a' ≤ c ∧ c ≤ 'f' then some (c.toNat - 'a'.toNat + 10)
  else if 'A' ≤ c ∧ c ≤ 'F' then some (c.toNat - 'A'.toNat + 10)
  else none

/-- The unit of four hexadecimal digits. -/
def hexUnit? (a b c d : Char) : Option Nat := do
  return (((← hexDigit? a) * 16 + (← hexDigit? b)) * 16 + (← hexDigit? c)) * 16 + (← hexDigit? d)

/-- The units up to the closing quote, and the text after it. -/
def stringUnits? : List Char → Option (List Nat × List Char)
  | [] => none
  | '"' :: rest => some ([], rest)
  | '\\' :: 'u' :: a :: b :: c :: d :: rest => do
    let unit ← hexUnit? a b c d
    let (units, rest) ← stringUnits? rest
    return (unit :: units, rest)
  | '\\' :: c :: rest => do
    let unit ← escapeUnit? c
    let (units, rest) ← stringUnits? rest
    return (unit :: units, rest)
  | c :: rest =>
    if c.toNat < 0x20 then none
    else do
      let (units, rest) ← stringUnits? rest
      return (c.toNat :: units, rest)

/-- The first unit of a surrogate pair. -/
def isLeading (unit : Nat) : Bool := 0xd800 ≤ unit && unit < 0xdc00

/-- The second unit of a surrogate pair. -/
def isTrailing (unit : Nat) : Bool := 0xdc00 ≤ unit && unit < 0xe000

/-- The characters of the units. -/
def textOfUnits? : List Nat → Option (List Char)
  | [] => some []
  | unit :: units =>
    if isLeading unit then
      match units with
      | second :: rest =>
        if isTrailing second then
          (textOfUnits? rest).map
            (Char.ofNat (0x10000 + (unit - 0xd800) * 0x400 + (second - 0xdc00)) :: ·)
        else none
      | [] => none
    else if isTrailing unit then none
    else (textOfUnits? units).map (Char.ofNat unit :: ·)

theorem length_lt_of_stringUnits? {text : List Char} {units : List Nat} {rest : List Char}
    (h : stringUnits? text = some (units, rest)) : rest.length < text.length := by
  fun_induction stringUnits? text generalizing units rest with
  | case1 => simp at h
  | case2 tail => simp_all
  | case3 a b c d tail ih =>
    simp only [Option.bind_eq_bind, Option.bind_eq_some_iff, Option.pure_def, Option.some.injEq,
      Prod.mk.injEq] at h
    obtain ⟨_, _, ⟨us, r⟩, hr, _, rfl⟩ := h
    have := ih hr
    simp only [List.length_cons]
    omega
  | case4 c tail _ ih =>
    simp only [Option.bind_eq_bind, Option.bind_eq_some_iff, Option.pure_def, Option.some.injEq,
      Prod.mk.injEq] at h
    obtain ⟨_, _, ⟨us, r⟩, hr, _, rfl⟩ := h
    have := ih hr
    simp only [List.length_cons]
    omega
  | case5 => simp at h
  | case6 c tail _ _ _ _ ih =>
    simp only [Option.bind_eq_bind, Option.bind_eq_some_iff, Option.pure_def, Option.some.injEq,
      Prod.mk.injEq] at h
    obtain ⟨⟨us, r⟩, hr, _, rfl⟩ := h
    have := ih hr
    simp only [List.length_cons]
    omega

end Json

end Eligibility

/-
  Flowprint.Text.Base64
  ────────────────────────────────
  Bytes as text in the standard alphabet with padding: three bytes make four characters, and the
  last group of four ends in one or two equals signs when one or two bytes are left over.

  Reading is strict.  It refuses a group cut short, padding before the last group, and spare bits
  other than zero in the last group, so every accepted text is the written form of its bytes.

  Main statement:

      decode?_encode        what `encode` writes reads back
-/

namespace Flowprint.Text.Base64

/-! ## §1. The alphabet. -/

/-- The character of a value below 64. -/
def sextetChar (d : Nat) : Char :=
  "ABCDEFGHIJKLMNOPQRSTUVWXYZabcdefghijklmnopqrstuvwxyz0123456789+/".toList.getD d '?'

/-- The value of a character of the alphabet. -/
def sextet? (c : Char) : Option Nat :=
  if 'A' ≤ c ∧ c ≤ 'Z' then some (c.toNat - 65)
  else if 'a' ≤ c ∧ c ≤ 'z' then some (c.toNat - 97 + 26)
  else if '0' ≤ c ∧ c ≤ '9' then some (c.toNat - 48 + 52)
  else if c = '+' then some 62
  else if c = '/' then some 63
  else none

set_option maxRecDepth 4000 in
theorem sextet?_sextetChar {d : Nat} (h : d < 64) : sextet? (sextetChar d) = some d := by
  revert d
  decide

theorem sextetChar_ne_pad {d : Nat} (h : d < 64) : sextetChar d ≠ '=' := by
  intro heq
  have hpad : sextet? '=' = some d := heq ▸ sextet?_sextetChar h
  have hnone : sextet? '=' = none := by decide
  simp [hnone] at hpad

/-! ## §2. Writing and reading. -/

/-- The characters of a run of bytes. -/
def encode : List UInt8 → List Char
  | [] => []
  | [a] =>
    [sextetChar (a.toNat / 4), sextetChar (a.toNat % 4 * 16), '=', '=']
  | [a, b] =>
    [sextetChar (a.toNat / 4), sextetChar (a.toNat % 4 * 16 + b.toNat / 16),
      sextetChar (b.toNat % 16 * 4), '=']
  | a :: b :: c :: rest =>
    sextetChar (a.toNat / 4) :: sextetChar (a.toNat % 4 * 16 + b.toNat / 16)
      :: sextetChar (b.toNat % 16 * 4 + c.toNat / 64) :: sextetChar (c.toNat % 64)
      :: encode rest

/-- The first byte of a group: the first sextet and the top of the second. -/
def firstByte (s t : Nat) : UInt8 := .ofNat (s * 4 + t / 16)

/-- The second byte of a group: the rest of the second sextet and the top of the third. -/
def secondByte (t u : Nat) : UInt8 := .ofNat (t % 16 * 16 + u / 4)

/-- The third byte of a group: the rest of the third sextet and the fourth. -/
def thirdByte (u v : Nat) : UInt8 := .ofNat (u % 4 * 64 + v)

/-- The bytes of two characters that `==` follows. -/
def decodeOne? (s t : Char) : Option (List UInt8) := do
  let s ← sextet? s
  let t ← sextet? t
  if t % 16 = 0 then some [firstByte s t] else none

/-- The bytes of three characters that `=` follows. -/
def decodeTwo? (s t u : Char) : Option (List UInt8) := do
  let s ← sextet? s
  let t ← sextet? t
  let u ← sextet? u
  if u % 4 = 0 then some [firstByte s t, secondByte t u] else none

/-- The bytes of a group of four characters. -/
def decodeThree? (s t u v : Char) : Option (List UInt8) := do
  let s ← sextet? s
  let t ← sextet? t
  let u ← sextet? u
  let v ← sextet? v
  return [firstByte s t, secondByte t u, thirdByte u v]

/-- The bytes that a text stands for, if it is the written form of any. -/
def decode? : List Char → Option (List UInt8)
  | [] => some []
  | [s, t, '=', '='] => decodeOne? s t
  | [s, t, u, '='] => decodeTwo? s t u
  | s :: t :: u :: v :: rest => do
    let first ← decodeThree? s t u v
    let others ← decode? rest
    return first ++ others
  | _ => none

/-! ## §3. Round trip. -/

theorem firstByte_split (a : UInt8) {r : Nat} (h : r < 16) :
    firstByte (a.toNat / 4) (a.toNat % 4 * 16 + r) = a := by
  have : a.toNat / 4 * 4 + (a.toNat % 4 * 16 + r) / 16 = a.toNat := by omega
  rw [firstByte, this, UInt8.ofNat_toNat]

theorem secondByte_split (b : UInt8) {q r : Nat} (h : r < 4) :
    secondByte (q * 16 + b.toNat / 16) (b.toNat % 16 * 4 + r) = b := by
  have hb : b.toNat < 256 := b.toNat_lt_size
  have : (q * 16 + b.toNat / 16) % 16 * 16 + (b.toNat % 16 * 4 + r) / 4 = b.toNat := by omega
  rw [secondByte, this, UInt8.ofNat_toNat]

theorem thirdByte_split (c : UInt8) {q : Nat} :
    thirdByte (q * 4 + c.toNat / 64) (c.toNat % 64) = c := by
  have hc : c.toNat < 256 := c.toNat_lt_size
  have : (q * 4 + c.toNat / 64) % 4 * 64 + c.toNat % 64 = c.toNat := by omega
  rw [thirdByte, this, UInt8.ofNat_toNat]

/-- Reading a written text gives the bytes back. -/
theorem decode?_encode (bytes : List UInt8) : decode? (encode bytes) = some bytes := by
  fun_induction encode bytes with
  | case1 => rfl
  | case2 a =>
    have ha : a.toNat < 256 := a.toNat_lt_size
    have hfirst := firstByte_split a (show 0 < 16 by decide)
    rw [decode?, decodeOne?, sextet?_sextetChar (by omega), sextet?_sextetChar (by omega)]
    simpa using hfirst
  | case3 a b =>
    have ha : a.toNat < 256 := a.toNat_lt_size
    have hb : b.toNat < 256 := b.toNat_lt_size
    have hfirst := firstByte_split a (show b.toNat / 16 < 16 by omega)
    have hsecond := secondByte_split b (q := a.toNat % 4) (show 0 < 4 by decide)
    rw [decode?, decodeTwo?, sextet?_sextetChar (by omega), sextet?_sextetChar (by omega),
      sextet?_sextetChar (by omega)]
    · simp_all
    · exact sextetChar_ne_pad (by omega)
  | case4 a b c rest ih =>
    have ha : a.toNat < 256 := a.toNat_lt_size
    have hb : b.toNat < 256 := b.toNat_lt_size
    have hc : c.toNat < 256 := c.toNat_lt_size
    have hfirst := firstByte_split a (show b.toNat / 16 < 16 by omega)
    have hsecond := secondByte_split b (q := a.toNat % 4) (show c.toNat / 64 < 4 by omega)
    have hthird := thirdByte_split c (q := b.toNat % 16)
    have hpad := sextetChar_ne_pad (show c.toNat % 64 < 64 by omega)
    rw [decode?, decodeThree?, sextet?_sextetChar (by omega), sextet?_sextetChar (by omega),
      sextet?_sextetChar (by omega), sextet?_sextetChar (by omega), ih]
    · simp_all
    · intro _ h; exact absurd h hpad
    · intro h; exact absurd h hpad

/-- Written texts have characters of the alphabet and padding only. -/
theorem mem_encode {bytes : List UInt8} {c : Char} (h : c ∈ encode bytes) :
    c = '=' ∨ ∃ d < 64, c = sextetChar d := by
  fun_induction encode bytes with
  | case1 => exact absurd h List.not_mem_nil
  | case2 a =>
    have ha : a.toNat < 256 := a.toNat_lt_size
    simp only [List.mem_cons, List.not_mem_nil, or_false] at h
    rcases h with rfl | rfl | rfl | rfl
    · exact .inr ⟨_, by omega, rfl⟩
    · exact .inr ⟨_, by omega, rfl⟩
    · exact .inl rfl
    · exact .inl rfl
  | case3 a b =>
    have ha : a.toNat < 256 := a.toNat_lt_size
    have hb : b.toNat < 256 := b.toNat_lt_size
    simp only [List.mem_cons, List.not_mem_nil, or_false] at h
    rcases h with rfl | rfl | rfl | rfl
    · exact .inr ⟨_, by omega, rfl⟩
    · exact .inr ⟨_, by omega, rfl⟩
    · exact .inr ⟨_, by omega, rfl⟩
    · exact .inl rfl
  | case4 a b c rest ih =>
    have ha : a.toNat < 256 := a.toNat_lt_size
    have hb : b.toNat < 256 := b.toNat_lt_size
    have hc : c.toNat < 256 := c.toNat_lt_size
    simp only [List.mem_cons] at h
    rcases h with rfl | rfl | rfl | rfl | hrest
    · exact .inr ⟨_, by omega, rfl⟩
    · exact .inr ⟨_, by omega, rfl⟩
    · exact .inr ⟨_, by omega, rfl⟩
    · exact .inr ⟨_, by omega, rfl⟩
    · exact ih hrest

end Flowprint.Text.Base64

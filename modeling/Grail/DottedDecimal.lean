import Grail.Bytes

/-! # Addresses in dotted decimal

The text of a sequence of bytes: their decimal numbers with dots between them.  `octets` reads it
back as `inet_pton` does, without leading zeros and up to 255 for each number, and `host` as a
reader does that only multiplies and adds.  Both give back the bytes of a text (`octets_text`,
`host_text`). -/

namespace DottedDecimal

open Bytes

/-! ### Writing -/

def decimal (b : UInt8) : List Char := Nat.toDigits 10 b.toNat

/-- The numbers with dots between them. -/
def text (bs : List UInt8) : List Char := ['.'].intercalate (bs.map decimal)

/-! ### Reading -/

def digit (c : Char) : Option ℕ :=
  if '0'.toNat ≤ c.toNat ∧ c.toNat ≤ '9'.toNat then some (c.toNat - '0'.toNat) else none

/-- A number up to 255 without leading zeros. -/
def octet (word : List Char) : Option UInt8 :=
  match word.mapM digit with
  | none => none
  | some [] => none
  | some (0 :: _ :: _) => none
  | some ds =>
      let v := ds.foldl (fun v d => 10 * v + d) 0
      if v ≤ 255 then some (UInt8.ofNat v) else none

/-- The numbers between the dots. -/
def octets (s : List Char) : Option (List UInt8) := (s.splitOn '.').mapM octet

/-- The value of the digits in an 8-bit variable; nothing is checked. -/
def byteOf (word : List Char) : ℕ :=
  word.foldl (fun byte c => (byte * 10 + (c.toNat - '0'.toNat)) % 256) 0

/-- The numbers between the dots, shifted into a 32-bit variable. -/
def host (s : List Char) : ℕ :=
  (s.splitOn '.').foldl (fun host word => (host * 256 + byteOf word) % 2 ^ 32) 0

/-! ### Reading what was written -/

theorem octet_toDigits : ∀ n < 256, octet (Nat.toDigits 10 n) = some (UInt8.ofNat n) := by
  decide +kernel

theorem byteOf_toDigits : ∀ n < 256, byteOf (Nat.toDigits 10 n) = n := by decide +kernel

theorem dot_notMem_toDigits : ∀ n < 256, '.' ∉ Nat.toDigits 10 n := by decide +kernel

theorem octet_decimal (b : UInt8) : octet (decimal b) = some b := by
  rw [decimal, octet_toDigits _ b.toNat_lt, UInt8.ofNat_toNat]

theorem byteOf_decimal (b : UInt8) : byteOf (decimal b) = b.toNat := byteOf_toDigits _ b.toNat_lt

theorem splitOn_text {bs : List UInt8} (h : bs ≠ []) : (text bs).splitOn '.' = bs.map decimal := by
  refine List.splitOn_intercalate '.' ?_ (by simpa using h)
  intro word hword
  obtain ⟨b, -, rfl⟩ := List.mem_map.mp hword
  exact dot_notMem_toDigits _ b.toNat_lt

theorem octets_text {bs : List UInt8} (h : bs ≠ []) : octets (text bs) = some bs := by
  rw [octets, splitOn_text h]
  clear h
  induction bs with
  | nil => rfl
  | cons b bs ih =>
      rw [List.map_cons, List.mapM_cons, octet_decimal, ih]
      rfl

/-- Four numbers make a 32-bit address. -/
theorem host_text {bs : List UInt8} (h : bs.length = 4) : host (text bs) = ofBytes bs.reverse := by
  obtain ⟨b₁, b₂, b₃, b₄, rfl⟩ := List.length_eq_four.mp h
  have h₁ := b₁.toNat_lt
  have h₂ := b₂.toNat_lt
  have h₃ := b₃.toNat_lt
  have h₄ := b₄.toNat_lt
  rw [host, splitOn_text (List.cons_ne_nil _ _)]
  simp only [List.map_cons, List.map_nil, List.foldl_cons, List.foldl_nil, byteOf_decimal,
    List.reverse_cons, List.reverse_nil, List.nil_append, List.cons_append, ofBytes_cons, ofBytes_nil]
  omega

example : text [10, 1, 0, 255] = "10.1.0.255".toList := by decide +kernel

end DottedDecimal

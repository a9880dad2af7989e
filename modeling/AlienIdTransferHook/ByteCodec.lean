import AlienIdTransferHook.Solana

/-!
# Byte layouts

Little-endian integers, the Borsh fields of fixed size, and Rust's slice
operations with the panics they can raise.
-/
namespace AlienIdTransferHook.ByteCodec
open Solana

/-! ## Little-endian integers -/

def fromLE : List UInt8 → ℕ
  | [] => 0
  | b :: bs => b.toNat + 256 * fromLE bs

/-- The `k` low bytes of `n`, least significant first. -/
def toLE : ℕ → ℕ → List UInt8
  | 0, _ => []
  | k + 1, n => UInt8.ofNat (n % 256) :: toLE k (n / 256)

@[simp] theorem length_toLE (k n : ℕ) : (toLE k n).length = k := by
  induction k generalizing n with
  | zero => rfl
  | succ k ih => simp [toLE, ih]

theorem fromLE_lt (bs : List UInt8) : fromLE bs < 256 ^ bs.length := by
  induction bs with
  | nil => simp [fromLE]
  | cons b bs ih =>
      have hb := b.toNat_lt
      simp only [fromLE, List.length_cons, pow_succ]
      omega

theorem fromLE_toLE (k n : ℕ) : fromLE (toLE k n) = n % 256 ^ k := by
  induction k generalizing n with
  | zero => simp [toLE, fromLE, Nat.mod_one]
  | succ k ih =>
      have hb : (UInt8.ofNat (n % 256)).toNat = n % 256 := by
        rw [UInt8.toNat_ofNat']; omega
      rw [toLE, fromLE, hb, ih, pow_succ', Nat.mod_mul]

theorem toLE_fromLE (bs : List UInt8) : toLE bs.length (fromLE bs) = bs := by
  induction bs with
  | nil => rfl
  | cons b bs ih =>
      have hb := b.toNat_lt
      have hmod : (b.toNat + 256 * fromLE bs) % 256 = b.toNat := by omega
      have hdiv : (b.toNat + 256 * fromLE bs) / 256 = fromLE bs := by omega
      simp only [List.length_cons, fromLE, toLE, hmod, hdiv, ih, UInt8.ofNat_toNat]

/-- `i64::from_le_bytes`, on eight bytes: two's complement. -/
def i64FromLE (bs : List UInt8) : ℤ :=
  if fromLE bs < 2 ^ 63 then fromLE bs else fromLE bs - 2 ^ 64

/-- `i64::to_le_bytes`. -/
def i64ToLE (e : ℤ) : List UInt8 := toLE 8 (e % 2 ^ 64).toNat

@[simp] theorem length_i64ToLE (e : ℤ) : (i64ToLE e).length = 8 := length_toLE _ _

/-- The values of the type `i64`. -/
def IsI64 (e : ℤ) : Prop := -2 ^ 63 ≤ e ∧ e < 2 ^ 63

theorem isI64_i64FromLE {bs : List UInt8} (h : bs.length = 8) : IsI64 (i64FromLE bs) := by
  have hlt := fromLE_lt bs
  rw [h] at hlt
  unfold i64FromLE IsI64
  split_ifs <;> omega

theorem i64FromLE_i64ToLE {e : ℤ} (h : IsI64 e) : i64FromLE (i64ToLE e) = e := by
  obtain ⟨hlo, hhi⟩ := h
  rw [i64FromLE, i64ToLE, fromLE_toLE]
  split_ifs <;> omega

theorem i64ToLE_i64FromLE {bs : List UInt8} (h : bs.length = 8) :
    i64ToLE (i64FromLE bs) = bs := by
  have hlt := fromLE_lt bs
  rw [h] at hlt
  have hmod : (i64FromLE bs % 2 ^ 64).toNat = fromLE bs := by
    unfold i64FromLE
    split_ifs <;> omega
  rw [i64ToLE, hmod, ← h, toLE_fromLE]

/-! ## Borsh fields -/

/-- A key, and what follows it. -/
def readPubkey (bs : List UInt8) : Option (Pubkey × List UInt8) :=
  if h : 32 ≤ bs.length then some (⟨bs.take 32, by simp [h]⟩, bs.drop 32) else none

/-- A byte, and what follows it. -/
def readU8 : List UInt8 → Option (UInt8 × List UInt8)
  | [] => none
  | b :: bs => some (b, bs)

@[simp] theorem readPubkey_append (k : Pubkey) (rest : List UInt8) :
    readPubkey (k.bytes ++ rest) = some (k, rest) := by
  have hk := k.length_bytes
  have hlen : 32 ≤ (k.bytes ++ rest).length := by simp [hk]
  simp only [readPubkey, dif_pos hlen, Option.some.injEq, Prod.mk.injEq]
  exact ⟨Pubkey.ext_bytes (List.take_left' hk), List.drop_left' hk⟩

@[simp] theorem readU8_cons (b : UInt8) (rest : List UInt8) :
    readU8 (b :: rest) = some (b, rest) := rfl

/-! ## Rust slices -/

/-- `data[i]`. -/
def index (data : List UInt8) (i : ℕ) : Outcome UInt8 := expect data[i]? .panicked

/-- `data[a..b]`. -/
def slice (data : List UInt8) (a b : ℕ) : Outcome (List UInt8) := do
  require (a ≤ b ∧ b ≤ data.length) .panicked
  pure ((data.drop a).take (b - a))

/-- `<[u8; n]>::try_from(bytes).unwrap()`. -/
def tryIntoArray (n : ℕ) (bytes : List UInt8) : Outcome (List UInt8) := do
  require (bytes.length = n) .panicked
  pure bytes

/-- Addition of 64-bit `usize` values under `overflow-checks`. -/
def usizeAdd (a b : ℕ) : Outcome ℕ := do
  require (a + b < 2 ^ 64) .panicked
  pure (a + b)

theorem index_of_some {data : List UInt8} {i : ℕ} {b : UInt8} (h : data[i]? = some b) :
    index data i = .ok b := by simp [index, h]

theorem slice_of_le {data : List UInt8} {a b : ℕ} (hab : a ≤ b) (hb : b ≤ data.length) :
    slice data a b = .ok ((data.drop a).take (b - a)) := by
  rw [slice, require_pos ⟨hab, hb⟩]
  rfl

theorem tryIntoArray_of_length {n : ℕ} {bytes : List UInt8} (h : bytes.length = n) :
    tryIntoArray n bytes = .ok bytes := by
  rw [tryIntoArray, require_pos h]
  rfl

theorem usizeAdd_of_lt {a b : ℕ} (h : a + b < 2 ^ 64) : usizeAdd a b = .ok (a + b) := by
  rw [usizeAdd, require_pos h]
  rfl

end AlienIdTransferHook.ByteCodec

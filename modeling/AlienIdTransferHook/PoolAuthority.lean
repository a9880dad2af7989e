import AlienIdTransferHook.Solana
import Mathlib.Data.Sym.Sym2

/-!
# The transfer authority of a Meteora pool

The SDK derives the wallet to whitelist for a liquidity pool from the pool's two
tokens. The smaller key goes first, so that the order of the arguments does not
matter.
-/
namespace AlienIdTransferHook
open Solana

/-! ## Bytewise comparison -/

/-- `Buffer.compare`: -1, 0 or 1, by the first byte that differs, then by length. -/
def compareBytes : List UInt8 → List UInt8 → ℤ
  | [], [] => 0
  | [], _ :: _ => -1
  | _ :: _, [] => 1
  | a :: as, b :: bs => if a < b then -1 else if b < a then 1 else compareBytes as bs

@[simp] theorem compareBytes_cons_self (b : UInt8) (as bs : List UInt8) :
    compareBytes (b :: as) (b :: bs) = compareBytes as bs := by simp [compareBytes]

/-- Exchanging the operands changes the sign. -/
theorem compareBytes_swap (as bs : List UInt8) : compareBytes bs as = -compareBytes as bs := by
  induction as generalizing bs with
  | nil => cases bs <;> rfl
  | cons a as ih =>
      cases bs with
      | nil => rfl
      | cons b bs =>
          by_cases hlt : a < b
          · have hgt : ¬ b < a := UInt8.not_lt.mpr (UInt8.le_of_lt hlt)
            simp [compareBytes, hlt, hgt]
          · by_cases hgt : b < a
            · simp [compareBytes, hlt, hgt]
            · simp only [compareBytes, hlt, hgt, if_false]
              exact ih bs

/-- -1 is the strict lexicographic order on unsigned bytes. -/
theorem compareBytes_eq_neg_one {as bs : List UInt8} :
    compareBytes as bs = -1 ↔ as < bs := by
  induction as generalizing bs with
  | nil => cases bs <;> simp [compareBytes]
  | cons a as ih =>
      cases bs with
      | nil => simp [compareBytes]
      | cons b bs =>
          rw [List.cons_lt_cons_iff]
          by_cases hlt : a < b
          · simp [compareBytes, hlt]
          · by_cases hgt : b < a
            · have hne : a ≠ b := fun heq => hlt (heq ▸ hgt)
              simp [compareBytes, hlt, hgt, hne]
            · obtain rfl : a = b := UInt8.le_antisymm (UInt8.not_lt.mp hgt) (UInt8.not_lt.mp hlt)
              simp [ih]

theorem compareBytes_eq_one {as bs : List UInt8} : compareBytes as bs = 1 ↔ bs < as := by
  rw [← compareBytes_eq_neg_one, compareBytes_swap as bs]
  omega

theorem compareBytes_eq_zero {as bs : List UInt8} : compareBytes as bs = 0 ↔ as = bs := by
  induction as generalizing bs with
  | nil => cases bs <;> simp [compareBytes]
  | cons a as ih =>
      cases bs with
      | nil => simp [compareBytes]
      | cons b bs =>
          rw [List.cons.injEq]
          by_cases hlt : a < b
          · have hne : a ≠ b := fun heq => UInt8.lt_irrefl b (heq ▸ hlt)
            simp [compareBytes, hlt, hne]
          · by_cases hgt : b < a
            · have hne : a ≠ b := fun heq => hlt (heq ▸ hgt)
              simp [compareBytes, hlt, hgt, hne]
            · obtain rfl : a = b := UInt8.le_antisymm (UInt8.not_lt.mp hgt) (UInt8.not_lt.mp hlt)
              simp [ih]

theorem compareBytes_cases (as bs : List UInt8) :
    compareBytes as bs = -1 ∨ compareBytes as bs = 0 ∨ compareBytes as bs = 1 := by
  fun_induction compareBytes as bs with
  | case1 => simp
  | case2 => simp
  | case3 => simp
  | case4 => simp
  | case5 => simp
  | case6 a as b bs hlt hgt ih => exact ih

/-! ## The derivation -/

/-- MFGQxwAmB91SwuYX36okv2Qmdc9aMuHTwWGUrp4AtB1 -/
def ILM_BASE : Pubkey :=
  ⟨[5, 47, 191, 27, 74, 184, 161, 25, 218, 242, 120, 203, 170, 97, 69, 75, 170, 34, 88, 206, 148,
    151, 169, 168, 244, 62, 59, 71, 50, 48, 130, 40], rfl⟩

/-- `[minKey, maxKey]`. -/
def minMaxKey (tokenX tokenY : Pubkey) : Pubkey × Pubkey :=
  if compareBytes tokenX.bytes tokenY.bytes = 1 then (tokenY, tokenX) else (tokenX, tokenY)

def poolSeeds (tokenX tokenY : Pubkey) : List (List UInt8) :=
  [ILM_BASE.bytes, (minMaxKey tokenX tokenY).1.bytes, (minMaxKey tokenX tokenY).2.bytes]

/-- `none` where `findProgramAddressSync` throws. -/
def derivePoolTransferAuthorityMeteora (H : Host) (tokenX tokenY dlmmProgramId : Pubkey) :
    Option Pubkey := do
  let pda ← H.findProgramAddress (poolSeeds tokenX tokenY) dlmmProgramId
  pure pda.1

theorem minMaxKey_comm (x y : Pubkey) : minMaxKey x y = minMaxKey y x := by
  have hswap := compareBytes_swap x.bytes y.bytes
  unfold minMaxKey
  rcases compareBytes_cases x.bytes y.bytes with hcmp | hcmp | hcmp
  · have hyx : compareBytes y.bytes x.bytes = 1 := by rw [hswap, hcmp]; rfl
    rw [if_neg (by omega), if_pos hyx]
  · have heq : x = y := Pubkey.ext_bytes (compareBytes_eq_zero.mp hcmp)
    rw [heq]
  · have hyx : compareBytes y.bytes x.bytes ≠ 1 := by omega
    rw [if_pos hcmp, if_neg hyx]

/-- The two keys, neither dropped nor doubled. -/
theorem minMaxKey_pair (x y : Pubkey) : s((minMaxKey x y).1, (minMaxKey x y).2) = s(x, y) := by
  unfold minMaxKey
  split_ifs
  · exact Sym2.eq_swap
  · rfl

/-- The first is not above the second. -/
theorem minMaxKey_le (x y : Pubkey) :
    ¬ (minMaxKey x y).2.bytes < (minMaxKey x y).1.bytes := by
  unfold minMaxKey
  split_ifs with hcmp
  · exact List.lt_asymm (compareBytes_eq_one.mp hcmp)
  · rwa [← compareBytes_eq_one]

theorem poolSeeds_comm (x y : Pubkey) : poolSeeds x y = poolSeeds y x := by
  rw [poolSeeds, poolSeeds, minMaxKey_comm]

theorem derivePoolTransferAuthorityMeteora_comm (H : Host) (x y p : Pubkey) :
    derivePoolTransferAuthorityMeteora H x y p = derivePoolTransferAuthorityMeteora H y x p := by
  rw [derivePoolTransferAuthorityMeteora, poolSeeds_comm]
  rfl

/-- Seeds of two pools in front of further bytes agree only for one pool. -/
lemma poolSeeds_append_inj {x y x' y' : Pubkey} {r r' : List UInt8}
    (h : (poolSeeds x y).flatten ++ r = (poolSeeds x' y').flatten ++ r') :
    s(x, y) = s(x', y') ∧ r = r' := by
  simp only [poolSeeds, List.flatten_cons, List.flatten_nil, List.append_nil,
    List.append_assoc] at h
  rw [Pubkey.append_inj, Pubkey.append_inj, Pubkey.append_inj] at h
  obtain ⟨-, hmin, hmax, hrest⟩ := h
  refine ⟨?_, hrest⟩
  rw [← minMaxKey_pair x y, ← minMaxKey_pair x' y', hmin, hmax]

theorem poolSeeds_flatten_inj {x y x' y' : Pubkey} :
    (poolSeeds x y).flatten = (poolSeeds x' y').flatten ↔ s(x, y) = s(x', y') := by
  constructor
  · intro h
    have happend : (poolSeeds x y).flatten ++ [] = (poolSeeds x' y').flatten ++ [] := by rw [h]
    exact (poolSeeds_append_inj happend).1
  · intro h
    rcases Sym2.eq_iff.mp h with ⟨rfl, rfl⟩ | ⟨rfl, rfl⟩
    · rfl
    · rw [poolSeeds_comm]

/-- What is hashed determines the pool, the bump and the program. -/
theorem poolPreimage_injective {x y x' y' p p' : Pubkey} {b b' : UInt8}
    (h : pdaPreimage (poolSeeds x y ++ [[b]]) p = pdaPreimage (poolSeeds x' y' ++ [[b']]) p') :
    s(x, y) = s(x', y') ∧ b = b' ∧ p = p' := by
  simp only [pdaPreimage, List.flatten_append, List.append_assoc] at h
  obtain ⟨hpair, hrest⟩ := poolSeeds_append_inj h
  obtain ⟨hb, hkeys⟩ := List.cons.inj hrest
  exact ⟨hpair, hb, (Pubkey.append_inj.mp hkeys).1⟩

/-- The pool authority is a function of the unordered pair of tokens: the seeds are the
base, the smaller and the larger key, and different pairs are never hashed from the same
bytes, whatever the bumps and the programs. -/
theorem pool_authority_of_unordered_pair (H : Host) :
    (∀ x y p, derivePoolTransferAuthorityMeteora H x y p =
      derivePoolTransferAuthorityMeteora H y x p) ∧
    (∀ x y p, derivePoolTransferAuthorityMeteora H x y p =
      (H.findProgramAddress (poolSeeds x y) p).map Prod.fst) ∧
    (∀ x y, ∃ lo hi : Pubkey, s(lo, hi) = s(x, y) ∧ ¬ hi.bytes < lo.bytes ∧
      poolSeeds x y = [ILM_BASE.bytes, lo.bytes, hi.bytes]) ∧
    (∀ x y x' y', (poolSeeds x y).flatten = (poolSeeds x' y').flatten ↔ s(x, y) = s(x', y')) ∧
    ∀ x y x' y' (b b' : UInt8) p p', pdaPreimage (poolSeeds x y ++ [[b]]) p =
      pdaPreimage (poolSeeds x' y' ++ [[b']]) p' → s(x, y) = s(x', y') ∧ b = b' ∧ p = p' := by
  refine ⟨derivePoolTransferAuthorityMeteora_comm H, ?_, ?_,
    fun _ _ _ _ => poolSeeds_flatten_inj, fun _ _ _ _ _ _ _ _ => poolPreimage_injective⟩
  · intro x y p
    unfold derivePoolTransferAuthorityMeteora
    cases H.findProgramAddress (poolSeeds x y) p <;> rfl
  · intro x y
    exact ⟨_, _, minMaxKey_pair x y, minMaxKey_le x y, rfl⟩

end AlienIdTransferHook

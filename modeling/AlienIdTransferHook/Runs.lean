import AlienIdTransferHook.Refinement
import AlienIdTransferHook.TlvList

/-!
# Reading a run back

From the operations on a mint's policy to the calls in the history of the ledger
that performed them, and the kinds of calls that claims about runs speak of.
-/
namespace AlienIdTransferHook
open Solana History TransferPolicy

/-! ## Kinds of instructions -/

namespace Instruction

def SetsAuthority : Instruction → Prop
  | initializeConfig .. | acceptAuthority => True
  | _ => False

def SetsPending : Instruction → Prop
  | initializeConfig .. | transferAuthority | acceptAuthority => True
  | _ => False

def SetsRule : Instruction → Prop
  | initializeConfig .. | updateConfig .. => True
  | _ => False

def OnWallet (w : Pubkey) : Instruction → Prop
  | addToWhitelist w' | removeFromWhitelist w' => w' = w
  | _ => False

/-- The instructions that only the config authority may call. -/
def Gated : Instruction → Prop
  | initializeConfig .. | acceptAuthority | transferHook _ => False
  | _ => True

end Instruction

/-- A successful call of such an instruction for mint `m`. -/
def Event.For (m : Pubkey) (P : Instruction → Prop) : Event → Prop
  | .invoked c => c.mint = some m ∧ P c.instruction
  | _ => False

namespace Call
variable {m : Pubkey} {c : Call}

lemma accounts_of_mint (h : c.mint = some m) : ∃ a rest, c.accounts = a :: rest := by
  obtain ⟨i, keys, p⟩ := c
  cases keys with
  | nil => cases i <;> simp [mint] at h
  | cons a rest => exact ⟨a, rest, rfl⟩

lemma accounts_of_mint_transferAuthority (h : c.mint = some m)
    (hi : c.instruction = .transferAuthority) : ∃ a k rest, c.accounts = a :: k :: rest := by
  obtain ⟨i, keys, p⟩ := c
  obtain rfl : i = .transferAuthority := hi
  match keys with
  | [] | [_] => simp [mint] at h
  | a :: k :: rest => exact ⟨a, k, rest, rfl⟩

lemma op_setsAuthority (h : c.mint = some m) (hi : c.instruction.SetsAuthority) :
    ∃ op, c.op m = some op ∧ op.SetsAuthority := by
  obtain ⟨a, rest, hkeys⟩ := accounts_of_mint h
  obtain ⟨i, keys, p⟩ := c
  obtain rfl : keys = a :: rest := hkeys
  cases i <;> simp only [Instruction.SetsAuthority] at hi
  all_goals exact ⟨_, if_pos h, trivial⟩

lemma op_setsPending (h : c.mint = some m) (hi : c.instruction.SetsPending) :
    ∃ op, c.op m = some op ∧ op.SetsPending := by
  obtain ⟨a, rest, hkeys⟩ := accounts_of_mint h
  by_cases ht : c.instruction = .transferAuthority
  · obtain ⟨a, k, rest, hkeys⟩ := accounts_of_mint_transferAuthority h ht
    obtain ⟨i, keys, p⟩ := c
    obtain rfl : keys = a :: k :: rest := hkeys
    obtain rfl : i = .transferAuthority := ht
    exact ⟨_, if_pos h, trivial⟩
  · obtain ⟨i, keys, p⟩ := c
    obtain rfl : keys = a :: rest := hkeys
    cases i <;> simp only [Instruction.SetsPending] at hi
    case transferAuthority => exact absurd rfl ht
    all_goals exact ⟨_, if_pos h, trivial⟩

lemma op_setsRule (h : c.mint = some m) (hi : c.instruction.SetsRule) :
    ∃ op, c.op m = some op ∧ op.SetsRule := by
  obtain ⟨a, rest, hkeys⟩ := accounts_of_mint h
  obtain ⟨i, keys, p⟩ := c
  obtain rfl : keys = a :: rest := hkeys
  cases i <;> simp only [Instruction.SetsRule] at hi
  all_goals exact ⟨_, if_pos h, trivial⟩

lemma op_onWallet {w : Pubkey} (h : c.mint = some m) (hi : c.instruction.OnWallet w) :
    ∃ op, c.op m = some op ∧ op.OnWallet w := by
  obtain ⟨a, rest, hkeys⟩ := accounts_of_mint h
  obtain ⟨i, keys, p⟩ := c
  obtain rfl : keys = a :: rest := hkeys
  cases i <;> simp only [Instruction.OnWallet] at hi
  all_goals exact ⟨_, if_pos h, hi⟩

theorem mint_of_op {op : Op Pubkey Rule} (h : c.op m = some op) : c.mint = some m := by
  by_cases hm : c.mint = some m
  · exact hm
  · simp [Call.op, hm] at h

/-- The instruction and the accounts that an operation stands for. -/
theorem instruction_of_op {op : Op Pubkey Rule} (h : c.op m = some op) :
    match op with
    | .create a r => c.instruction = .initializeConfig r.credential r.schema r.sasProgram ∧
        c.accounts.head? = some a
    | .publish a => c.instruction = .initializeExtraAccountMetaList ∧
        c.accounts.head? = some a
    | .setRule a r => c.instruction = .updateConfig r.credential r.schema r.sasProgram ∧
        c.accounts.head? = some a
    | .nominate a n => c.instruction = .transferAuthority ∧ c.accounts.head? = some a ∧
        ∃ k, c.accounts[1]? = some k ∧ n = nominee k
    | .accept a => c.instruction = .acceptAuthority ∧ c.accounts.head? = some a
    | .exempt a w => c.instruction = .addToWhitelist w ∧ c.accounts.head? = some a
    | .revoke a w => c.instruction = .removeFromWhitelist w ∧ c.accounts.head? = some a := by
  obtain ⟨i, keys, p⟩ := c
  simp only [Call.op] at h
  split_ifs at h
  split at h <;> cases h <;> simp

end Call

/-! ## Entries of a run -/

variable {d : Deployment} {K : KeysInPlay d} {l : Ledger} {m : Pubkey}

/-- A call recorded in a history took effect in the state recorded with it. -/
theorem exists_effect {newer older : List (Ledger × Event)} {l₀ : Ledger} {c : Call}
    (hr : Reaches (hookSystem K) (newer ++ (l₀, .invoked c) :: older) l) :
    c.Admissible K ∧ Inv K l₀ ∧ ∃ l₁, Effect K l₀ c l₁ := by
  obtain ⟨hold, l₁, hstep, -⟩ := hr.cut
  have hinv : Inv K l₀ := inv_of_reaches hold
  cases hstep with
  | invoked ha h => exact ⟨ha, hinv, l₁, effect_of_process hinv ha h⟩

/-- An operation in the history of a policy was a successful call for its mint. -/
theorem exists_call (hm : m ∈ K.keys) {h : List (Ledger × Event)}
    (hr : Reaches (hookSystem K) h l) {newer older : List (Option (Policy Pubkey Rule) ×
      Op Pubkey Rule)} {t : Option (Policy Pubkey Rule)} {op : Op Pubkey Rule}
    (himage : (policySimulation K hm).image h = newer ++ (t, op) :: older) :
    ∃ hnewer l₀ c holder, h = hnewer ++ (l₀, .invoked c) :: holder ∧ c.op m = some op ∧
      c.Admissible K ∧ Inv K l₀ ∧ (∃ l₁, Effect K l₀ c l₁) ∧ policy K m l₀ = t ∧
      (policySimulation K hm).image hnewer = newer ∧
      (policySimulation K hm).image holder = older := by
  obtain ⟨hnewer, l₀, e, holder, rfl, hlabel, hview, hn, ho⟩ :=
    (policySimulation K hm).exists_entry himage
  cases e with
  | invoked c =>
      obtain ⟨ha, hinv, heffect⟩ := exists_effect hr
      exact ⟨hnewer, l₀, c, holder, rfl, hlabel, ha, hinv, heffect, hview, hn, ho⟩
  | _ => cases hlabel

/-- Where no operation of a kind occurs, no call of the matching kind occurs. -/
theorem not_for_of_image (hm : m ∈ K.keys) {h : List (Ledger × Event)}
    {P : Instruction → Prop} {Q : Op Pubkey Rule → Prop}
    (hpq : ∀ c : Call, c.mint = some m → P c.instruction → ∃ op, c.op m = some op ∧ Q op)
    (himage : ∀ e ∈ (policySimulation K hm).image h, ¬ Q e.2) :
    ∀ e ∈ h, ¬ e.2.For m P := by
  rintro ⟨l₀, e⟩ hmem hfor
  cases e with
  | invoked c =>
      obtain ⟨op, hop, hq⟩ := hpq c hfor.1 hfor.2
      exact (policySimulation K hm).forall_label (P := fun op => ¬ Q op) himage hmem hop hq
  | _ => exact hfor

/-- Where no call of a kind occurs, no operation of the matching kind occurs. -/
theorem not_in_image (hm : m ∈ K.keys) {h : List (Ledger × Event)}
    {P : Instruction → Prop} {Q : Op Pubkey Rule → Prop}
    (hqp : ∀ (c : Call) (op : Op Pubkey Rule), c.op m = some op → Q op → P c.instruction)
    (hfor : ∀ e ∈ h, ¬ e.2.For m P) : ∀ e ∈ (policySimulation K hm).image h, ¬ Q e.2 := by
  refine (policySimulation K hm).forall_image (P := fun op => ¬ Q op) ?_
  rintro ⟨l₀, e⟩ hmem op hop hq
  cases e with
  | invoked c => exact hfor _ hmem ⟨Call.mint_of_op hop, hqp c op hop hq⟩
  | _ => cases hop

theorem hookConfig_of_policy {p : Policy Pubkey Rule} (h : policy K m l = some p) :
    ∃ c, d.hookConfig l m = some c ∧ policyOf K m l c = p := by
  simpa [policy] using h

/-! ## Calls in a reachable state -/

lemma effect_of_reaches {h : List (Ledger × Event)} {l' : Ledger} {c : Call}
    (hr : Reaches (hookSystem K) h l) (ha : c.Admissible K) (hok : c.process d l = .ok l') :
    Effect K l c l' := effect_of_process (inv_of_reaches hr) ha hok

/-- A gated call was made and signed by the current authority. -/
lemma Effect.gated {l' : Ledger} {c : Call} (h : Effect K l c l') (hmint : c.mint = some m)
    (hi : c.instruction.Gated) :
    ∃ k config, ConfigAt K l m k config ∧ c.accounts.head? = some config.authority ∧
      config.authority ∈ c.privileges.signers := by
  cases h with
  | updateConfig hc hsigned | initializeExtraAccountMetaList hc hsigned
  | transferAuthority hc hsigned | addToWhitelist hc hsigned
  | removeFromWhitelist hc hsigned =>
      obtain rfl := Option.some.inj hmint
      exact ⟨_, _, hc, rfl, hsigned⟩
  | _ => cases hi

/-!
## A local chain

A deployment on which everything computes: the token layouts of Token-2022, the
library's list layout, and a hash that keeps what tells the program's addresses
apart. Its keys repeat one byte, so that no derived address is among them.
-/
namespace LocalChain
open ByteCodec

/-! ### Token layouts -/

/-- The tag of a `COption`, four bytes. -/
def readTag (bs : List UInt8) : Outcome Bool :=
  if bs.take 4 = [0, 0, 0, 0] then .ok false
  else if bs.take 4 = [1, 0, 0, 0] then .ok true
  else .error .invalidAccountData

/-- `COption<Pubkey>`. -/
def readOptionalPubkey (bs : List UInt8) : Outcome (Option Pubkey) := do
  let present ← readTag bs
  let (k, _) ← expect (readPubkey (bs.drop 4)) .invalidAccountData
  pure (if present then some k else none)

lemma readTag_error (bs : List UInt8) : FailsWith UnpackError (readTag bs) := by
  intro e h
  unfold readTag at h
  split_ifs at h
  exact .inl (Except.error.inj h).symm

/-- Neither too short for its base nor a multisig. -/
def checkLength (size : ℕ) (data : List UInt8) : Outcome Unit :=
  require (size ≤ data.length ∧ data.length ≠ 355) .invalidAccountData

/-- What follows a base: nothing, or padding to the size of an account, the type of the
account and at least a byte for extensions. -/
def checkType (accountType : UInt8) (size : ℕ) (rest : List UInt8) : Outcome Unit :=
  require (rest = [] ∨ 165 - size + 1 < rest.length ∧
    rest.take (165 - size) = List.replicate (165 - size) 0 ∧
    rest[165 - size]? = some accountType) .invalidAccountData

/-- Byte 45 of a mint says whether it is initialised. -/
def unpackMint (data : List UInt8) : Outcome Mint := do
  checkLength 82 data
  let mintAuthority ← readOptionalPubkey data
  require (data[45]? = some 0 ∨ data[45]? = some 1) .invalidAccountData
  let _ ← readOptionalPubkey (data.drop 46)
  require (data[45]? ≠ some 0) .uninitializedAccount
  checkType 1 82 (data.drop 82)
  pure ⟨mintAuthority⟩

/-- Byte 108 of a token account holds its state: uninitialised, initialised or frozen. -/
def unpackAccount (data : List UInt8) : Outcome TokenAccount := do
  checkLength 165 data
  let (mint, _) ← expect (readPubkey data) .invalidAccountData
  let (owner, _) ← expect (readPubkey (data.drop 32)) .invalidAccountData
  let delegate ← readOptionalPubkey (data.drop 72)
  require (data[108]? = some 0 ∨ data[108]? = some 1 ∨ data[108]? = some 2)
    .invalidAccountData
  let _ ← readTag (data.drop 109)
  let _ ← readOptionalPubkey (data.drop 129)
  require (data[108]? ≠ some 0) .uninitializedAccount
  checkType 2 165 (data.drop 165)
  pure ⟨mint, owner, fromLE ((data.drop 64).take 8), delegate,
    fromLE ((data.drop 121).take 8)⟩

lemma readOptionalPubkey_error (bs : List UInt8) :
    FailsWith UnpackError (readOptionalPubkey bs) :=
  .bind (readTag_error bs) fun _ => .bind (.of_expect (.inl rfl)) fun _ => .of_ok _

theorem unpackMint_error (data : List UInt8) : FailsWith UnpackError (unpackMint data) :=
  .bind (.of_require (.inl rfl)) fun _ => .bind (readOptionalPubkey_error _) fun _ =>
    .bind (.of_require (.inl rfl)) fun _ => .bind (readOptionalPubkey_error _) fun _ =>
      .bind (.of_require (.inr rfl)) fun _ => .bind (.of_require (.inl rfl)) fun _ => .of_ok _

theorem unpackAccount_error (data : List UInt8) : FailsWith UnpackError (unpackAccount data) :=
  .bind (.of_require (.inl rfl)) fun _ => .bind (.of_expect (.inl rfl)) fun _ =>
    .bind (.of_expect (.inl rfl)) fun _ => .bind (readOptionalPubkey_error _) fun _ =>
      .bind (.of_require (.inl rfl)) fun _ => .bind (readTag_error _) fun _ =>
        .bind (readOptionalPubkey_error _) fun _ => .bind (.of_require (.inr rfl)) fun _ =>
          .bind (.of_require (.inl rfl)) fun _ => .of_ok _

/-- The value of the first extension of a kind. -/
def extension (kind : ℕ) : ℕ → List UInt8 → Option (List UInt8)
  | 0, _ => none
  | n + 1, bs =>
      if fromLE (bs.take 2) = 0 then none
      else if fromLE (bs.take 2) = kind then
        some ((bs.drop 4).take (fromLE ((bs.drop 2).take 2)))
      else extension kind n (bs.drop (4 + fromLE ((bs.drop 2).take 2)))

/-- Extension 15, `TransferHookAccount`, is one flag. -/
def transferring (data : List UInt8) : Outcome Bool :=
  match extension 15 data.length (data.drop 166) with
  | some (flag :: _) => .ok (flag != 0)
  | _ => .error (.library 48)

theorem transferring_error (data : List UInt8) (e : ProgramError)
    (h : transferring data = .error e) : ∃ code, e = .library code := by
  unfold transferring at h
  split at h
  · cases h
  · exact ⟨48, (Except.error.inj h).symm⟩

/-! ### The chain -/

/-- A key that repeats one byte. -/
def key (b : UInt8) : Pubkey := ⟨List.replicate 32 b, List.length_replicate ..⟩

def programId : Pubkey := key 9
def tokenProgram : Pubkey := key 8

def authority : Pubkey := key 1
def mint : Pubkey := key 2
def wallet : Pubkey := key 3
def successor : Pubkey := key 4
def source : Pubkey := key 5
def destination : Pubkey := key 6
def holder : Pubkey := key 7
def rule : Rule := ⟨key 10, key 11, key 12⟩

/-- Length, bump, and the last bytes of the last two keys of what is hashed. -/
def hash (bs : List UInt8) : Pubkey :=
  ⟨UInt8.ofNat bs.length :: bs.getD (bs.length - 54) 0 :: bs.getD (bs.length - 55) 0 ::
    bs.getD (bs.length - 87) 0 :: List.replicate 28 0, by simp⟩

def chain : Deployment where
  programId := programId
  hash := hash
  onCurve _ := false
  minimumBalance n := (128 + n) * 6960
  programId_ne := by decide
  token :=
    { ids := [tokenProgram]
      unpackMint := unpackMint
      unpackAccount := unpackAccount
      unpackMint_error := unpackMint_error
      unpackAccount_error := unpackAccount_error
      transferring := transferring
      transferring_error := transferring_error }
  resolution := TlvList.library

/-- A derived address ends in zeros. -/
lemma last_of_create {seeds : List (List UInt8)} {p k : Pubkey}
    (h : chain.createProgramAddress seeds p = some k) : k.bytes[31]? = some 0 := by
  have hhash : hash (pdaPreimage seeds p) = k := Host.hash_of_create h
  simp [← hhash, hash]

lemma hash_config (m b : UInt8) :
    (hash (pdaPreimage ((HookSeeds.config (key m)).toList ++ [[b]]) programId)).bytes =
      92 :: b :: m :: 103 :: List.replicate 28 0 := rfl

lemma hash_extraAccountMetas (m b : UInt8) :
    (hash (pdaPreimage ((HookSeeds.extraAccountMetas (key m)).toList ++ [[b]])
      programId)).bytes = 105 :: b :: m :: 115 :: List.replicate 28 0 := rfl

set_option maxRecDepth 2000 in
lemma hash_whitelist (m w b : UInt8) :
    (hash (pdaPreimage ((HookSeeds.whitelist (key m) (key w)).toList ++ [[b]])
      programId)).bytes = 127 :: b :: w :: m :: List.replicate 28 0 := rfl

/-- What the hash of a record's seeds keeps. -/
def digest : HookSeeds → UInt8 → List UInt8
  | .config m, b => [92, b, m.bytes.head?.getD 0, 103]
  | .extraAccountMetas m, b => [105, b, m.bytes.head?.getD 0, 115]
  | .whitelist m w, b => [127, b, w.bytes.head?.getD 0, m.bytes.head?.getD 0]

lemma hash_bytes {s : HookSeeds} (hs : ∀ k ∈ s.keys, k ∈ Set.range key) (b : UInt8) :
    (hash (pdaPreimage (s.toList ++ [[b]]) programId)).bytes =
      digest s b ++ List.replicate 28 0 := by
  cases s with
  | config m =>
      obtain ⟨m, rfl⟩ := hs m (by simp [HookSeeds.keys])
      exact hash_config m b
  | extraAccountMetas m =>
      obtain ⟨m, rfl⟩ := hs m (by simp [HookSeeds.keys])
      exact hash_extraAccountMetas m b
  | whitelist m w =>
      obtain ⟨m, rfl⟩ := hs m (by simp [HookSeeds.keys])
      obtain ⟨w, rfl⟩ := hs w (by simp [HookSeeds.keys])
      exact hash_whitelist m w b

/-- A repeated byte determines its key. -/
lemma key_ext {k k' : Pubkey} (hk : k ∈ Set.range key) (hk' : k' ∈ Set.range key)
    (h : k.bytes.head?.getD 0 = k'.bytes.head?.getD 0) : k = k' := by
  obtain ⟨b, rfl⟩ := hk
  obtain ⟨b', rfl⟩ := hk'
  exact congrArg key h

lemma digest_injective {s s' : HookSeeds} {b b' : UInt8}
    (hs : ∀ k ∈ s.keys, k ∈ Set.range key) (hs' : ∀ k ∈ s'.keys, k ∈ Set.range key)
    (h : digest s b = digest s' b') : s = s' ∧ b = b' := by
  cases s <;> cases s' <;> simp only [HookSeeds.keys, List.forall_mem_cons] at hs hs' <;>
    simp [digest] at h
  case config.config =>
    exact ⟨congrArg _ (key_ext hs.1 hs'.1 h.2), h.1⟩
  case extraAccountMetas.extraAccountMetas =>
    exact ⟨congrArg _ (key_ext hs.1 hs'.1 h.2), h.1⟩
  case whitelist.whitelist =>
    exact ⟨congrArg₂ _ (key_ext hs.1 hs'.1 h.2.2) (key_ext hs.2.1 hs'.2.1 h.2.1), h.1⟩

/-- The hash tells the addresses for all such keys apart. -/
def keysInPlay : KeysInPlay chain where
  keys := Set.range key
  collisionFree := by
    rintro _ ⟨s, b, hs, rfl⟩ _ ⟨s', b', hs', rfl⟩ heq
    have hbytes := congrArg Pubkey.bytes heq
    have hdigest : digest s b = digest s' b' := by
      simpa using (hash_bytes hs b).symm.trans (hbytes.trans (hash_bytes hs' b'))
    obtain ⟨rfl, rfl⟩ := digest_injective hs hs' hdigest
    rfl
  others := {TransferHook.attestationSeeds rule.credential rule.schema wallet}

theorem not_derived {k : Pubkey} (hk : k.bytes[31]? ≠ some 0) : ¬ keysInPlay.Derived k := by
  intro h
  cases h with
  | record _ hcreate => exact hk (last_of_create hcreate)
  | other _ hcreate => exact hk (last_of_create hcreate)

/-! ### Accounts -/

/-- A mint with a mint authority, a supply of zero and no decimals. -/
def mintData (mintAuthority : Pubkey) : List UInt8 :=
  toLE 4 1 ++ (mintAuthority.bytes ++ (toLE 9 0 ++ ([1] ++ toLE 36 0)))

/-- A token account in the middle of a transfer. -/
def tokenAccountData (a : TokenAccount) : List UInt8 :=
  a.mint.bytes ++ (a.owner.bytes ++ (toLE 8 a.amount ++
    ((match a.delegate with
      | some k => toLE 4 1 ++ k.bytes
      | none => toLE 36 0) ++
      ([1] ++ (toLE 12 0 ++ (toLE 8 a.delegatedAmount ++ (toLE 36 0 ++ ([2] ++
        (toLE 2 15 ++ (toLE 2 1 ++ [1]))))))))))

def tokenAccount (a : TokenAccount) : Account := ⟨2074080, tokenProgram, tokenAccountData a⟩

/-- The holder's account, of whose 100 delegated tokens the wallet is moving 25. -/
def debited : TokenAccount := ⟨mint, holder, 975, some wallet, 75⟩
def credited : TokenAccount := ⟨mint, successor, 25, none, 0⟩

/-- Before the program's first instruction: two funded wallets, a mint and two token
accounts. -/
def genesis : Ledger where
  account k :=
    if k = authority ∨ k = successor then ⟨10 ^ 10, systemProgram, []⟩
    else if k = mint then ⟨1461600, tokenProgram, mintData authority⟩
    else if k = source then tokenAccount debited
    else if k = destination then tokenAccount credited
    else ⟨0, systemProgram, []⟩
  unixTimestamp := 1700000000

theorem fresh_genesis : keysInPlay.Fresh genesis := by
  intro k hk
  have hne : ∀ b, b ≠ 0 → k ≠ key b := by
    rintro b hb rfl
    exact not_derived (by simpa [key] using hb) hk
  simp [genesis, authority, successor, mint, source, destination, hne, Account.Unallocated]

/-- The address of a record: no hash is on the curve, so its bump is 255. -/
def pda (s : HookSeeds) : Pubkey := hash (pdaPreimage (s.toList ++ [[255]]) programId)

theorem find_eq (s : HookSeeds) : chain.find s = some (pda s, 255) := by
  have hlength : ∀ seed ∈ s.toList ++ [[255]], seed.length ≤ 32 := by
    cases s <;> simp [HookSeeds.toList, Pubkey.length_bytes] <;> decide
  have hcreate : chain.createProgramAddress (s.toList ++ [[255]]) programId = some (pda s) := by
    unfold Host.createProgramAddress
    rw [if_neg]
    · rfl
    · rintro (hcount | ⟨seed, hseed, hlong⟩)
      · cases s <;> simp [HookSeeds.toList] at hcount
      · exact absurd hlong (Nat.not_lt.mpr (hlength seed hseed))
  exact Host.findBump_succ (n := 254)
    (f := fun b => chain.createProgramAddress (s.toList ++ [[b]]) programId) hcreate

def configKey : Pubkey := pda (.config mint)
def listKey : Pubkey := pda (.extraAccountMetas mint)
def entryKey : Pubkey := pda (.whitelist mint wallet)

theorem find_config : chain.find (.config mint) = some (configKey, 255) := find_eq _

theorem find_list : chain.find (.extraAccountMetas mint) = some (listKey, 255) := find_eq _

/-- The wallet's attestation under the rule; no account is there. -/
def attestationKey : Pubkey :=
  hash (pdaPreimage (TransferHook.attestationSeeds rule.credential rule.schema wallet ++ [[255]])
    rule.sasProgram)

/-! ### Calls and the states they lead to -/

def initializeConfigCall : Call :=
  ⟨.initializeConfig rule.credential rule.schema rule.sasProgram,
    [authority, configKey, mint, systemProgram], ⟨[authority], [authority, configKey]⟩⟩

def initializeListCall : Call :=
  ⟨.initializeExtraAccountMetaList, [authority, listKey, mint, configKey, systemProgram],
    ⟨[authority], [authority, listKey]⟩⟩

def addToWhitelistCall : Call :=
  ⟨.addToWhitelist wallet, [authority, configKey, entryKey, mint, systemProgram],
    ⟨[authority], [authority, entryKey]⟩⟩

def transferAuthorityCall : Call :=
  ⟨.transferAuthority, [authority, successor, configKey, mint, systemProgram],
    ⟨[authority], [authority, configKey]⟩⟩

def acceptAuthorityCall : Call :=
  ⟨.acceptAuthority, [successor, configKey, mint], ⟨[successor], [configKey]⟩⟩

/-- The accounts of the wallet's transfer. -/
def executeKeys : List Pubkey :=
  [source, mint, destination, wallet, listKey, configKey, rule.credential, rule.schema,
    rule.sasProgram, attestationKey, entryKey]

def transferHookCall : Call := ⟨.transferHook 25, executeKeys, ⟨[], []⟩⟩

/-- The ledger after a call, rolled back when it fails. -/
def after (c : Call) (l : Ledger) : Ledger := (c.process chain l).toOption.getD l

theorem process_after {c : Call} {l : Ledger} (h : (c.process chain l).isOk = true) :
    c.process chain l = .ok (after c l) := by
  obtain ⟨l', hl⟩ := exists_eq_ok h
  rw [after, hl]
  rfl

/-- Why a call fails. -/
def failure (c : Call) (l : Ledger) : Option ProgramError :=
  match c.process chain l with
  | .ok _ => none
  | .error e => some e

theorem process_failure {c : Call} {l : Ledger} {e : ProgramError} (h : failure c l = some e) :
    c.process chain l = .error e := by
  unfold failure at h
  cases hl : c.process chain l with
  | ok l' => simp [hl] at h
  | error e' => simpa [hl] using h

def configured : Ledger := after initializeConfigCall genesis
def published : Ledger := after initializeListCall configured
def listed : Ledger := after addToWhitelistCall published
def nominated : Ledger := after transferAuthorityCall configured
def accepted : Ledger := after acceptAuthorityCall nominated

/-- Somebody has sent the rent of an empty account to the list's address. -/
def prefunded : Ledger := configured.credit listKey 890880

/-- The holder's account when the wallet moves all of an allowance of 100. -/
def exhausted : TokenAccount := ⟨mint, holder, 900, none, 0⟩

def drained : Ledger := listed.set source (tokenAccount exhausted)

lemma calls_succeed :
    (initializeConfigCall.process chain genesis).isOk = true ∧
      (initializeListCall.process chain configured).isOk = true ∧
      (addToWhitelistCall.process chain published).isOk = true ∧
      (transferAuthorityCall.process chain configured).isOk = true ∧
      (acceptAuthorityCall.process chain nominated).isOk = true ∧
      (transferHookCall.process chain listed).isOk = true := by
  decide +kernel

theorem process_initializeConfig :
    initializeConfigCall.process chain genesis = .ok configured :=
  process_after calls_succeed.1

theorem process_initializeList : initializeListCall.process chain configured = .ok published :=
  process_after calls_succeed.2.1

theorem process_addToWhitelist : addToWhitelistCall.process chain published = .ok listed :=
  process_after calls_succeed.2.2.1

theorem process_transferAuthority :
    transferAuthorityCall.process chain configured = .ok nominated :=
  process_after calls_succeed.2.2.2.1

theorem process_acceptAuthority : acceptAuthorityCall.process chain nominated = .ok accepted :=
  process_after calls_succeed.2.2.2.2.1

theorem process_transferHook :
    transferHookCall.process chain listed = .ok (after transferHookCall listed) :=
  process_after calls_succeed.2.2.2.2.2

theorem mint_mem : mint ∈ keysInPlay.keys := ⟨2, rfl⟩

theorem wallet_mem : wallet ∈ keysInPlay.keys := ⟨3, rfl⟩

theorem admissible {c : Call} (hsigners : ∀ k ∈ c.privileges.signers, k.bytes[31]? ≠ some 0)
    (hwritable : ∀ k ∈ c.privileges.writable, k.bytes[0]? ≠ some 0) (hmint : c.mint = some mint)
    (hwallet : c.wallet = none ∨ c.wallet = some wallet) : c.Admissible keysInPlay where
  signers k hk := not_derived (hsigners k hk)
  reserved hk := hwritable _ hk rfl
  mint m hm := Option.some.inj (hmint.symm.trans hm) ▸ mint_mem
  wallet w hw := by
    rcases hwallet with hnone | hsome
    · rw [hnone] at hw
      cases hw
    · exact Option.some.inj (hsome.symm.trans hw) ▸ wallet_mem

theorem admissible_initializeConfig : initializeConfigCall.Admissible keysInPlay :=
  admissible (by decide) (by decide) rfl (.inl rfl)

theorem admissible_initializeList : initializeListCall.Admissible keysInPlay :=
  admissible (by decide) (by decide) rfl (.inl rfl)

set_option maxRecDepth 2000 in
theorem admissible_addToWhitelist : addToWhitelistCall.Admissible keysInPlay :=
  admissible (by decide) (by decide) rfl (.inr rfl)

theorem admissible_transferAuthority : transferAuthorityCall.Admissible keysInPlay :=
  admissible (by decide) (by decide) rfl (.inl rfl)

theorem admissible_acceptAuthority : acceptAuthorityCall.Admissible keysInPlay :=
  admissible (by decide) (by decide) rfl (.inl rfl)

theorem admissible_transferHook : transferHookCall.Admissible keysInPlay :=
  admissible (by decide) (by decide) rfl (.inr rfl)

theorem reaches_configured : Reaches (hookSystem keysInPlay)
    [(genesis, .invoked initializeConfigCall)] configured :=
  .step (.start fresh_genesis) (.invoked admissible_initializeConfig process_initializeConfig)

theorem reaches_published : Reaches (hookSystem keysInPlay)
    [(configured, .invoked initializeListCall), (genesis, .invoked initializeConfigCall)]
    published :=
  reaches_configured.step (.invoked admissible_initializeList process_initializeList)

theorem reaches_listed : Reaches (hookSystem keysInPlay)
    [(published, .invoked addToWhitelistCall), (configured, .invoked initializeListCall),
      (genesis, .invoked initializeConfigCall)] listed :=
  reaches_published.step (.invoked admissible_addToWhitelist process_addToWhitelist)

theorem reaches_nominated : Reaches (hookSystem keysInPlay)
    [(configured, .invoked transferAuthorityCall), (genesis, .invoked initializeConfigCall)]
    nominated :=
  reaches_configured.step (.invoked admissible_transferAuthority process_transferAuthority)

theorem reaches_accepted : Reaches (hookSystem keysInPlay)
    [(nominated, .invoked acceptAuthorityCall), (configured, .invoked transferAuthorityCall),
      (genesis, .invoked initializeConfigCall)] accepted :=
  reaches_nominated.step (.invoked admissible_acceptAuthority process_acceptAuthority)

/-- The config that the first call stores. -/
def firstConfig : HookConfig :=
  ⟨authority, rule.credential, rule.schema, rule.sasProgram, 255, Pubkey.default⟩

theorem reaches_prefunded : Reaches (hookSystem keysInPlay)
    [(configured, .donated listKey 890880), (genesis, .invoked initializeConfigCall)]
    prefunded :=
  reaches_configured.step (.donated configured listKey 890880)

/-- What the wallet's transfer reads. -/
lemma listed_eval :
    chain.hookConfig listed mint = some firstConfig ∧
      (listed.account listKey).owner = programId ∧
      chain.resolution.resolveList chain.toHost (listed.account listKey).data
        [source, mint, destination, wallet, listKey] = .ok executeKeys ∧
      chain.interfaceTokenAccount listed source = .ok debited ∧
      chain.interfaceTokenAccount listed destination = .ok credited ∧
      chain.interfaceMint listed mint = .ok ⟨some authority⟩ ∧
      chain.token.transferring (listed.account source).data = .ok true := by
  decide +kernel

lemma foreignWrite_source : keysInPlay.ForeignWrite listed source where
  not_owned h := by
    have howner : (listed.account source).owner ∈ chain.token.ids := by
      have hread := listed_eval.2.2.2.1
      unfold Deployment.interfaceTokenAccount Deployment.interfaceAccount at hread
      rw [require_bind_eq_ok, require_bind_eq_ok] at hread
      exact hread.2.1
    rw [h] at howner
    exact absurd howner (by decide)
  signed _ := not_derived (by decide)

theorem reaches_drained : Reaches (hookSystem keysInPlay)
    [(listed, .written source (tokenAccount exhausted)),
      (published, .invoked addToWhitelistCall), (configured, .invoked initializeListCall),
      (genesis, .invoked initializeConfigCall)] drained :=
  reaches_listed.step (.written foreignWrite_source _)

end LocalChain

end AlienIdTransferHook

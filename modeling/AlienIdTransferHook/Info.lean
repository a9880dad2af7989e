import AlienIdTransferHook.Clients

/-!
# What the admin client reports

`info` reads the two records of a mint without the program's checks: it takes any
account for the list, and any data with the right discriminator for the config. In a
reachable state the report is nevertheless the policy, but for a list address that
somebody has sent lamports to.
-/
namespace AlienIdTransferHook
open Solana History TransferPolicy

/-! ## The command -/

namespace AdminCli

/-- What `info` prints about the config and the list. -/
structure ConfigReport where
  authority : Pubkey
  /-- Printed as awaiting acceptance. -/
  pending : Option Pubkey
  credential : Pubkey
  schema : Pubkey
  sasProgram : Pubkey
  extraAccountMetaList : Pubkey
  /-- Whether the list is printed as "initialized". -/
  listInitialized : Bool
  deriving DecidableEq

/-- `config` is `none` where the status is "not initialized". -/
structure Report where
  mint : Pubkey
  configPda : Pubkey
  config : Option ConfigReport
  deriving DecidableEq

/-- `program.account::<T>`: the data of whatever account is there. -/
def fetchAccount (α : Type) [AnchorAccount α] (l : Ledger) (k : Pubkey) : Option α := do
  let account ← getAccountInfo l k
  (tryDeserialize α account.data).toOption

def handleInfo (d : Deployment) (l : Ledger) (mint : Pubkey) : Option Report := do
  let configAddress ← getConfigAddress d.toHost mint d.programId
  let extraAccountMetaListAddress ← getExtraAccountMetaListAddress d.toHost mint d.programId
  match fetchAccount HookConfig l configAddress.1 with
  | none => pure ⟨mint, configAddress.1, none⟩
  | some config =>
      let extraMetaExists := (getAccountInfo l extraAccountMetaListAddress.1).isSome
      pure ⟨mint, configAddress.1, some ⟨config.authority,
        if config.pendingAuthority ≠ Pubkey.default then some config.pendingAuthority else none,
        config.credential, config.schema, config.sasProgram, extraAccountMetaListAddress.1,
        extraMetaExists⟩⟩

end AdminCli

open AdminCli

variable {d : Deployment} {K : KeysInPlay d} {l : Ledger} {m k kc kl : Pubkey} {b bc bl : UInt8}

/-! ## The report -/

/-- The report that a policy calls for. -/
def reportOf (m kc kl : Pubkey) (listFunded : Bool) (p : Option (Policy Pubkey Rule)) : Report :=
  ⟨m, kc, p.map fun p => ⟨p.authority, p.pending, p.rule.credential, p.rule.schema,
    p.rule.sasProgram, kl, p.published || listFunded⟩⟩

lemma getAccountInfo_of_unallocated (hu : (l.account k).Unallocated) :
    (getAccountInfo l k).isSome = decide ((l.account k).lamports ≠ 0) := by
  unfold getAccountInfo
  split_ifs with habsent
  · simp [habsent]
  · have hne : (l.account k).lamports ≠ 0 := fun hzero => habsent (absent_of_unallocated hu hzero)
    simp [hne]

lemma getAccountInfo_of_owner (howner : (l.account k).owner = d.programId) :
    getAccountInfo l k = some (l.account k) :=
  if_neg (account_ne_of_owner howner)

/-- An address without data has no config. -/
lemma fetchAccount_of_unallocated (hu : (l.account k).Unallocated) :
    fetchAccount HookConfig l k = none := by
  unfold fetchAccount getAccountInfo
  split_ifs
  · rfl
  · change (tryDeserialize HookConfig (l.account k).data).toOption = none
    rw [hu.2]
    rfl

/-- Without checking who owns the account, the command finds the config the program finds. -/
lemma fetchAccount_eq_hookConfig (hinv : Inv K l) (hm : m ∈ K.keys)
    (hkc : d.find (.config m) = some (kc, bc)) :
    fetchAccount HookConfig l kc = d.hookConfig l m := by
  cases hconfig : d.hookConfig l m with
  | none => exact fetchAccount_of_unallocated ((hinv.hookConfig_eq_none hm hkc).mp hconfig)
  | some config =>
      have hc := hinv.configAt_of_find hm hconfig hkc
      rw [fetchAccount, getAccountInfo_of_owner hc.owner]
      change (tryDeserialize HookConfig (l.account kc).data).toOption = some config
      rw [hc.data, tryDeserialize_image]
      rfl

lemma listExists_eq (hinv : Inv K l) (hm : m ∈ K.keys)
    (hkl : d.find (.extraAccountMetas m) = some (kl, bl)) :
    (getAccountInfo l kl).isSome =
      (d.holds l (.extraAccountMetas m) || decide ((l.account kl).lamports ≠ 0)) := by
  rcases hinv.canonical (by simpa using hm) hkl with hu | ⟨howner, -⟩
  · rw [getAccountInfo_of_unallocated hu, holds_eq_false hkl hu, Bool.false_or]
  · rw [getAccountInfo_of_owner howner, (Deployment.holds_iff hkl).mpr howner]
    rfl

/-- In every reachable state `info` reports the policy of the mint. It calls the list
initialised as soon as there are lamports at its address. -/
theorem handleInfo_eq {h : List (Ledger × Event)} (hr : Reaches (hookSystem K) h l)
    (hm : m ∈ K.keys) (hkc : d.find (.config m) = some (kc, bc))
    (hkl : d.find (.extraAccountMetas m) = some (kl, bl)) :
    handleInfo d l m =
      some (reportOf m kc kl (decide ((l.account kl).lamports ≠ 0)) (policy K m l)) := by
  have hinv := inv_of_reaches hr
  have hconfigAddress : getConfigAddress d.toHost m d.programId = some (kc, bc) := hkc
  have hlistAddress : getExtraAccountMetaListAddress d.toHost m d.programId = some (kl, bl) :=
    hkl
  rw [handleInfo, hconfigAddress, hlistAddress]
  simp only [Option.bind_eq_bind, Option.bind_some, fetchAccount_eq_hookConfig hinv hm hkc,
    listExists_eq hinv hm hkl, policy, reportOf]
  cases d.hookConfig l m with
  | none => rfl
  | some config =>
      simp only [Option.map_some, policyOf, HookConfig.rule, nominee]
      split_ifs <;> simp_all

/-- The list of the local chain before it exists, with lamports at its address. -/
theorem handleInfo_eq_prefunded :
    handleInfo LocalChain.chain LocalChain.prefunded LocalChain.mint =
      some (reportOf LocalChain.mint LocalChain.configKey LocalChain.listKey
        (decide ((LocalChain.prefunded.account LocalChain.listKey).lamports ≠ 0))
        (policy LocalChain.keysInPlay LocalChain.mint LocalChain.prefunded)) :=
  handleInfo_eq LocalChain.reaches_prefunded LocalChain.mint_mem LocalChain.find_config
    LocalChain.find_list

end AlienIdTransferHook

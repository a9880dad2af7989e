import AlienIdTransferHook.Sdk
import AlienIdTransferHook.Runs

/-!
# The set-up script

`deploy/2_initialize_transfer_hook` as a program over the ledger. It initialises
the config and then the account list of a mint, each only where it finds no
account at the address. A donation makes an account.
-/
namespace AlienIdTransferHook
open Solana History

/-! ## The script -/

/-- `null` where there is no account. -/
def getAccountInfo (l : Ledger) (k : Pubkey) : Option Account :=
  if l.account k = ⟨0, systemProgram, []⟩ then none else some (l.account k)

/-- `sendAndConfirmTransaction`, signed and paid by `payer`; `none` where it throws. -/
def sendAndConfirm (d : Deployment) (payer : Pubkey) (l : Ledger) (ix : TransactionInstruction) :
    Option Ledger :=
  ((ix.paidBy payer).process d l).toOption

/-- Sends the instruction unless there is an account at `k` already. -/
def sendIfMissing (d : Deployment) (payer : Pubkey) (l : Ledger) (k : Pubkey)
    (ix : Option TransactionInstruction) : Option Ledger :=
  match getAccountInfo l k with
  | none => do
      let ix ← ix
      sendAndConfirm d payer l ix
  | some _ => some l

/-- `main`, with the keys it reads from the credential signer and the SAS program's id. -/
def setUp (d : Deployment) (payer walienMint credentialPda schemaPda sasProgramId : Pubkey)
    (l : Ledger) : Option Ledger := do
  let hookConfigPda ← TransferHookSdk.hookConfigPda d walienMint
  let extraAccountMetaListPda ← TransferHookSdk.extraAccountMetaListPda d walienMint
  let l ← sendIfMissing d payer l hookConfigPda.1
    (TransferHookSdk.initializeConfigIx d payer walienMint credentialPda schemaPda sasProgramId)
  sendIfMissing d payer l extraAccountMetaListPda.1
    (TransferHookSdk.initializeExtraAccountMetaListIx d payer walienMint)

/-! ## Its steps -/

variable {d : Deployment} {K : KeysInPlay d} {l l' : Ledger}
  {payer m kc kl k credential schema sasProgram : Pubkey} {bc b : UInt8}
  {ix : TransactionInstruction}

theorem getAccountInfo_eq_none : getAccountInfo l k = none ↔
    l.account k = ⟨0, systemProgram, []⟩ := by
  unfold getAccountInfo
  split_ifs with h <;> simp [h]

theorem sendAndConfirm_eq_some :
    sendAndConfirm d payer l ix = some l' ↔ (ix.paidBy payer).process d l = .ok l' :=
  Outcome.toOption_eq_some

/-- An unallocated address is missing unless lamports are there. -/
lemma absent_of_unallocated {a : Account} (hu : a.Unallocated) (hzero : a.lamports = 0) :
    a = ⟨0, systemProgram, []⟩ := by
  obtain ⟨lamports, owner, data⟩ := a
  obtain ⟨rfl, rfl⟩ : owner = systemProgram ∧ data = [] := hu
  obtain rfl : lamports = 0 := hzero
  rfl

/-- With an account there the step is skipped. -/
theorem sendIfMissing_skip (h : l.account k ≠ ⟨0, systemProgram, []⟩)
    (ix : Option TransactionInstruction) : sendIfMissing d payer l k ix = some l := by
  unfold sendIfMissing
  cases hinfo : getAccountInfo l k with
  | none => exact absurd (getAccountInfo_eq_none.mp hinfo) h
  | some a => rfl

/-- A finished step was skipped or has sent its instruction. -/
theorem sendIfMissing_cases {build : Option TransactionInstruction}
    (h : sendIfMissing d payer l k build = some l') :
    (l.account k ≠ ⟨0, systemProgram, []⟩ ∧ l' = l) ∨
      l.account k = ⟨0, systemProgram, []⟩ ∧
        ∃ ix, build = some ix ∧ (ix.paidBy payer).process d l = .ok l' := by
  unfold sendIfMissing at h
  cases hinfo : getAccountInfo l k with
  | none =>
      rw [hinfo] at h
      obtain ⟨ix, hix, hsent⟩ := Option.bind_eq_some_iff.mp h
      exact .inr ⟨getAccountInfo_eq_none.mp hinfo, ix, hix, sendAndConfirm_eq_some.mp hsent⟩
  | some a =>
      rw [hinfo] at h
      refine .inl ⟨fun habsent => ?_, (Option.some.inj h).symm⟩
      rw [getAccountInfo_eq_none.mpr habsent] at hinfo
      cases hinfo

theorem setUp_eq (hkc : d.find (.config m) = some (kc, bc))
    (hlist : d.find (.extraAccountMetas m) = some (kl, b)) :
    setUp d payer m credential schema sasProgram l =
      (sendIfMissing d payer l kc
        (TransferHookSdk.initializeConfigIx d payer m credential schema sasProgram)).bind
          fun l₁ => sendIfMissing d payer l₁ kl
            (TransferHookSdk.initializeExtraAccountMetaListIx d payer m) := by
  rw [setUp, TransferHookSdk.hookConfigPda, TransferHookSdk.extraAccountMetaListPda, hkc, hlist]
  rfl

/-- The system program never owns what the program has initialised. -/
lemma account_ne_of_owner (h : (l.account k).owner = d.programId) :
    l.account k ≠ ⟨0, systemProgram, []⟩ := by
  intro heq
  exact d.programId_ne (by rw [← h, heq])

/-- A payer that is no address of the program signs admissible calls. -/
lemma admissible_paidBy (hpayer : ¬ K.Derived payer)
    (hsigners : ∀ a ∈ ix.keys, a.isSigner = true → a.pubkey = payer)
    (hmint : (ix.paidBy payer).mint = some m) (hm : m ∈ K.keys)
    (hwallet : (ix.paidBy payer).wallet = none) : (ix.paidBy payer).Admissible K where
  signers := by
    intro k hk
    rcases TransactionInstruction.mem_signers_paidBy.mp hk with rfl | ⟨a, hmem, hs, rfl⟩
    · exact hpayer
    · exact hsigners a hmem hs ▸ hpayer
  reserved hk := (TransactionInstruction.mem_writable_paidBy.mp hk).2 rfl
  mint m' hm' := Option.some.inj (hmint.symm.trans hm') ▸ hm
  wallet := by simp [hwallet]

lemma admissible_initializeConfigIx (hpayer : ¬ K.Derived payer) (hm : m ∈ K.keys)
    (hkc : d.find (.config m) = some (kc, bc))
    (hix : TransferHookSdk.initializeConfigIx d payer m credential schema sasProgram = some ix) :
    (ix.paidBy payer).Admissible K := by
  rw [TransferHookSdk.initializeConfigIx_eq hkc] at hix
  obtain rfl := Option.some.inj hix
  exact admissible_paidBy hpayer (by simp) rfl hm rfl

lemma admissible_initializeExtraAccountMetaListIx (hpayer : ¬ K.Derived payer)
    (hm : m ∈ K.keys) (hkc : d.find (.config m) = some (kc, bc))
    (hlist : d.find (.extraAccountMetas m) = some (kl, b))
    (hix : TransferHookSdk.initializeExtraAccountMetaListIx d payer m = some ix) :
    (ix.paidBy payer).Admissible K := by
  rw [TransferHookSdk.initializeExtraAccountMetaListIx_eq hkc hlist] at hix
  obtain rfl := Option.some.inj hix
  exact admissible_paidBy hpayer (by simp) rfl hm rfl

/-- After the first step there is an account at the config's address, and the list's has
not changed. -/
lemma configStep (hinv : Inv K l) (hm : m ∈ K.keys) (hpayer : ¬ K.Derived payer)
    (hkc : d.find (.config m) = some (kc, bc))
    (hlist : d.find (.extraAccountMetas m) = some (kl, b))
    (h : sendIfMissing d payer l kc
      (TransferHookSdk.initializeConfigIx d payer m credential schema sasProgram) = some l') :
    Inv K l' ∧ l'.account kc ≠ ⟨0, systemProgram, []⟩ ∧ l'.account kl = l.account kl := by
  rcases sendIfMissing_cases h with ⟨hpresent, rfl⟩ | ⟨-, ix, hix, hprocess⟩
  · exact ⟨hinv, hpresent, rfl⟩
  have ha := admissible_initializeConfigIx (K := K) hpayer hm hkc hix
  have heffect := effect_of_process hinv ha hprocess
  rw [TransferHookSdk.initializeConfigIx_eq hkc] at hix
  obtain rfl := Option.some.inj hix
  have hother := heffect.account_eq ha (by simpa using hm) hlist
    (by simp [Call.writes, TransactionInstruction.paidBy, Call.mint])
  refine ⟨heffect.inv hinv ha, ?_, hother⟩
  cases heffect with
  | initializeConfig => exact account_ne_of_owner (d := d) (by simp [Ledger.opened])

/-- The second step, where it sends its instruction, leaves the list of the config. -/
lemma listStep (hinv : Inv K l) (hm : m ∈ K.keys) (hpayer : ¬ K.Derived payer)
    (hkc : d.find (.config m) = some (kc, bc))
    (hlist : d.find (.extraAccountMetas m) = some (kl, b))
    (h : sendIfMissing d payer l kl
      (TransferHookSdk.initializeExtraAccountMetaListIx d payer m) = some l') :
    l.account kl ≠ ⟨0, systemProgram, []⟩ ∧ l' = l ∨
      l.account kl = ⟨0, systemProgram, []⟩ ∧ Inv K l' ∧
        (l'.account kl).owner = d.programId ∧ l'.account kc = l.account kc := by
  refine (sendIfMissing_cases h).imp_right ?_
  rintro ⟨habsent, ix, hix, hprocess⟩
  have ha := admissible_initializeExtraAccountMetaListIx (K := K) hpayer hm hkc hlist hix
  have heffect := effect_of_process hinv ha hprocess
  rw [TransferHookSdk.initializeExtraAccountMetaListIx_eq hkc hlist] at hix
  obtain rfl := Option.some.inj hix
  have hother := heffect.account_eq ha (by simpa using hm) hkc
    (by simp [Call.writes, TransactionInstruction.paidBy, Call.mint])
  refine ⟨habsent, heffect.inv hinv ha, ?_, hother⟩
  cases heffect with
  | initializeExtraAccountMetaList => simp [Ledger.opened]

/-! ## A finished run -/

/-- The config exists and the list is initialised with its metas. -/
def SetUpComplete (d : Deployment) (l : Ledger) (m kl : Pubkey) : Prop :=
  ∃ config, d.hookConfig l m = some config ∧ (l.account kl).owner = d.programId ∧
    d.ListImage config (l.account kl).data

lemma setUpComplete_of_owner (hinv : Inv K l) (hm : m ∈ K.keys)
    (hlist : d.find (.extraAccountMetas m) = some (kl, b))
    (howner : (l.account kl).owner = d.programId) : SetUpComplete d l m kl := by
  rcases hinv.canonical (by simpa using hm) hlist with hu | ⟨-, config, hconfig, himage⟩
  · exact absurd (howner.symm.trans hu.1) d.programId_ne
  · exact ⟨config, hconfig, howner, himage⟩

/-- With accounts at both addresses the script sends nothing. -/
lemma setUp_idle (hkc : d.find (.config m) = some (kc, bc))
    (hlist : d.find (.extraAccountMetas m) = some (kl, b))
    (hconfig : l.account kc ≠ ⟨0, systemProgram, []⟩)
    (howner : (l.account kl).owner = d.programId) :
    setUp d payer m credential schema sasProgram l = some l := by
  rw [setUp_eq hkc hlist, sendIfMissing_skip hconfig, Option.bind_some,
    sendIfMissing_skip (account_ne_of_owner howner)]

/-- A run of the script that finishes leaves the mint set up, so that running it again
changes nothing, exactly when it did not start with donated lamports at the list's
address. -/
theorem setUp_complete_iff {h : List (Ledger × Event)} (hr : Reaches (hookSystem K) h l)
    (hm : m ∈ K.keys) (hpayer : ¬ K.Derived payer) (hkc : d.find (.config m) = some (kc, bc))
    (hlist : d.find (.extraAccountMetas m) = some (kl, b))
    (hrun : setUp d payer m credential schema sasProgram l = some l') :
    (SetUpComplete d l' m kl ∧
        setUp d payer m credential schema sasProgram l' = some l') ↔
      ¬ ((l.account kl).Unallocated ∧ (l.account kl).lamports ≠ 0) := by
  rw [setUp_eq hkc hlist] at hrun
  obtain ⟨l₁, hfirst, hsecond⟩ := Option.bind_eq_some_iff.mp hrun
  obtain ⟨hinv, hconfig, hsame⟩ := configStep (inv_of_reaches hr) hm hpayer hkc hlist hfirst
  rw [← hsame]
  rcases listStep hinv hm hpayer hkc hlist hsecond with
    ⟨hpresent, rfl⟩ | ⟨habsent, hinv', howner, hkept⟩
  · -- the script found an account, which is the list or a donation
    rcases hinv.canonical (by simpa using hm) hlist with hu | ⟨howner, -⟩
    · refine iff_of_false ?_ ?_
      · rintro ⟨⟨config, -, howner, -⟩, -⟩
        exact d.programId_ne (howner.symm.trans hu.1)
      · rw [not_not]
        exact ⟨hu, fun hzero => hpresent (absent_of_unallocated hu hzero)⟩
    · refine iff_of_true ⟨setUpComplete_of_owner hinv hm hlist howner,
        setUp_idle hkc hlist hconfig howner⟩ ?_
      rintro ⟨hu, -⟩
      exact d.programId_ne (howner.symm.trans hu.1)
  · refine iff_of_true ⟨setUpComplete_of_owner hinv' hm hlist howner,
      setUp_idle hkc hlist (by rwa [hkept]) howner⟩ ?_
    rintro ⟨-, hlamports⟩
    exact hlamports (by rw [habsent])

namespace LocalChain

/-- The script for the local mint, run by its mint authority. -/
def script (l : Ledger) : Option Ledger :=
  setUp chain authority mint rule.credential rule.schema rule.sasProgram l

def installed : Ledger := (script genesis).getD genesis

/-- Somebody has sent lamports to the list's address before anything else. -/
def donated : Ledger := genesis.credit listKey 890880

def halfInstalled : Ledger := (script donated).getD donated

lemma script_eval :
    (script genesis).isSome ∧ (script donated).isSome ∧
      chain.interfaceMint donated mint = .ok ⟨some authority⟩ ∧
      chain.hookConfig donated mint = none ∧
      (halfInstalled.account listKey).owner ≠ chain.programId := by
  decide +kernel

theorem script_genesis : script genesis = some installed := by
  obtain ⟨l, hl⟩ := Option.isSome_iff_exists.mp script_eval.1
  simp [installed, hl]

theorem script_donated : script donated = some halfInstalled := by
  obtain ⟨l, hl⟩ := Option.isSome_iff_exists.mp script_eval.2.1
  simp [halfInstalled, hl]

theorem reaches_donated :
    Reaches (hookSystem keysInPlay) [(genesis, .donated listKey 890880)] donated :=
  .step (.start fresh_genesis) (.donated genesis listKey 890880)

end LocalChain

/-- From a clean chain the script sets the local mint up. -/
theorem setUp_complete_iff_genesis :
    (SetUpComplete LocalChain.chain LocalChain.installed LocalChain.mint LocalChain.listKey ∧
        setUp LocalChain.chain LocalChain.authority LocalChain.mint LocalChain.rule.credential
          LocalChain.rule.schema LocalChain.rule.sasProgram LocalChain.installed =
            some LocalChain.installed) ↔
      ¬ ((LocalChain.genesis.account LocalChain.listKey).Unallocated ∧
        (LocalChain.genesis.account LocalChain.listKey).lamports ≠ 0) :=
  setUp_complete_iff (.start LocalChain.fresh_genesis) LocalChain.mint_mem
    (LocalChain.not_derived (k := LocalChain.authority) (by decide)) LocalChain.find_config
    LocalChain.find_list LocalChain.script_genesis

/-- After a donation to the list's address the script finishes without the list. -/
theorem setUp_incomplete :
    ∃ h, Reaches (hookSystem LocalChain.keysInPlay) h LocalChain.donated ∧
      LocalChain.chain.interfaceMint LocalChain.donated LocalChain.mint =
        .ok ⟨some LocalChain.authority⟩ ∧
      LocalChain.chain.hookConfig LocalChain.donated LocalChain.mint = none ∧
      LocalChain.chain.find (.extraAccountMetas LocalChain.mint) =
        some (LocalChain.listKey, 255) ∧
      setUp LocalChain.chain LocalChain.authority LocalChain.mint LocalChain.rule.credential
        LocalChain.rule.schema LocalChain.rule.sasProgram LocalChain.donated =
          some LocalChain.halfInstalled ∧
      ¬ SetUpComplete LocalChain.chain LocalChain.halfInstalled LocalChain.mint
        LocalChain.listKey := by
  obtain ⟨-, -, hmint, hconfig, howner⟩ := LocalChain.script_eval
  refine ⟨_, LocalChain.reaches_donated, hmint, hconfig, LocalChain.find_list,
    LocalChain.script_donated, ?_⟩
  rintro ⟨config, -, hlist, -⟩
  exact howner hlist

end AlienIdTransferHook

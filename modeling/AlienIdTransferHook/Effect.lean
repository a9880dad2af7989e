import AlienIdTransferHook.Invariant

/-!
# What a step does

In a state with the invariant, the whole effect of each successful instruction:
who signed, which record was read and the ledger afterwards. Everything about
runs is proved from this relation, without the handlers.
-/
namespace AlienIdTransferHook
open Solana

variable {d : Deployment}

inductive Effect (K : KeysInPlay d) (l : Ledger) : Call → Ledger → Prop
  | initializeConfig {p : Privileges} {a k m : Pubkey} {rest : List Pubkey}
      {credential schema sasProgram : Pubkey} {b : UInt8} {n lamports : ℕ} {mint : Mint}
      (hm : m ∈ K.keys) (hfind : d.find (.config m) = some (k, b))
      (hu : (l.account k).Unallocated) (hsigned : a ∈ p.signers) (hne : a ≠ Pubkey.default)
      (hmint : d.interfaceMint l m = .ok mint) (hauthority : mint.mintAuthority = some a) :
      Effect K l ⟨.initializeConfig credential schema sasProgram, a :: k :: m :: rest, p⟩
        (l.opened a k n ⟨lamports, d.programId,
          image (HookConfig.mk a credential schema sasProgram b Pubkey.default)⟩)
  | updateConfig {p : Privileges} {k m kl : Pubkey} {rest : List Pubkey}
      {credential schema sasProgram : Pubkey} {c : HookConfig} {b : UInt8}
      {metas : List ExtraAccountMeta} (hc : ConfigAt K l m k c)
      (hsigned : c.authority ∈ p.signers)
      (hlist : d.find (.extraAccountMetas m) = some (kl, b))
      (howner : (l.account kl).owner = d.programId)
      (hmetas : UpdateConfig.accountMetas d.resolution credential schema sasProgram =
        .ok metas) :
      Effect K l ⟨.updateConfig credential schema sasProgram,
          c.authority :: k :: m :: kl :: rest, p⟩
        ((l.set kl { l.account kl with data := d.resolution.executeEntry metas }).set k
          { l.account k with data := image { c with
            credential := credential, schema := schema, sasProgram := sasProgram } })
  | initializeExtraAccountMetaList {p : Privileges} {k m kl : Pubkey} {rest : List Pubkey}
      {c : HookConfig} {b : UInt8} {n lamports : ℕ} {metas : List ExtraAccountMeta}
      (hc : ConfigAt K l m k c) (hsigned : c.authority ∈ p.signers)
      (hlist : d.find (.extraAccountMetas m) = some (kl, b))
      (hu : (l.account kl).Unallocated)
      (hmetas : InitializeExtraAccountMetaList.accountMetas d.resolution c = .ok metas) :
      Effect K l ⟨.initializeExtraAccountMetaList, c.authority :: kl :: m :: k :: rest, p⟩
        (l.opened c.authority kl n ⟨lamports, d.programId, d.resolution.executeEntry metas⟩)
  | transferAuthority {p : Privileges} {k m a : Pubkey} {rest : List Pubkey}
      {c : HookConfig} (hc : ConfigAt K l m k c) (hsigned : c.authority ∈ p.signers) :
      Effect K l ⟨.transferAuthority, c.authority :: a :: k :: m :: rest, p⟩
        (l.set k { l.account k with data := image { c with pendingAuthority := a } })
  | acceptAuthority {p : Privileges} {k m : Pubkey} {rest : List Pubkey} {c : HookConfig}
      (hc : ConfigAt K l m k c) (hsigned : c.pendingAuthority ∈ p.signers)
      (hne : c.pendingAuthority ≠ Pubkey.default) :
      Effect K l ⟨.acceptAuthority, c.pendingAuthority :: k :: m :: rest, p⟩
        (l.set k { l.account k with data := image { c with
          authority := c.pendingAuthority, pendingAuthority := Pubkey.default } })
  | addToWhitelist {p : Privileges} {k m ke w : Pubkey} {rest : List Pubkey}
      {c : HookConfig} {b : UInt8} {n lamports : ℕ} (hc : ConfigAt K l m k c)
      (hsigned : c.authority ∈ p.signers) (hw : w ∈ K.keys)
      (hentry : d.find (.whitelist m w) = some (ke, b)) (hu : (l.account ke).Unallocated) :
      Effect K l ⟨.addToWhitelist w, c.authority :: k :: ke :: m :: rest, p⟩
        (l.opened c.authority ke n
          ⟨lamports, d.programId, image (WhitelistEntry.mk w b)⟩)
  | removeFromWhitelist {p : Privileges} {k m ke w : Pubkey} {rest : List Pubkey}
      {c : HookConfig} {b : UInt8} (hc : ConfigAt K l m k c)
      (hsigned : c.authority ∈ p.signers) (hw : w ∈ K.keys)
      (hentry : d.find (.whitelist m w) = some (ke, b))
      (howner : (l.account ke).owner = d.programId) :
      Effect K l ⟨.removeFromWhitelist w, c.authority :: k :: ke :: m :: rest, p⟩
        (closeAccount l ke c.authority)
  | transferHook {p : Privileges} {keys : List Pubkey} {amount : ℕ}
      (h : AlienIdTransferHook.transferHook d l keys amount = .ok ()) :
      Effect K l ⟨.transferHook amount, keys, p⟩ l

/-! ## From the handlers to their effects -/

variable {K : KeysInPlay d} {l l' : Ledger} {p : Privileges} {keys : List Pubkey}

lemma ConfigAt.exitAccount {m k : Pubkey} {c : HookConfig} (hc : ConfigAt K l m k c)
    {l₁ : Ledger} (h : (l₁.account k).data.length = (l.account k).data.length)
    (c' : HookConfig) :
    Solana.exitAccount l₁ k c' =
      .ok (l₁.set k { l₁.account k with data := image c' }) :=
  exitAccount_of_size (h.trans hc.length_data)

lemma ConfigAt.realloc {m k : Pubkey} {c : HookConfig} (hc : ConfigAt K l m k c)
    (payer : Pubkey) : reallocConstraint d.toHost p l payer k HookConfig.LEN = .ok l := by
  simp [reallocConstraint, hc.length_data]

/-- The list that `initialize_extra_account_meta_list` leaves behind is a new account:
over an existing list the library refuses a second `Execute` entry. -/
lemma createIfEmpty_effect {a : InitializeExtraAccountMetaList} {metas : List ExtraAccountMeta}
    {bump : UInt8} {l₁ : Ledger} {data : List UInt8} (hinv : Inv K l) (hm : a.mint ∈ K.keys)
    (hne : a.payer ≠ a.extraAccountMetaList) (hlen : metas.length = 6)
    (hlist : d.find (.extraAccountMetas a.mint) = some (a.extraAccountMetaList, bump))
    (hcreate : a.createIfEmpty d p l bump (d.resolution.executeEntry metas).length = .ok l₁)
    (hinit : d.resolution.init (l₁.account a.extraAccountMetaList).data metas = .ok data) :
    (l.account a.extraAccountMetaList).Unallocated ∧
      data = d.resolution.executeEntry metas ∧ ∃ n lamports, l₁ =
        l.opened a.payer a.extraAccountMetaList n ⟨lamports, d.programId,
          List.replicate (d.resolution.executeEntry metas).length 0⟩ := by
  unfold InitializeExtraAccountMetaList.createIfEmpty at hcreate
  split_ifs at hcreate with hempty
  · obtain ⟨-, hu, -, -, -, rfl⟩ := (createAccount_eq_ok hne).mp hcreate
    simp only [Ledger.opened, Ledger.account_set_self] at hinit
    rw [d.resolution.init_zeroed metas (by omega)] at hinit
    exact ⟨hu, (Except.ok.inj hinit).symm, _, _, rfl⟩
  · obtain rfl := Except.ok.inj hcreate
    rcases hinv.canonical (by simpa using hm) hlist with hu | ⟨-, c, -, metas', hmetas', hdata⟩
    · exact absurd hu.2 hempty
    · have hlen' := InitializeExtraAccountMetaList.length_accountMetas hmetas'
      obtain ⟨e, he⟩ := d.resolution.init_repeated metas' metas (by omega)
      rw [hdata, he] at hinit
      cases hinit

lemma initializeConfig_effect {credential schema sasProgram : Pubkey}
    (ha : Call.Admissible K ⟨.initializeConfig credential schema sasProgram, keys, p⟩)
    (h : AlienIdTransferHook.initializeConfig d p l keys credential schema sasProgram =
      .ok l') :
    Effect K l ⟨.initializeConfig credential schema sasProgram, keys, p⟩ l' := by
  obtain ⟨a, b, mint, n, lamports, hkeys, hsigned, hwritable, hmint, hauthority, hfind, hu,
    rfl⟩ := initializeConfig_ok (fun m hm => ha.unsigned (by simpa using ha.mint m hm)) h
  obtain ⟨rest, rfl⟩ := InitializeConfig.ofKeys_eq_ok hkeys
  refine .initializeConfig (ha.mint _ rfl) hfind hu hsigned ?_ hmint hauthority
  rintro heq
  exact ha.reserved (heq ▸ hwritable)

lemma updateConfig_effect {credential schema sasProgram : Pubkey} (hinv : Inv K l)
    (ha : Call.Admissible K ⟨.updateConfig credential schema sasProgram, keys, p⟩)
    (h : AlienIdTransferHook.updateConfig d p l keys credential schema sasProgram = .ok l') :
    Effect K l ⟨.updateConfig credential schema sasProgram, keys, p⟩ l' := by
  obtain ⟨⟨authority, k, m, kl⟩, c, b, metas, data, hkeys, hsigned, hload, rfl, hcreate, hlist,
    hmetas, hinit, hexit⟩ := updateConfig_ok h
  obtain ⟨rest, rfl⟩ := UpdateConfig.ofKeys_eq_ok hkeys
  have hm : m ∈ K.keys := ha.mint _ rfl
  have hc := hinv.configAt hm hload hcreate
  have hkl : k ≠ kl := hc.ne_list hlist
  have hlen : metas.length = 6 := UpdateConfig.length_accountMetas hmetas
  rw [hc.exitAccount (by rw [Ledger.account_set_of_ne _ _ hkl])] at hexit
  rcases hinv.canonical (by simpa using hm) hlist with hu | ⟨howner, c', -, metas', hmetas',
    hdata⟩
  · -- an empty account has no room for the entry
    obtain ⟨e, he⟩ := d.resolution.init_empty metas
    simp only [hu.2, List.length_nil, List.replicate_zero, he] at hinit
    cases hinit
  · have hsize : (l.account kl).data.length = (d.resolution.executeEntry metas).length := by
      have hlen' := InitializeExtraAccountMetaList.length_accountMetas hmetas'
      have hold := d.resolution.sizeOf_executeEntry metas' (by omega)
      have hnew := d.resolution.sizeOf_executeEntry metas (by omega)
      rw [hdata]
      exact Except.ok.inj (hold.symm.trans (by rw [hlen', ← hlen, hnew]))
    simp only [hsize] at hinit
    rw [d.resolution.init_zeroed metas (by omega)] at hinit
    obtain rfl := Except.ok.inj hinit
    obtain rfl := Except.ok.inj hexit
    rw [Ledger.account_set_of_ne _ _ hkl]
    exact .updateConfig hc hsigned hlist howner hmetas

lemma initializeExtraAccountMetaList_effect (hinv : Inv K l)
    (ha : Call.Admissible K ⟨.initializeExtraAccountMetaList, keys, p⟩)
    (h : AlienIdTransferHook.initializeExtraAccountMetaList d p l keys = .ok l') :
    Effect K l ⟨.initializeExtraAccountMetaList, keys, p⟩ l' := by
  obtain ⟨⟨payer, kl, m, k, system⟩, c, b, metas, size, l₁, data, hkeys, hsigned, hload, rfl,
    hcreate, hlist, hmetas, hsize, hcreated, hinit, rfl⟩ := initializeExtraAccountMetaList_ok h
  obtain ⟨rest, rfl⟩ := InitializeExtraAccountMetaList.ofKeys_eq_ok hkeys
  have hm : m ∈ K.keys := ha.mint _ rfl
  have hne : c.authority ≠ kl := (ha.unsigned (by simpa using hm)).ne hlist hsigned
  have hlen : metas.length = 6 := InitializeExtraAccountMetaList.length_accountMetas hmetas
  rw [d.resolution.sizeOf_executeEntry metas (by omega)] at hsize
  obtain rfl := Except.ok.inj hsize
  obtain ⟨hu, rfl, n, lamports, rfl⟩ :=
    createIfEmpty_effect hinv hm hne hlen hlist hcreated hinit
  have heffect : Effect K l
      ⟨.initializeExtraAccountMetaList, c.authority :: kl :: m :: k :: system :: rest, p⟩
      (l.opened c.authority kl n ⟨lamports, d.programId, d.resolution.executeEntry metas⟩) :=
    .initializeExtraAccountMetaList (hinv.configAt hm hload hcreate) hsigned hlist hu hmetas
  simpa [Ledger.opened] using heffect

lemma transferAuthority_effect (hinv : Inv K l)
    (ha : Call.Admissible K ⟨.transferAuthority, keys, p⟩)
    (h : AlienIdTransferHook.transferAuthority d p l keys = .ok l') :
    Effect K l ⟨.transferAuthority, keys, p⟩ l' := by
  obtain ⟨⟨authority, a, k, m, system⟩, c, l₁, hkeys, hsigned, hload, rfl, hcreate, hrealloc,
    hexit⟩ := transferAuthority_ok h
  obtain ⟨rest, rfl⟩ := TransferAuthority.ofKeys_eq_ok hkeys
  have hc := hinv.configAt (ha.mint _ rfl) hload hcreate
  rw [hc.realloc] at hrealloc
  obtain rfl := Except.ok.inj hrealloc
  rw [hc.exitAccount rfl] at hexit
  obtain rfl := Except.ok.inj hexit
  exact .transferAuthority hc hsigned

lemma acceptAuthority_effect (hinv : Inv K l)
    (ha : Call.Admissible K ⟨.acceptAuthority, keys, p⟩)
    (h : AlienIdTransferHook.acceptAuthority d p l keys = .ok l') :
    Effect K l ⟨.acceptAuthority, keys, p⟩ l' := by
  obtain ⟨⟨pending, k, m⟩, c, hkeys, hsigned, hload, rfl, hne, hcreate, hexit⟩ :=
    acceptAuthority_ok h
  obtain ⟨rest, rfl⟩ := AcceptAuthority.ofKeys_eq_ok hkeys
  have hc := hinv.configAt (ha.mint _ rfl) hload hcreate
  rw [hc.exitAccount rfl] at hexit
  obtain rfl := Except.ok.inj hexit
  exact .acceptAuthority hc hsigned hne

lemma addToWhitelist_effect {w : Pubkey} (hinv : Inv K l)
    (ha : Call.Admissible K ⟨.addToWhitelist w, keys, p⟩)
    (h : AlienIdTransferHook.addToWhitelist d p l keys w = .ok l') :
    Effect K l ⟨.addToWhitelist w, keys, p⟩ l' := by
  obtain ⟨⟨authority, k, ke, m, system⟩, c, b, n, lamports, hkeys, hsigned, rfl, hcreate, hentry,
    hload, hu, rfl⟩ := addToWhitelist_ok
      (fun m hm => ha.unsigned (by simp [ha.mint m hm, ha.wallet w rfl])) h
  obtain ⟨rest, rfl⟩ := AddToWhitelist.ofKeys_eq_ok hkeys
  exact .addToWhitelist (hinv.configAt (ha.mint _ rfl) hload hcreate) hsigned (ha.wallet _ rfl)
    hentry hu

lemma removeFromWhitelist_effect {w : Pubkey} (hinv : Inv K l)
    (ha : Call.Admissible K ⟨.removeFromWhitelist w, keys, p⟩)
    (h : AlienIdTransferHook.removeFromWhitelist d p l keys w = .ok l') :
    Effect K l ⟨.removeFromWhitelist w, keys, p⟩ l' := by
  obtain ⟨⟨authority, k, ke, m, system⟩, c, e, hkeys, hsigned, rfl, hcreate, hcreate', hload,
    hentry, -, rfl⟩ := removeFromWhitelist_ok h
  obtain ⟨rest, rfl⟩ := RemoveFromWhitelist.ofKeys_eq_ok hkeys
  have hm : m ∈ K.keys := ha.mint _ rfl
  have hw : w ∈ K.keys := ha.wallet _ rfl
  exact .removeFromWhitelist (hinv.configAt hm hload hcreate) hsigned hw
    (hinv.entryAt hm hw hentry hcreate') (loadAccount_eq_ok.mp hentry).1

/-- Every successful call of an instruction has its effect, and no other. -/
theorem effect_of_process {c : Call} (hinv : Inv K l) (ha : c.Admissible K)
    (h : c.process d l = .ok l') : Effect K l c l' := by
  obtain ⟨instruction, keys, p⟩ := c
  obtain ⟨l₁, hrun, hcommit⟩ := bind_eq_ok.mp h
  obtain ⟨-, rfl⟩ := commit_eq_ok.mp hcommit
  cases instruction with
  | initializeConfig credential schema sasProgram => exact initializeConfig_effect ha hrun
  | updateConfig credential schema sasProgram => exact updateConfig_effect hinv ha hrun
  | addToWhitelist w => exact addToWhitelist_effect hinv ha hrun
  | removeFromWhitelist w => exact removeFromWhitelist_effect hinv ha hrun
  | transferAuthority => exact transferAuthority_effect hinv ha hrun
  | acceptAuthority => exact acceptAuthority_effect hinv ha hrun
  | initializeExtraAccountMetaList =>
      exact initializeExtraAccountMetaList_effect hinv ha hrun
  | transferHook amount =>
      obtain ⟨⟨⟩, hhook, hl⟩ := bind_eq_ok.mp hrun
      obtain rfl := pure_eq_ok.mp hl
      exact .transferHook hhook

end AlienIdTransferHook

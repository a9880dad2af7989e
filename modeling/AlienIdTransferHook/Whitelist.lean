import AlienIdTransferHook.Runs

/-!
# The whitelist

An entry exists exactly while the newest whitelist instruction for its mint and
wallet is an addition, whatever was sent to its address meanwhile.
-/
namespace AlienIdTransferHook
open Solana History TransferPolicy

variable {d : Deployment} {K : KeysInPlay d} {l l' : Ledger} {m w k kc : Pubkey} {b : UInt8}
  {config : HookConfig} {c : Call}

/-- The newest whitelist instruction for `m` and `w` in a history added the wallet, and
the authority of that moment signed it. -/
def Listed (d : Deployment) (m w : Pubkey) (h : List (Ledger × Event)) : Prop :=
  ∃ newer l₀ c older, h = newer ++ (l₀, .invoked c) :: older ∧ c.mint = some m ∧
    c.instruction = .addToWhitelist w ∧
    (∃ config, d.hookConfig l₀ m = some config ∧ config.authority ∈ c.privileges.signers) ∧
    ∀ e ∈ newer, ¬ e.2.For m (Instruction.OnWallet w)

lemma holds_iff_exempt (hm : m ∈ K.keys) (hw : w ∈ K.keys) (hinv : Inv K l) :
    d.holds l (.whitelist m w) = true ↔ ∃ p, policy K m l = some p ∧ w ∈ p.exempt := by
  constructor
  · intro hholds
    cases hc : d.hookConfig l m with
    | none =>
        rw [hinv.holds_of_no_config (s := .whitelist m w) (by simp [hm, hw]) (by simp) hc] at hholds
        cases hholds
    | some config => exact ⟨policyOf K m l config, by simp [policy, hc], hw, hholds⟩
  · rintro ⟨p, hp, hexempt⟩
    obtain ⟨config, -, rfl⟩ := hookConfig_of_policy hp
    exact hexempt.2

/-- The program owns the entry's address exactly while the wallet is listed. -/
theorem holds_iff_listed (hm : m ∈ K.keys) (hw : w ∈ K.keys) {h : List (Ledger × Event)}
    (hr : Reaches (hookSystem K) h l) :
    d.holds l (.whitelist m w) = true ↔ Listed d m w h := by
  rw [holds_iff_exempt hm hw (inv_of_reaches hr), exempt_iff (policy_reaches hm hr)]
  constructor
  · rintro ⟨newer, q, older, himage, hnewer⟩
    obtain ⟨hnew, l₀, c, hold, rfl, hop, -, -, ⟨l₁, heffect⟩, -, rfl, -⟩ :=
      exists_call hm hr himage
    obtain ⟨hi, -⟩ := Call.instruction_of_op hop
    have hmint := Call.mint_of_op hop
    obtain ⟨_, config, hc, -, hsigned⟩ := heffect.gated hmint (by rw [hi]; trivial)
    exact ⟨hnew, l₀, c, hold, rfl, hmint, hi, ⟨config, hc.hookConfig, hsigned⟩,
      not_for_of_image hm (fun _ => Call.op_onWallet) hnewer⟩
  · rintro ⟨newer, l₀, c, older, rfl, hmint, hi, ⟨config, hconfig, -⟩, hnewer⟩
    obtain ⟨op, hop, hwallet⟩ := Call.op_onWallet (w := w) hmint (by rw [hi]; rfl)
    obtain ⟨a, rfl⟩ : ∃ a, op = .exempt a w := by
      have hinstr := Call.instruction_of_op hop
      cases op with
      | exempt a w' => exact ⟨a, by rw [show w' = w from hwallet]⟩
      | _ => simp [hi] at hinstr
    obtain ⟨ha, hinv, l₁, heffect⟩ := exists_effect hr
    obtain ⟨q, hq, rfl⟩ : ∃ q, policy K m l₀ = some q ∧ a = q.authority := by
      have hstep := heffect.policy_step hinv ha hop
      generalize policy K m l₀ = s, policy K m l₁ = s' at hstep
      cases hstep
      exact ⟨_, rfl, rfl⟩
    have hlabel : (policySimulation K hm).label (.invoked c) = some (.exempt q.authority w) := hop
    refine ⟨(policySimulation K hm).image newer, q, (policySimulation K hm).image older, ?_,
      not_in_image hm (fun c op hop' honWallet => ?_) hnewer⟩
    · rw [Simulation.image_append, Simulation.image_cons _ hlabel, ← hq]
      rfl
    · have hinstr := Call.instruction_of_op hop'
      cases op with
      | exempt _ _ | revoke _ _ => rw [hinstr.1]; exact honWallet
      | _ => cases honWallet

/-- The hook skips the attestation only for a listed wallet. -/
theorem whitelist_skipped {a : TransferHook} (hm : a.mint ∈ K.keys)
    (hw : a.transferAuthority ∈ K.keys) {h : List (Ledger × Event)}
    (hr : Reaches (hookSystem K) h l) (hskip : a.whitelisted d l = .ok true) :
    Listed d a.mint a.transferAuthority h := by
  obtain ⟨howner, b, hfind⟩ := TransferHook.whitelisted_eq_true.mp hskip
  exact (holds_iff_listed hm hw hr).mp ((Deployment.holds_iff hfind).mpr howner)

/-! ## Adding a wallet -/

/-- `add_to_whitelist` as the admin client sends it, for an `m` that still reads as a mint:
the derived accounts in order, signed and paid by the config authority, who has the rent. -/
structure AddRequest (d : Deployment) (l : Ledger) (m w kc k : Pubkey) (config : HookConfig)
    (c : Call) : Prop where
  instruction : c.instruction = .addToWhitelist w
  accounts : ∃ rest, c.accounts = config.authority :: kc :: k :: m :: systemProgram :: rest
  entryWritable : k ∈ c.privileges.writable
  mint : ∃ mint, d.interfaceMint l m = .ok mint
  funded : Funded c.privileges l config.authority
    (max (d.minimumBalance WhitelistEntry.LEN) 1)

theorem AddRequest.mint_eq (h : AddRequest d l m w kc k config c) : c.mint = some m := by
  obtain ⟨rest, hkeys⟩ := h.accounts
  simp [Call.mint, h.instruction, hkeys]

/-- Into an unallocated address the wallet is added, whatever the address's balance. -/
lemma AddRequest.succeeds (h : AddRequest d l m w kc k config c) (hc : ConfigAt K l m kc config)
    (hne : config.authority ≠ k) (hfind : d.find (.whitelist m w) = some (k, b))
    (hu : (l.account k).Unallocated) : ∃ l', c.process d l = .ok l' := by
  obtain ⟨rest, hkeys⟩ := h.accounts
  obtain ⟨mint, hmint⟩ := h.mint
  obtain ⟨l₁, hinit⟩ := initConstraint_succeeds (H := d.toHost) hne hfind hu h.entryWritable
    h.funded
  obtain ⟨-, -, n, lamports, hl₁⟩ := initConstraint_ok hne hinit
  dsimp only at hl₁
  have htry : AddToWhitelist.tryAccounts d c.privileges l
      ⟨config.authority, kc, k, m, systemProgram⟩ w = .ok (l₁, b) := by
    unfold AddToWhitelist.tryAccounts
    rw [signer, require_pos h.funded.signer, ok_bind, hc.load, ok_bind, hmint, ok_bind,
      systemProgramAccount, require_pos rfl, ok_bind, hinit, ok_bind, mutable,
      require_pos h.funded.writable, ok_bind, seedsWithBump,
      require_pos (Deployment.create_of_find hc.find), ok_bind, require_pos rfl, ok_bind]
    rfl
  have hentry : tryDeserializeUnchecked WhitelistEntry (l₁.account k).data =
      .ok ⟨Pubkey.default, 0⟩ := by
    rw [← tryDeserializeUnchecked_zero_entry, hl₁]
    simp [Ledger.opened]
  have hexit : exitAccount l₁ k (WhitelistEntry.mk w b) =
      .ok (l.opened config.authority k n
        ⟨lamports, d.programId, image (WhitelistEntry.mk w b)⟩) := by
    rw [exitAccount_of_size (by rw [hl₁]; simp [Ledger.opened]; rfl), hl₁]
    simp [Ledger.opened]
  refine ⟨l.opened config.authority k n
    ⟨lamports, d.programId, image (WhitelistEntry.mk w b)⟩, ?_⟩
  obtain ⟨i, keys, p⟩ := c
  obtain rfl : i = .addToWhitelist w := h.instruction
  obtain rfl : keys = config.authority :: kc :: k :: m :: systemProgram :: rest := hkeys
  simp only [Call.process, Call.run, addToWhitelist, AddToWhitelist.ofKeys, ok_bind, htry,
    hentry, AddToWhitelist.handler, hexit]
  exact commit_opened h.funded.writable h.entryWritable

/-! ## The life of an entry -/

lemma not_listed_of_removed {newer older : List (Ledger × Event)} {l₀ : Ledger}
    (hi : c.instruction = .removeFromWhitelist w) (hmint : c.mint = some m)
    (hnewer : ∀ e ∈ newer, ¬ e.2.For m (· = .addToWhitelist w)) :
    ¬ Listed d m w (newer ++ (l₀, .invoked c) :: older) := by
  rintro ⟨newer', l₁, c₁, older', heq, hmint₁, hi₁, -, hnewer'⟩
  rcases entry_cases heq with hsame | hmem | hmem
  · obtain ⟨-, hc⟩ := Prod.mk.inj hsame
    rw [Event.invoked.inj hc, hi₁] at hi
    cases hi
  · exact hnewer' _ hmem ⟨hmint, by rw [hi]; rfl⟩
  · exact hnewer _ hmem ⟨hmint₁, hi₁⟩

/-- What a run guarantees about the entry of `m` and `w` in the state it ends in. -/
structure WhitelistExact (K : KeysInPlay d) (m w : Pubkey) (h : List (Ledger × Event))
    (l : Ledger) : Prop where
  owned_iff : ∀ k b, d.find (.whitelist m w) = some (k, b) →
    ((l.account k).owner = d.programId ↔ Listed d m w h)
  entry : ∀ k b, d.find (.whitelist m w) = some (k, b) → (l.account k).owner = d.programId →
    loadAccount WhitelistEntry d.toHost l k = .ok ⟨w, b⟩
  /-- The authority can add the wallet exactly when it is not listed. -/
  add_iff : ∀ (c : Call) (config : HookConfig) (kc k : Pubkey) (b bc : UInt8),
    d.hookConfig l m = some config → d.find (.config m) = some (kc, bc) →
    d.find (.whitelist m w) = some (k, b) → c.Admissible K →
    AddRequest d l m w kc k config c →
    ((∃ l', c.process d l = .ok l') ↔ ¬ Listed d m w h)
  /-- The hook skips the attestation only for a listed wallet. -/
  skipped : ∀ a : TransferHook, a.mint = m → a.transferAuthority = w →
    a.whitelisted d l = .ok true → Listed d m w h
  /-- After a removal it does not, until the wallet is added again. -/
  removed : ∀ (newer older : List (Ledger × Event)) (l₀ : Ledger) (c : Call),
    h = newer ++ (l₀, .invoked c) :: older → c.mint = some m →
    c.instruction = .removeFromWhitelist w →
    (∀ e ∈ newer, ¬ e.2.For m (· = .addToWhitelist w)) →
    ∀ a : TransferHook, a.mint = m → a.transferAuthority = w → a.whitelisted d l ≠ .ok true

/-- The whitelist lifecycle is exact in every reachable state: the entry stands for the last
add or removal, and as long as `m` reads as a mint the authority's add goes through exactly
when the wallet is not listed. -/
theorem whitelist_exact (hm : m ∈ K.keys) (hw : w ∈ K.keys) {h : List (Ledger × Event)}
    (hr : Reaches (hookSystem K) h l) : WhitelistExact K m w h l := by
  have hinv : Inv K l := inv_of_reaches hr
  have hs : K.Covers (.whitelist m w) := by simp [hm, hw]
  have howned : ∀ k b, d.find (.whitelist m w) = some (k, b) →
      ((l.account k).owner = d.programId ↔ Listed d m w h) := fun k b hfind => by
    rw [← holds_iff_listed hm hw hr, Deployment.holds_iff hfind]
  have hskipped : ∀ a : TransferHook, a.mint = m → a.transferAuthority = w →
      a.whitelisted d l = .ok true → Listed d m w h := by
    rintro a rfl rfl hskip
    exact whitelist_skipped hm hw hr hskip
  refine ⟨howned, ?_, ?_, hskipped, ?_⟩
  · intro k b hfind howner
    have hdata := (hinv.slot hs (Deployment.create_of_find hfind) howner).2.2
    exact loadAccount_eq_ok.mpr ⟨howner, by rw [hdata, tryDeserialize_image]⟩
  · intro c config kc k b bc hconfig hkc hfind ha hreq
    rw [← howned k b hfind, ← ne_eq, ← hinv.unallocated_iff hs hfind]
    constructor
    · rintro ⟨l', hok⟩
      cases effect_of_reaches hr ha hok with
      | addToWhitelist _ _ _ hentry hu =>
          obtain rfl := Option.some.inj hreq.mint_eq
          obtain rfl := Instruction.addToWhitelist.inj hreq.instruction
          obtain ⟨rfl, -⟩ := by simpa [hfind] using hentry
          exact hu
      | _ => cases hreq.instruction
    · intro hu
      have hc := hinv.configAt_of_find hm hconfig hkc
      have hne := (ha.unsigned (by simp [hm, hw])).ne hfind hreq.funded.signer
      exact hreq.succeeds hc hne hfind hu
  · rintro newer older l₀ c rfl hmint hi hnewer a ham haw hskip
    exact not_listed_of_removed hi hmint hnewer (hskipped a ham haw hskip)

/-- On the local chain the wallet has just been added. -/
theorem whitelist_exact_listed :
    WhitelistExact LocalChain.keysInPlay LocalChain.mint LocalChain.wallet
      [(LocalChain.published, .invoked LocalChain.addToWhitelistCall),
        (LocalChain.configured, .invoked LocalChain.initializeListCall),
        (LocalChain.genesis, .invoked LocalChain.initializeConfigCall)] LocalChain.listed :=
  whitelist_exact LocalChain.mint_mem LocalChain.wallet_mem LocalChain.reaches_listed

end AlienIdTransferHook

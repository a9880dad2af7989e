import AlienIdTransferHook.Runs

/-!
# Who may change what

The hand-over of a mint's authority over whole runs, and the isolation of mints:
what a call may change is decided by the authority of its own mint.
-/
namespace AlienIdTransferHook
open Solana History TransferPolicy

variable {d : Deployment} {K : KeysInPlay d} {l l' : Ledger} {m a : Pubkey} {c : Call}

/-- `initialize_config` for `m`, called by the key that was its mint authority. -/
structure Creation (d : Deployment) (m a : Pubkey) (l : Ledger) (c : Call) : Prop where
  mint : c.mint = some m
  instruction : ∃ credential schema sasProgram,
    c.instruction = .initializeConfig credential schema sasProgram
  caller : c.accounts.head? = some a
  signed : a ∈ c.privileges.signers
  mintAuthority : ∃ mint, d.interfaceMint l m = .ok mint ∧ mint.mintAuthority = some a

/-- `transfer_authority` for `m` naming `a`, signed by the authority of its time. -/
structure Nomination (d : Deployment) (m a : Pubkey) (l : Ledger) (c : Call) : Prop where
  mint : c.mint = some m
  instruction : c.instruction = .transferAuthority
  newAuthority : c.accounts[1]? = some a
  signed : ∃ config, d.hookConfig l m = some config ∧ config.authority ∈ c.privileges.signers

/-- `accept_authority` for `m`, called and signed by `a`. -/
structure Acceptance (m a : Pubkey) (c : Call) : Prop where
  mint : c.mint = some m
  instruction : c.instruction = .acceptAuthority
  caller : c.accounts.head? = some a
  signed : a ∈ c.privileges.signers

/-- The newest nomination in a history, not yet accepted. -/
def Nominated (d : Deployment) (m a : Pubkey) (h : List (Ledger × Event)) : Prop :=
  ∃ newer l₀ c older, h = newer ++ (l₀, .invoked c) :: older ∧ Nomination d m a l₀ c ∧
    ∀ e ∈ newer, ¬ e.2.For m Instruction.SetsPending

/-! ## Calls by their effects -/

lemma Effect.creation {r : Rule} (h : Effect K l c l') (hop : c.op m = some (.create a r)) :
    Creation d m a l c := by
  have hmint := Call.mint_of_op hop
  obtain ⟨hi, hcaller⟩ := Call.instruction_of_op hop
  cases h with
  | initializeConfig _ _ _ hsigned _ hok hauthority =>
      obtain rfl := Option.some.inj hcaller
      obtain rfl := Option.some.inj hmint
      exact ⟨hmint, ⟨_, _, _, rfl⟩, rfl, hsigned, _, hok, hauthority⟩
  | _ => cases hi

lemma Effect.nomination (h : Effect K l c l') {a₀ : Pubkey}
    (hop : c.op m = some (.nominate a₀ (some a))) : Nomination d m a l c := by
  have hmint := Call.mint_of_op hop
  obtain ⟨hi, -, k, hk, hnominee⟩ := Call.instruction_of_op hop
  obtain rfl : a = k := by
    unfold nominee at hnominee
    split_ifs at hnominee
    exact Option.some.inj hnominee
  cases h with
  | transferAuthority hc hsigned =>
      obtain rfl := Option.some.inj hmint
      exact ⟨hmint, rfl, hk, _, hc.hookConfig, hsigned⟩
  | _ => cases hi

lemma Effect.acceptance (h : Effect K l c l') (hmint : c.mint = some m)
    (hi : c.instruction = .acceptAuthority) :
    ∃ k config, ConfigAt K l m k config ∧ config.pendingAuthority ≠ Pubkey.default ∧
      Acceptance m config.pendingAuthority c ∧
      c.op m = some (.accept config.pendingAuthority) ∧
      l' = l.set k { l.account k with data := image { config with
        authority := config.pendingAuthority, pendingAuthority := Pubkey.default } } := by
  cases h with
  | acceptAuthority hc hsigned hne =>
      obtain rfl := Option.some.inj hmint
      exact ⟨_, _, hc, hne, ⟨hmint, rfl, rfl, hsigned⟩, if_pos hmint, rfl⟩
  | _ => cases hi

/-! ## The hand-over -/

/-- Where the authority of `m` comes from. -/
def AuthorityProvenance (d : Deployment) (m a : Pubkey) (h : List (Ledger × Event)) : Prop :=
  (∃ newer l₀ c older, h = newer ++ (l₀, .invoked c) :: older ∧ Creation d m a l₀ c ∧
    (∀ e ∈ newer, ¬ e.2.For m Instruction.SetsAuthority) ∧
    ∀ e ∈ older, ¬ e.2.For m Instruction.SetsAuthority) ∨
  ∃ newer l₁ c older, h = newer ++ (l₁, .invoked c) :: older ∧ Acceptance m a c ∧
    (∀ e ∈ newer, ¬ e.2.For m Instruction.SetsAuthority) ∧ Nominated d m a older

theorem nominated_of_pending {h : List (Ledger × Event)} (hm : m ∈ K.keys)
    (hr : Reaches (hookSystem K) h l) {p : Policy Pubkey Rule} (hp : policy K m l = some p)
    (ha : p.pending = some a) : Nominated d m a h := by
  have hreach := policy_reaches hm hr
  rw [hp] at hreach
  obtain ⟨newer, q, older, himage, hnewer⟩ := nominated hreach ha
  obtain ⟨hnew, l₀, c, hold, rfl, hop, -, -, ⟨l₁, heffect⟩, -, rfl, -⟩ :=
    exists_call hm hr himage
  exact ⟨hnew, l₀, c, hold, rfl, heffect.nomination hop,
    not_for_of_image hm (fun _ => Call.op_setsPending) hnewer⟩

theorem authorityProvenance {h : List (Ledger × Event)} (hm : m ∈ K.keys)
    (hr : Reaches (hookSystem K) h l) {config : HookConfig}
    (hc : d.hookConfig l m = some config) : AuthorityProvenance d m config.authority h := by
  have hreach := policy_reaches hm hr
  have hp : policy K m l = some (policyOf K m l config) := by simp [policy, hc]
  rw [hp] at hreach
  rcases authority_provenance hreach with ⟨newer, r, himage, hnewer⟩ |
    ⟨newer, q, mid, q₀, older, himage, hq, hnewer, -⟩
  · obtain ⟨hnew, l₀, c, hold, rfl, hop, -, -, ⟨l₁, heffect⟩, -, rfl, hold'⟩ :=
      exists_call hm hr himage
    exact .inl ⟨hnew, l₀, c, hold, rfl, heffect.creation hop,
      not_for_of_image hm (fun _ => Call.op_setsAuthority) hnewer,
      not_for_of_image hm (Q := Op.SetsAuthority) (fun _ => Call.op_setsAuthority)
        (by simp [hold'])⟩
  · obtain ⟨hnew, l₁, c, hold, rfl, hop, -, -, ⟨l₂, heffect⟩, hview, rfl, -⟩ :=
      exists_call hm hr himage
    obtain ⟨hi, hcaller⟩ := Call.instruction_of_op hop
    obtain ⟨k, config', hc', -, haccept, -, -⟩ :=
      heffect.acceptance (Call.mint_of_op hop) hi
    obtain heq : config'.pendingAuthority = config.authority :=
      Option.some.inj (haccept.caller.symm.trans hcaller)
    exact .inr ⟨hnew, l₁, c, hold, rfl, heq ▸ haccept,
      not_for_of_image hm (fun _ => Call.op_setsAuthority) hnewer,
      nominated_of_pending hm hr.cut.1 hview hq⟩

/-- Creation is the first operation on a mint's policy, so there is no second one. -/
theorem no_second_creation {h : List (Ledger × Event)} (hm : m ∈ K.keys)
    (hr : Reaches (hookSystem K) h l)
    (hcreated : ∃ e ∈ h, e.2.For m fun i => ∃ credential schema sasProgram,
      i = .initializeConfig credential schema sasProgram)
    (ha : c.Admissible K) (hmint : c.mint = some m) {credential schema sasProgram : Pubkey}
    (hi : c.instruction = .initializeConfig credential schema sasProgram) :
    c.process d l ≠ .ok l' := by
  intro hok
  obtain ⟨op, hop, -⟩ := Call.op_setsAuthority hmint (by rw [hi]; trivial)
  have hcreate : ∃ a r, op = .create a r := by
    have hinstr := Call.instruction_of_op hop
    cases op with
    | create a r => exact ⟨a, r, rfl⟩
    | _ => simp [hi] at hinstr
  obtain ⟨a, r, rfl⟩ := hcreate
  have hreach := policy_reaches hm (hr.step (.invoked ha hok))
  have hlabel : (policySimulation K hm).label (.invoked c) = some (.create a r) := hop
  rw [Simulation.image_cons _ hlabel] at hreach
  obtain ⟨-, hnil⟩ := create_first (show Reaches _ ([] ++ _ :: _) _ from hreach)
  -- the earlier creation would be an operation before this one
  have hnone := not_for_of_image hm (Q := Op.SetsAuthority) (fun _ => Call.op_setsAuthority)
    (h := h) (by simp [hnil])
  obtain ⟨⟨l₀, e⟩, hmem, hfor⟩ := hcreated
  refine hnone _ hmem ?_
  cases e with
  | invoked c₀ =>
      obtain ⟨hmint₀, _, _, _, hi₀⟩ := hfor
      exact ⟨hmint₀, by rw [hi₀]; trivial⟩
  | _ => exact hfor

/-- What a run guarantees about the authority of `m` in the state it ends in. -/
structure HandoverSafe (K : KeysInPlay d) (m : Pubkey) (h : List (Ledger × Event))
    (l : Ledger) : Prop where
  /-- The authority created the config or accepted the newest nomination. -/
  provenance : ∀ config, d.hookConfig l m = some config →
    AuthorityProvenance d m config.authority h
  /-- Only the pending key can accept: it signs, it is the newest nominee, no
  acceptance has come since, and it is the authority afterwards. -/
  accept : ∀ (c : Call) (l' : Ledger), c.Admissible K → c.mint = some m →
    c.instruction = .acceptAuthority → c.process d l = .ok l' →
    ∃ config config', d.hookConfig l m = some config ∧ d.hookConfig l' m = some config' ∧
      config.pendingAuthority ≠ Pubkey.default ∧
      Acceptance m config.pendingAuthority c ∧ Nominated d m config.pendingAuthority h ∧
      config'.authority = config.pendingAuthority ∧ config'.pendingAuthority = Pubkey.default
  nonzero : ∀ config, d.hookConfig l m = some config → config.authority ≠ Pubkey.default
  /-- There is no second creation. -/
  once : (∃ e ∈ h, e.2.For m fun i => ∃ credential schema sasProgram,
      i = .initializeConfig credential schema sasProgram) →
    ∀ (c : Call) (l' : Ledger), c.Admissible K → c.mint = some m →
      (∃ credential schema sasProgram,
        c.instruction = .initializeConfig credential schema sasProgram) →
      c.process d l ≠ .ok l'
  /-- Nobody but the present authority has its powers, so a replaced one has lost them. -/
  powers : ∀ (c : Call) (l' : Ledger), c.Admissible K → c.mint = some m →
    c.instruction.Gated → c.process d l = .ok l' →
    ∃ config, d.hookConfig l m = some config ∧
      c.accounts.head? = some config.authority ∧ config.authority ∈ c.privileges.signers

/-- Two-step hand-over is safe in every reachable state. -/
theorem handover_safe (hm : m ∈ K.keys) {h : List (Ledger × Event)}
    (hr : Reaches (hookSystem K) h l) : HandoverSafe K m h l where
  provenance config hc := authorityProvenance hm hr hc
  accept c l' ha hmint hi hok := by
    obtain ⟨k, config, hc, hne, haccept, -, rfl⟩ :=
      (effect_of_reaches hr ha hok).acceptance hmint hi
    have hc' := hc.rewritten { config with
      authority := config.pendingAuthority, pendingAuthority := Pubkey.default } rfl hne
      (Ledger.account_set_self l k _)
    exact ⟨config, _, hc.hookConfig, hc'.hookConfig, hne, haccept,
      nominated_of_pending hm hr hc.policy (nominee_of_ne hne), rfl, rfl⟩
  nonzero config hc := by
    obtain ⟨k, hc⟩ := (inv_of_reaches hr).exists_configAt hm hc
    exact hc.authority_ne
  once := by
    rintro hcreated c l' ha hmint ⟨credential, schema, sasProgram, hi⟩
    exact no_second_creation hm hr hcreated ha hmint hi
  powers c l' ha hmint hi hok := by
    obtain ⟨k, config, hc, hcaller, hsigned⟩ :=
      (effect_of_reaches hr ha hok).gated hmint hi
    exact ⟨config, hc.hookConfig, hcaller, hsigned⟩

/-- On the local chain the nominee has accepted. -/
theorem handover_safe_accepted :
    HandoverSafe LocalChain.keysInPlay LocalChain.mint
      [(LocalChain.nominated, .invoked LocalChain.acceptAuthorityCall),
        (LocalChain.configured, .invoked LocalChain.transferAuthorityCall),
        (LocalChain.genesis, .invoked LocalChain.initializeConfigCall)] LocalChain.accepted :=
  handover_safe LocalChain.mint_mem LocalChain.reaches_accepted

/-! ## Isolation -/

/-- Who may change the records of `m`, judged in the state before the call. -/
inductive Authorised (d : Deployment) (m : Pubkey) (l : Ledger) (c : Call) : Prop
  | creation (a : Pubkey) (hnone : d.hookConfig l m = none) (h : Creation d m a l c)
  | acceptance (config : HookConfig) (hconfig : d.hookConfig l m = some config)
      (h : Acceptance m config.pendingAuthority c)
  | authority (config : HookConfig) (hconfig : d.hookConfig l m = some config)
      (hsigned : config.authority ∈ c.privileges.signers)

lemma Effect.authorised (hinv : Inv K l) (h : Effect K l c l') {s : HookSeeds}
    (hs : s ∈ c.writes) : Authorised d s.mint l c := by
  have hmint := c.mint_of_mem_writes hs
  cases h with
  | initializeConfig hm hfind hu hsigned hne hok hauthority =>
      obtain heq := Option.some.inj hmint
      rw [← heq]
      exact .creation _ ((hinv.hookConfig_eq_none hm hfind).mpr hu)
        ⟨rfl, ⟨_, _, _, rfl⟩, rfl, hsigned, _, hok, hauthority⟩
  | acceptAuthority hc hsigned hne =>
      obtain heq := Option.some.inj hmint
      rw [← heq]
      exact .acceptance _ hc.hookConfig ⟨rfl, rfl, rfl, hsigned⟩
  | transferHook => cases hs
  | updateConfig hc hsigned | initializeExtraAccountMetaList hc hsigned
  | transferAuthority hc hsigned | addToWhitelist hc hsigned
  | removeFromWhitelist hc hsigned =>
      obtain heq := Option.some.inj hmint
      rw [← heq]
      exact .authority _ hc.hookConfig hsigned

/-- A call that changes a record of one mint is authorised for that mint, and changes
no record of any other. -/
theorem authorised_and_isolated {h : List (Ledger × Event)} (hr : Reaches (hookSystem K) h l)
    (ha : c.Admissible K) (hok : c.process d l = .ok l') {s : HookSeeds} {k : Pubkey}
    {b : UInt8} (hs : K.Covers s) (hfind : d.find s = some (k, b))
    (hchanged : l'.account k ≠ l.account k) :
    Authorised d s.mint l c ∧ ∀ (s' : HookSeeds) (k' : Pubkey) (b' : UInt8), K.Covers s' →
      s'.mint ≠ s.mint → d.find s' = some (k', b') → l'.account k' = l.account k' := by
  have heffect := effect_of_reaches hr ha hok
  have hwrites : s ∈ c.writes := by
    by_contra hnot
    exact hchanged (heffect.account_eq ha hs hfind hnot)
  refine ⟨heffect.authorised (inv_of_reaches hr) hwrites, ?_⟩
  intro s' k' b' hs' hne hfind'
  refine heffect.account_eq ha hs' hfind' fun hwrites' => hne ?_
  exact Option.some.inj ((c.mint_of_mem_writes hwrites').symm.trans (c.mint_of_mem_writes hwrites))

/-- A nomination on the local chain changes the config of its mint only. -/
theorem authorised_and_isolated_nominated :
    Authorised LocalChain.chain LocalChain.mint LocalChain.configured
        LocalChain.transferAuthorityCall ∧
      ∀ (s' : HookSeeds) (k' : Pubkey) (b' : UInt8), LocalChain.keysInPlay.Covers s' →
        s'.mint ≠ LocalChain.mint → LocalChain.chain.find s' = some (k', b') →
        LocalChain.nominated.account k' = LocalChain.configured.account k' :=
  authorised_and_isolated LocalChain.reaches_configured LocalChain.admissible_transferAuthority
    LocalChain.process_transferAuthority (s := .config LocalChain.mint)
    ((KeysInPlay.covers_config _).mpr LocalChain.mint_mem) LocalChain.find_config
    (by decide +kernel)

end AlienIdTransferHook

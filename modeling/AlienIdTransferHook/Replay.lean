import AlienIdTransferHook.AccountLocks

/-!
# Replaying calls

What the program stores for a mint is a function of the calls for that mint that went
through, in their order; whatever else happened does not show. Without the keys that
its policy names nothing goes through, and a call delivered twice does nothing the
second time.
-/
namespace AlienIdTransferHook
open Solana History TransferPolicy Locality

variable {d : Deployment} {K : KeysInPlay d} {l l' l'' l₁ l₂ : Ledger} {m k : Pubkey}
  {b : UInt8} {c : Call} {h₁ h₂ : List (Ledger × Event)}

/-! ## Records from calls -/

/-- The operations on the mint's policy in a history, newest first. -/
def operations (m : Pubkey) (h : List (Ledger × Event)) : List (Op Pubkey Rule) :=
  h.filterMap fun e => e.2.op m

lemma image_map_snd (hm : m ∈ K.keys) (h : List (Ledger × Event)) :
    ((policySimulation K hm).image h).map Prod.snd = operations m h := by
  rw [Simulation.image, operations, List.map_filterMap]
  congr 1
  funext e
  cases hop : e.2.op m with
  | none => simp [policySimulation, hop]
  | some op => simp [policySimulation, hop]

/-- Runs with the same operations on a mint end with the same policy for it. -/
lemma policy_of_operations (hm : m ∈ K.keys) (hr₁ : Reaches (hookSystem K) h₁ l₁)
    (hr₂ : Reaches (hookSystem K) h₂ l₂) (hops : operations m h₁ = operations m h₂) :
    policy K m l₁ = policy K m l₂ := by
  refine (policy_reaches hm hr₁).unique ?_ (fun _ _ _ _ => Step.unique) (policy_reaches hm hr₂) ?_
  · rintro _ _ rfl rfl
    rfl
  · rw [image_map_snd, image_map_snd, hops]

lemma nominee_injective {k k' : Pubkey} (h : nominee k = nominee k') : k = k' := by
  unfold nominee at h
  split_ifs at h with hk hk'
  · exact hk.trans hk'.symm
  · exact Option.some.inj h

/-- The policy tells the fields of the config. -/
lemma config_of_policy {c₁ c₂ : HookConfig} (hc₁ : ConfigAt K l₁ m k c₁)
    (hc₂ : ConfigAt K l₂ m k c₂) (hp : policy K m l₁ = policy K m l₂) : c₁ = c₂ := by
  rw [hc₁.policy, hc₂.policy] at hp
  obtain ⟨hauthority, hpending, hrule, -⟩ := Policy.mk.inj (Option.some.inj hp)
  obtain ⟨hcredential, hschema, hsas⟩ := Rule.mk.inj hrule
  have hbump : c₁.bump = c₂.bump := by simpa [hc₁.find] using hc₂.find
  have hnominee := nominee_injective hpending
  cases c₁
  cases c₂
  simp_all

/-- The policy tells which records there are. -/
lemma holds_of_policy {s : HookSeeds} (hinv₁ : Inv K l₁) (hinv₂ : Inv K l₂) (hs : K.Covers s)
    (hp : policy K s.mint l₁ = policy K s.mint l₂) : d.holds l₁ s = d.holds l₂ s := by
  have hm := KeysInPlay.mint_mem hs
  have hconfig : d.hookConfig l₁ s.mint = none ↔ d.hookConfig l₂ s.mint = none := by
    simpa [policy] using congrArg (· = none) hp
  by_cases hnone : d.hookConfig l₁ s.mint = none
  · have hnone' := hconfig.mp hnone
    by_cases hs' : s = .config s.mint
    · cases hfind : d.find s with
      | none => simp [Deployment.holds, hfind]
      | some pda =>
          rw [hs'] at hfind
          rw [hs', holds_eq_false hfind ((hinv₁.hookConfig_eq_none hm hfind).mp hnone),
            holds_eq_false hfind ((hinv₂.hookConfig_eq_none hm hfind).mp hnone')]
    · rw [hinv₁.holds_of_no_config hs hs' hnone, hinv₂.holds_of_no_config hs hs' hnone']
  · obtain ⟨c₁, hc₁⟩ := Option.ne_none_iff_exists'.mp hnone
    obtain ⟨c₂, hc₂⟩ := Option.ne_none_iff_exists'.mp (hconfig.not.mp hnone)
    obtain ⟨k₁, hat₁⟩ := hinv₁.exists_configAt hm hc₁
    obtain ⟨k₂, hat₂⟩ := hinv₂.exists_configAt hm hc₂
    have hpolicies := hp
    rw [hat₁.policy, hat₂.policy] at hpolicies
    obtain ⟨-, -, -, hlist, hexempt⟩ := Policy.mk.inj (Option.some.inj hpolicies)
    cases s with
    | config m =>
        exact ((Deployment.holds_iff hat₁.find).mpr hat₁.owner).trans
          ((Deployment.holds_iff hat₂.find).mpr hat₂.owner).symm
    | extraAccountMetas m => exact hlist
    | whitelist m w =>
        have hw : w ∈ K.keys := (K.covers_whitelist.mp hs).2
        have hiff := Set.ext_iff.mp hexempt w
        simp only [Set.mem_ofPred_eq, hw, true_and] at hiff
        exact Bool.eq_iff_iff.mpr hiff

/-- The policy tells what the records hold. -/
lemma record_of_policy {s : HookSeeds} (hinv₁ : Inv K l₁) (hinv₂ : Inv K l₂) (hs : K.Covers s)
    (hp : policy K s.mint l₁ = policy K s.mint l₂) (hfind : d.find s = some (k, b)) :
    (l₁.account k).owner = (l₂.account k).owner ∧
      (l₁.account k).data = (l₂.account k).data := by
  have hm := KeysInPlay.mint_mem hs
  have hholds := holds_of_policy hinv₁ hinv₂ hs hp
  rcases hinv₁.canonical hs hfind with hu₁ | ⟨howner₁, hcontent₁⟩
  · have hu₂ : (l₂.account k).Unallocated := by
      apply (hinv₂.unallocated_iff hs hfind).mpr
      intro howner
      rw [holds_eq_false hfind hu₁, (Deployment.holds_iff hfind).mpr howner] at hholds
      cases hholds
    exact ⟨hu₁.1.trans hu₂.1.symm, hu₁.2.trans hu₂.2.symm⟩
  · have howner₂ : (l₂.account k).owner = d.programId := by
      rwa [← Deployment.holds_iff hfind, ← hholds, Deployment.holds_iff hfind]
    have hcontent₂ := (hinv₂.slot hs (Deployment.create_of_find hfind) howner₂).2
    refine ⟨howner₁.trans howner₂.symm, ?_⟩
    cases s with
    | config m =>
        obtain ⟨c₁, hdata₁, rfl, hne₁⟩ := hcontent₁
        obtain ⟨c₂, hdata₂, hbump, hne₂⟩ := hcontent₂
        have hc₁ : ConfigAt K l₁ m k c₁ := ⟨hm, hfind, howner₁, hdata₁, hne₁⟩
        have hc₂ : ConfigAt K l₂ m k c₂ := ⟨hm, hbump ▸ hfind, howner₂, hdata₂, hne₂⟩
        rw [hdata₁, hdata₂, config_of_policy hc₁ hc₂ hp]
    | extraAccountMetas m =>
        obtain ⟨c₁, hconfig₁, metas₁, hmetas₁, hdata₁⟩ := hcontent₁
        obtain ⟨c₂, hconfig₂, metas₂, hmetas₂, hdata₂⟩ := hcontent₂
        have hrule : c₁.rule = c₂.rule := by
          have hrules := congrArg (Option.map Policy.rule) hp
          simpa [policy, HookSeeds.mint, hconfig₁, hconfig₂, policyOf] using hrules
        rw [InitializeExtraAccountMetaList.accountMetas_congr _ hrule, hmetas₂] at hmetas₁
        rw [hdata₁, hdata₂, Except.ok.inj hmetas₁]
    | whitelist m w => rw [hcontent₁.2, hcontent₂.2]

/-- Every record of a mint is a function of the calls for the mint that went through: two
runs of the program, however different otherwise, store the same bytes for it. -/
theorem records_determined {s : HookSeeds} (hr₁ : Reaches (hookSystem K) h₁ l₁)
    (hr₂ : Reaches (hookSystem K) h₂ l₂) (hs : K.Covers s)
    (hops : operations s.mint h₁ = operations s.mint h₂) (hfind : d.find s = some (k, b)) :
    (l₁.account k).owner = (l₂.account k).owner ∧
      (l₁.account k).data = (l₂.account k).data := by
  have hm := KeysInPlay.mint_mem hs
  exact record_of_policy (inv_of_reaches hr₁) (inv_of_reaches hr₂) hs
    (policy_of_operations hm hr₁ hr₂ hops) hfind

/-- A donation does not show in the records. -/
theorem records_determined_prefunded :
    (LocalChain.prefunded.account LocalChain.listKey).owner =
        (LocalChain.configured.account LocalChain.listKey).owner ∧
      (LocalChain.prefunded.account LocalChain.listKey).data =
        (LocalChain.configured.account LocalChain.listKey).data :=
  records_determined (s := .extraAccountMetas LocalChain.mint) LocalChain.reaches_prefunded
    LocalChain.reaches_configured (by simpa using LocalChain.mint_mem)
    (by simp [operations, Event.op]) LocalChain.find_list

/-! ## Keys that sign nothing -/

lemma Call.head_of_op {op : Op Pubkey Rule} (h : c.op m = some op) :
    c.accounts.head? = some op.actor := by
  have hcall := c.instruction_of_op h
  cases op with
  | nominate a n => exact hcall.2.1
  | _ => exact hcall.2

/-- Whoever performs an operation signs the call. -/
lemma Effect.actor_signed {op : Op Pubkey Rule} (h : Effect K l c l') (hop : c.op m = some op) :
    op.actor ∈ c.privileges.signers := by
  have hhead := Call.head_of_op hop
  cases h with
  | transferHook =>
      have hcall := Call.instruction_of_op hop
      cases op <;> cases hcall.1
  | initializeConfig _ _ _ hsigned => exact Option.some.inj hhead ▸ hsigned
  | updateConfig _ hsigned | initializeExtraAccountMetaList _ hsigned
  | transferAuthority _ hsigned | acceptAuthority _ hsigned | addToWhitelist _ hsigned
  | removeFromWhitelist _ hsigned => exact Option.some.inj hhead ▸ hsigned

/-- Neither the authority of the policy nor its nominee signs a call for the mint. -/
def Event.Without (m : Pubkey) (p : Policy Pubkey Rule) : Event → Prop
  | .invoked c => c.mint = some m →
      p.authority ∉ c.privileges.signers ∧ ∀ n, p.pending = some n → n ∉ c.privileges.signers
  | _ => True

/-- Without them every step leaves the policy alone. -/
lemma LedgerStep.policy_of_without {h : List (Ledger × Event)} {e : Event}
    {p : Policy Pubkey Rule} (hm : m ∈ K.keys) (hr : Reaches (hookSystem K) h l)
    (hstep : LedgerStep K l e l') (hp : policy K m l = some p) (hwithout : e.Without m p) :
    policy K m l' = some p := by
  cases hop : e.op m with
  | none => exact ((policySimulation K hm).view_idle h l e l' hr hstep hop).trans hp
  | some op =>
      have hdone : Step (policy K m l) op (policy K m l') :=
        (policySimulation K hm).view_step h l e l' hr hstep op hop
      rw [hp] at hdone
      cases hstep with
      | @invoked _ c ha hok =>
          have hsigned := (effect_of_process (inv_of_reaches hr) ha hok).actor_signed hop
          obtain ⟨hauthority, hnominee⟩ := hwithout (Call.mint_of_op hop)
          rcases hdone.actor_eq with heq | hpending
          · exact absurd (heq ▸ hsigned) hauthority
          · exact absurd hsigned (hnominee _ hpending)
      | _ => cases hop

/-- While the authority of a mint and its nominee sign nothing for it, every record of the
mint stays as it is, whatever everybody else does. -/
theorem dormant_keys_freeze {newer older : List (Ledger × Event)} {s : HookSeeds}
    {p : Policy Pubkey Rule} (hr : Reaches (hookSystem K) (newer ++ older) l) (hs : K.Covers s)
    (hp : policy K s.mint (origin newer l) = some p)
    (hwithout : ∀ e ∈ newer, e.2.Without s.mint p) (hfind : d.find s = some (k, b)) :
    (l.account k).owner = ((origin newer l).account k).owner ∧
      (l.account k).data = ((origin newer l).account k).data := by
  have hm := KeysInPlay.mint_mem hs
  suffices hkept : policy K s.mint l = some p from
    record_of_policy (inv_of_reaches hr) (inv_of_reaches hr.to_origin) hs (hkept.trans hp.symm)
      hfind
  induction newer generalizing l with
  | nil => exact hp
  | cons entry newer ih =>
      obtain ⟨l₀, e⟩ := entry
      cases hr with
      | step hr hstep =>
          have hbefore := ih hr hp fun e he => hwithout e (List.mem_cons_of_mem _ he)
          exact hstep.policy_of_without hm hr hbefore
            (hwithout _ List.mem_cons_self)

open LocalChain in
/-- A transfer, which nobody signs for the program, and a donation to the list. -/
theorem dormant_keys_freeze_list :
    (((after transferHookCall listed).credit listKey 7).account listKey).owner =
        (listed.account listKey).owner ∧
      (((after transferHookCall listed).credit listKey 7).account listKey).data =
        (listed.account listKey).data := by
  have hstep : LedgerStep keysInPlay listed (.invoked transferHookCall)
      (after transferHookCall listed) := .invoked admissible_transferHook process_transferHook
  have hr : Reaches (hookSystem keysInPlay)
      ([(after transferHookCall listed, .donated listKey 7), (listed, .invoked transferHookCall)] ++
        [(published, .invoked addToWhitelistCall), (configured, .invoked initializeListCall),
          (genesis, .invoked initializeConfigCall)])
      ((after transferHookCall listed).credit listKey 7) :=
    (reaches_listed.step hstep).step (.donated _ listKey 7)
  have hp : policy keysInPlay mint listed = some (policyOf keysInPlay mint listed firstConfig) := by
    rw [policy, listed_eval.1]
    rfl
  have hfrozen := dormant_keys_freeze (s := .extraAccountMetas mint) (b := 255) (k := listKey)
    (p := policyOf keysInPlay mint listed firstConfig) hr (by simpa using mint_mem)
  simp only [origin, HookSeeds.mint] at hfrozen
  refine hfrozen hp ?_ find_list
  intro e he
  simp only [List.mem_cons, List.not_mem_nil, or_false] at he
  rcases he with rfl | rfl
  · exact trivial
  · exact fun _ => ⟨List.not_mem_nil, fun _ _ => List.not_mem_nil⟩

/-! ## A call delivered twice -/

section Repetition
variable {p : Privileges} {keys : List Pubkey} {credential schema sasProgram : Pubkey}

lemma Effect.of_updateConfig
    (h : Effect K l ⟨.updateConfig credential schema sasProgram, keys, p⟩ l') :
    ∃ k m kl rest config b metas, keys = config.authority :: k :: m :: kl :: rest ∧
      ConfigAt K l m k config ∧ d.find (.extraAccountMetas m) = some (kl, b) ∧
      UpdateConfig.accountMetas d.resolution credential schema sasProgram = .ok metas ∧
      l' = (l.set kl { l.account kl with data := d.resolution.executeEntry metas }).set k
        { l.account k with data := image { config with
          credential := credential, schema := schema, sasProgram := sasProgram } } := by
  cases h with
  | updateConfig hc _ hlist _ hmetas => exact ⟨_, _, _, _, _, _, _, rfl, hc, hlist, hmetas, rfl⟩

lemma Effect.of_transferAuthority (h : Effect K l ⟨.transferAuthority, keys, p⟩ l') :
    ∃ k m a rest config, keys = config.authority :: a :: k :: m :: rest ∧
      ConfigAt K l m k config ∧
      l' = l.set k { l.account k with data := image { config with pendingAuthority := a } } := by
  cases h with
  | transferAuthority hc _ => exact ⟨_, _, _, _, _, rfl, hc, rfl⟩

/-- Two configs at one address are the same. -/
lemma ConfigAt.unique {c₁ c₂ : HookConfig} {m₁ m₂ : Pubkey} (h₁ : ConfigAt K l m₁ k c₁)
    (h₂ : ConfigAt K l m₂ k c₂) : c₁ = c₂ := by
  have himage : tryDeserialize HookConfig (image c₁) = tryDeserialize HookConfig (image c₂) := by
    rw [← h₁.data, ← h₂.data]
  rw [tryDeserialize_image, tryDeserialize_image] at himage
  exact Except.ok.inj himage

/-- Writing what is there already changes nothing. -/
lemma Solana.Ledger.set_data {data : List UInt8} (h : (l.account k).data = data) :
    l.set k { l.account k with data := data } = l := by
  rw [← h]
  exact Ledger.set_account l k

lemma Effect.updateConfig_again
    (h₁ : Effect K l ⟨.updateConfig credential schema sasProgram, keys, p⟩ l')
    (h₂ : Effect K l' ⟨.updateConfig credential schema sasProgram, keys, p⟩ l'') :
    l'' = l' := by
  obtain ⟨k, m, kl, rest, config, b, metas, hkeys, hc, hlist, hmetas, hl'⟩ :=
    h₁.of_updateConfig
  obtain ⟨k', m', kl', rest', config', b', metas', hkeys', hc', hlist', hmetas', hl''⟩ :=
    h₂.of_updateConfig
  obtain ⟨-, rfl, rfl, rfl, -⟩ : _ ∧ k' = k ∧ m' = m ∧ kl' = kl ∧ _ := by
    simpa [eq_comm] using hkeys.symm.trans hkeys'
  obtain rfl := Except.ok.inj (hmetas.symm.trans hmetas')
  have hk := hc.ne_list hlist
  have hat : l'.account k' = { l.account k' with data := image { config with
      credential := credential, schema := schema, sasProgram := sasProgram } } := by
    rw [hl', Ledger.account_set_self]
  have hconfig := hc'.unique (hc.rewritten { config with
    credential := credential, schema := schema, sasProgram := sasProgram } rfl
      hc.authority_ne hat)
  have hdata : (l'.account kl').data = d.resolution.executeEntry metas := by
    rw [hl', Ledger.account_set_of_ne _ _ hk.symm, Ledger.account_set_self]
  rw [hl'', Ledger.set_data hdata, hconfig]
  exact Ledger.set_data (by rw [hat])

lemma Effect.transferAuthority_again (h₁ : Effect K l ⟨.transferAuthority, keys, p⟩ l')
    (h₂ : Effect K l' ⟨.transferAuthority, keys, p⟩ l'') : l'' = l' := by
  obtain ⟨k, m, a, rest, config, hkeys, hc, hl'⟩ := h₁.of_transferAuthority
  obtain ⟨k', m', a', rest', config', hkeys', hc', hl''⟩ := h₂.of_transferAuthority
  obtain ⟨-, rfl, rfl, -⟩ : _ ∧ a' = a ∧ k' = k ∧ _ := by
    simpa [eq_comm] using hkeys.symm.trans hkeys'
  have hat : l'.account k' =
      { l.account k' with data := image { config with pendingAuthority := a' } } := by
    rw [hl', Ledger.account_set_self]
  have hconfig := hc'.unique
    (hc.rewritten { config with pendingAuthority := a' } rfl hc.authority_ne hat)
  rw [hl'', hconfig]
  exact Ledger.set_data (by rw [hat])

/-- The second time a call has nothing to do, or is refused. -/
lemma Effect.again (hinv : Inv K l) (ha : c.Admissible K) (h₁ : Effect K l c l')
    (h₂ : Effect K l' c l'') : l'' = l' := by
  have hinv' := h₁.inv hinv ha
  obtain ⟨i, keys, p⟩ := c
  cases hmint : Call.mint ⟨i, keys, p⟩ with
  | none =>
      cases h₁ with
      | transferHook => cases h₂; rfl
      | _ => cases hmint
  | some m =>
      cases hop : Call.op m ⟨i, keys, p⟩ with
      | none =>
          cases i with
          | transferHook => cases h₁; cases h₂; rfl
          | _ =>
              cases h₁
              simp [Call.op, hmint] at hop
      | some op =>
          -- the policy rules out every other repetition
          have hinstr := Call.instruction_of_op hop
          rcases (h₁.policy_step hinv ha hop).again (h₂.policy_step hinv' ha hop) with
            ⟨a, r, rfl⟩ | ⟨a, n, rfl⟩
          · obtain ⟨rfl, -⟩ := hinstr
            exact h₁.updateConfig_again h₂
          · obtain ⟨rfl, -⟩ := hinstr
            exact h₁.transferAuthority_again h₂

end Repetition

/-- However often a call is delivered in a row, the ledger ends as after the first time. -/
theorem redelivery_absorbed (hr : Reaches (hookSystem K) h₁ l) (ha : c.Admissible K) (n : ℕ) :
    attemptAll (List.replicate (n + 1) (c.step d)) l = attempt (c.step d) l := by
  have hinv := inv_of_reaches hr
  refine attemptAll_replicate (fun l' l'' hok hok' => ?_) n
  have heffect := effect_of_process hinv ha hok
  exact heffect.again hinv ha (effect_of_process (heffect.inv hinv ha) ha hok')

/-- The nomination of the successor, sent once more than needed. -/
theorem redelivery_absorbed_nominated :
    attemptAll (List.replicate 2 (LocalChain.transferAuthorityCall.step LocalChain.chain))
        LocalChain.configured =
      attempt (LocalChain.transferAuthorityCall.step LocalChain.chain) LocalChain.configured :=
  redelivery_absorbed LocalChain.reaches_configured LocalChain.admissible_transferAuthority 1

end AlienIdTransferHook

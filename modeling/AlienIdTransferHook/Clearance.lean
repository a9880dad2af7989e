import AlienIdTransferHook.ExecuteAccounts
import Mathlib.Order.UpperLower.Basic

/-!
# Clearance

What a wallet may move is decided by the policy of the mint, the wallet's attestation
and the clock. With the accounts chosen freely the hook lets through exactly the
transfers of cleared wallets. Nothing but a new rule, an operation on the wallet or a
write to its attestation changes when a wallet is cleared.
-/
namespace AlienIdTransferHook
open Solana History TransferPolicy

variable {d : Deployment} {K : KeysInPlay d} {l l' : Ledger} {m w source destination : Pubkey}
  {h newer older : List (Ledger × Event)} {rule : Rule} {t t' : ℤ}

def Solana.Ledger.atTime (l : Ledger) (t : ℤ) : Ledger := { l with unixTimestamp := t }

/-- The mint has a config, and the wallet is exempt or attested under its rule. -/
def Cleared (K : KeysInPlay d) (m w : Pubkey) (l : Ledger) : Prop :=
  ∃ p, policy K m l = some p ∧ (w ∈ p.exempt ∨ Attested d l p.rule w)

/-- The accounts of the transfer are in order: tokens of `m` are on their way between two
accounts, and `w` may move them. -/
structure Moving (d : Deployment) (l : Ledger) (source m destination w : Pubkey) : Prop where
  transferring : d.token.transferring (l.account source).data = .ok true
  authority : ∃ src, d.interfaceTokenAccount l source = .ok src ∧ src.mint = m ∧
    (src.owner = w ∨ src.delegate = some w ∧ 0 < src.delegatedAmount)
  mint : ∃ mint, d.interfaceMint l m = .ok mint
  destination : ∃ dst, d.interfaceTokenAccount l destination = .ok dst ∧ dst.mint = m

/-- Some choice of the other accounts makes the hook succeed. -/
def Accepts (d : Deployment) (l : Ledger) (source m destination w : Pubkey) : Prop :=
  ∃ rest amount, transferHook d l (source :: m :: destination :: w :: rest) amount = .ok ()

/-! ## Clearance decides -/

/-- A transfer that is let through was in order, and its wallet cleared. -/
lemma cleared_of_accepts (hinv : Inv K l) (hm : m ∈ K.keys) (hw : w ∈ K.keys)
    (h : Accepts d l source m destination w) :
    Moving d l source m destination w ∧ Cleared K m w l := by
  obtain ⟨rest, amount, hok⟩ := h
  obtain ⟨a, src, config, hkeys, htry, hhandler⟩ := transferHook_ok hok
  obtain ⟨rest', hrest⟩ := TransferHook.ofKeys_eq_ok hkeys
  obtain ⟨rfl, rfl, rfl, rfl, -⟩ : source = a.sourceToken ∧ m = a.mint ∧
      destination = a.destinationToken ∧ w = a.transferAuthority ∧ _ := by simpa using hrest
  obtain ⟨hsource, hsm, hmint, hdestination, hload, -, hcreate⟩ :=
    TransferHook.tryAccounts_eq_ok.mp htry
  obtain ⟨hflag, hauthority, hcleared⟩ := TransferHook.handler_eq_ok.mp hhandler
  have hc := hinv.configAt hm hload hcreate
  refine ⟨⟨hflag, ⟨src, hsource, hsm, hauthority⟩, hmint, hdestination⟩, _, hc.policy, ?_⟩
  rcases hcleared with hlisted | ⟨-, hverify⟩
  · obtain ⟨howner, b, hfind⟩ := TransferHook.whitelisted_eq_true.mp hlisted
    exact .inl ⟨hw, (Deployment.holds_iff hfind).mpr howner⟩
  · exact .inr (TransferHook.verifyAttestation_eq_ok.mp hverify).2.2.2.2

/-- A transfer in order of a cleared wallet is let through, with the derived accounts. -/
lemma accepts_of_cleared {kl ke : Pubkey} {bl be : UInt8} (hinv : Inv K l) (hm : m ∈ K.keys)
    (hlist : d.find (.extraAccountMetas m) = some (kl, bl))
    (hentry : d.find (.whitelist m w) = some (ke, be))
    (hmoving : Moving d l source m destination w) (hcleared : Cleared K m w l) :
    Accepts d l source m destination w := by
  obtain ⟨hflag, ⟨src, hsource, hsm, hauthority⟩, hmint, hdestination⟩ := hmoving
  obtain ⟨p, hp, hcleared⟩ := hcleared
  obtain ⟨config, hconfig, rfl⟩ := hookConfig_of_policy hp
  obtain ⟨kc, hc⟩ := hinv.exists_configAt hm hconfig
  have haccepts : ∀ attestation,
      ((d.holds l (.whitelist m w) = true) ∨ (d.holds l (.whitelist m w) = false ∧
        ∃ b, d.findProgramAddress (TransferHook.attestationSeeds config.credential
          config.schema w) config.sasProgram = some (attestation, b) ∧
          Attested d l config.rule w)) → Accepts d l source m destination w := by
    intro attestation hcase
    let a : TransferHook := ⟨source, m, destination, w, kl, kc, config.credential,
      config.schema, config.sasProgram, attestation, ke⟩
    have htry : a.tryAccounts d l = .ok (src, config) :=
      TransferHook.tryAccounts_eq_ok.mpr ⟨hsource, hsm, hmint, hdestination, hc.load,
        ⟨bl, hlist⟩, Deployment.create_of_find hc.find⟩
    have hhandler : a.handler d l src config = .ok () := by
      refine TransferHook.handler_eq_ok.mpr ⟨hflag, hauthority, ?_⟩
      rcases hcase with hholds | ⟨hholds, b, hfind, hattested⟩
      · exact .inl (TransferHook.whitelisted_eq_true.mpr
          ⟨(Deployment.holds_iff hentry).mp hholds, be, hentry⟩)
      · refine .inr ⟨TransferHook.whitelisted_eq_false.mpr fun howner => ?_,
          TransferHook.verifyAttestation_eq_ok.mpr ⟨rfl, rfl, rfl, ⟨b, hfind⟩, hattested⟩⟩
        exact Bool.noConfusion (hholds.symm.trans ((Deployment.holds_iff hentry).mpr howner))
    refine ⟨[kl, kc, config.credential, config.schema, config.sasProgram, attestation, ke], 0, ?_⟩
    rw [transferHook, show TransferHook.ofKeys _ = .ok a from rfl, ok_bind, htry, ok_bind]
    exact hhandler
  cases hholds : d.holds l (.whitelist m w) with
  | true => exact haccepts ke (.inl hholds)
  | false =>
      have hattested : Attested d l config.rule w := by
        apply hcleared.resolve_left
        intro hexempt
        exact Bool.noConfusion (hholds.symm.trans hexempt.2)
      obtain ⟨k, b, -, -, hfind, -⟩ := id hattested
      exact haccepts k (.inr ⟨hholds, b, hfind, hattested⟩)

/-- Accounts for a rule pass for an exempt wallet, and for an attested one if the rule is
the one in force. -/
lemma transferHook_for_rule {kl : Pubkey} {bl : UInt8} {keys : List Pubkey} {a : TransferHook}
    (hinv : Inv K l) (hm : m ∈ K.keys) (hw : w ∈ K.keys)
    (hlist : d.find (.extraAccountMetas m) = some (kl, bl))
    (hkeys : TransferHook.ofKeys keys = .ok a)
    (hfields : FieldsMatch d rule source m destination w kl a) (amount : ℕ) :
    transferHook d l keys amount = .ok () ↔ Moving d l source m destination w ∧
      ∃ p, policy K m l = some p ∧ (w ∈ p.exempt ∨ p.rule = rule ∧ Attested d l p.rule w) := by
  have hwhitelisted := whitelisted_of_fieldsMatch (l := l) hfields
  obtain ⟨rfl, rfl, rfl, rfl, rfl, ⟨bc, hkc⟩, hcredential, hschema, hsas, hattestation, -⟩ :=
    hfields
  constructor
  · intro hok
    obtain ⟨a', src, config, hkeys', htry, hhandler⟩ := transferHook_ok hok
    obtain rfl := Except.ok.inj (hkeys.symm.trans hkeys')
    obtain ⟨hsource, hsm, hmint, hdestination, hload, -, hcreate⟩ :=
      TransferHook.tryAccounts_eq_ok.mp htry
    obtain ⟨hflag, hauthority, hcleared⟩ := TransferHook.handler_eq_ok.mp hhandler
    have hc := hinv.configAt hm hload hcreate
    refine ⟨⟨hflag, ⟨src, hsource, hsm, hauthority⟩, hmint, hdestination⟩, _, hc.policy, ?_⟩
    rcases hcleared with hexempt | ⟨-, hverify⟩
    · exact .inl ⟨hw, Except.ok.inj (hwhitelisted.symm.trans hexempt)⟩
    · obtain ⟨hcredential', hschema', hsas', -, hattested⟩ :=
        TransferHook.verifyAttestation_eq_ok.mp hverify
      refine .inr ⟨?_, hattested⟩
      show config.rule = rule
      rw [HookConfig.rule, ← hcredential', ← hschema', ← hsas', hcredential, hschema, hsas]
  · rintro ⟨⟨hflag, ⟨src, hsource, hsm, hauthority⟩, hmint, hdestination⟩, p, hp, hcleared⟩
    obtain ⟨config, hconfig, rfl⟩ := hookConfig_of_policy hp
    have hc := hinv.configAt_of_find hm hconfig hkc
    have htry : a.tryAccounts d l = .ok (src, config) :=
      TransferHook.tryAccounts_eq_ok.mpr ⟨hsource, hsm, hmint, hdestination, hc.load,
        ⟨bl, hlist⟩, Deployment.create_of_find hc.find⟩
    rw [transferHook, hkeys, ok_bind, htry, ok_bind]
    refine TransferHook.handler_eq_ok.mpr ⟨hflag, hauthority, ?_⟩
    cases hholds : d.holds l (.whitelist a.mint a.transferAuthority) with
    | true => exact .inl (hwhitelisted.trans (congrArg _ hholds))
    | false =>
        have hexempt : ¬ a.transferAuthority ∈ (policyOf K a.mint l config).exempt :=
          fun hexempt => Bool.noConfusion (hholds.symm.trans hexempt.2)
        obtain ⟨hrule, hattested⟩ := hcleared.resolve_left hexempt
        refine .inr ⟨hwhitelisted.trans (congrArg _ hholds),
          TransferHook.verifyAttestation_eq_ok.mpr ?_⟩
        obtain rfl : config.rule = rule := hrule
        exact ⟨hcredential, hschema, hsas, hattestation, hattested⟩

lemma rule_write_eq_none {s : Option (Policy Pubkey Rule)} {op : Op Pubkey Rule}
    (h : ¬ op.SetsRule) : (ruleRegister Pubkey Rule).write s op = none := by
  cases op with
  | create _ _ | setRule _ _ => exact absurd trivial h
  | _ => rfl

/-- The newest rule in a history is the one in force. -/
lemma rule_of_ruleWritten (hm : m ∈ K.keys) (hr : Reaches (hookSystem K) h l)
    (hrule : RuleWritten m rule h) : ∃ p, policy K m l = some p ∧ p.rule = rule := by
  obtain ⟨newer, l₀, c, older, rfl, hmint, hi, hnewer⟩ := hrule
  have hsets : c.instruction.SetsRule := by rcases hi with hi | hi <;> rw [hi] <;> trivial
  obtain ⟨op, hop, -⟩ := Call.op_setsRule hmint hsets
  have hinstr := Call.instruction_of_op hop
  have hwrite : ∀ s, (ruleRegister Pubkey Rule).write s op = some (some rule) := by
    intro s
    cases op with
    | create a r | setRule a r =>
        obtain rfl : r = rule := by
          obtain ⟨hr, -⟩ := hinstr
          rcases hi with hi | hi <;> simp [hi] at hr
          obtain ⟨hcredential, hschema, hsas⟩ := hr
          cases rule
          cases r
          simp_all
        rfl
    | _ => rcases hi with hi | hi <;> simp [hi] at hinstr
  have hquiet : ∀ e ∈ (policySimulation K hm).image newer, ¬ e.2.SetsRule := by
    refine not_in_image hm (fun c op hop' hsets' => ?_) hnewer
    have hinstr' := Call.instruction_of_op hop'
    cases op with
    | create _ _ | setRule _ _ => rw [hinstr'.1]; trivial
    | _ => cases hsets'
  have hlabel : (policySimulation K hm).label (.invoked c) = some op := hop
  have himage := policy_reaches hm hr
  rw [Simulation.image_append, Simulation.image_cons _ hlabel] at himage
  have hview := (ruleRegister Pubkey Rule).view_of_write himage (hwrite _)
    fun e he => rule_write_eq_none (hquiet e he)
  simpa [ruleRegister] using hview

/-- With the accounts chosen freely the hook accepts exactly what the history of the
ledger clears. Once the list is initialised nobody has to choose: the accounts resolved
from it are accepted whenever any are. -/
theorem accepts_iff_enforced (source destination : Pubkey) {kl ke : Pubkey} {bl be : UInt8}
    (hr : Reaches (hookSystem K) h l) (hm : m ∈ K.keys) (hw : w ∈ K.keys)
    (hlist : d.find (.extraAccountMetas m) = some (kl, bl))
    (hentry : d.find (.whitelist m w) = some (ke, be)) :
    (Accepts d l source m destination w ↔ Enforced d h l source m w ∧
      (∃ mint, d.interfaceMint l m = .ok mint) ∧
      ∃ dst, d.interfaceTokenAccount l destination = .ok dst ∧ dst.mint = m) ∧
    ((l.account kl).owner = d.programId → ∀ keys amount,
      d.resolution.resolveList d.toHost (l.account kl).data [source, m, destination, w, kl] =
        .ok keys →
      (transferHook d l keys amount = .ok () ↔ Accepts d l source m destination w)) := by
  have hinv := inv_of_reaches hr
  refine ⟨⟨?_, ?_⟩, ?_⟩
  · intro haccepts
    obtain ⟨⟨hflag, hauthority, hmint, hdestination⟩, p, hp, hcleared⟩ :=
      cleared_of_accepts hinv hm hw haccepts
    refine ⟨⟨hflag, hauthority, ?_⟩, hmint, hdestination⟩
    obtain ⟨config, hconfig, rfl⟩ := hookConfig_of_policy hp
    exact hcleared.imp (fun hexempt => (holds_iff_listed hm hw hr).mp hexempt.2)
      fun hattested => ⟨_, ruleWritten hm hr hconfig, hattested⟩
  · rintro ⟨⟨hflag, hauthority, hcleared⟩, hmint, hdestination⟩
    apply accepts_of_cleared hinv hm hlist hentry ⟨hflag, hauthority, hmint, hdestination⟩
    rcases hcleared with hlisted | ⟨rule, hrule, hattested⟩
    · obtain ⟨p, hp, hexempt⟩ := (holds_iff_exempt hm hw hinv).mp
        ((holds_iff_listed hm hw hr).mpr hlisted)
      exact ⟨p, hp, .inl hexempt⟩
    · obtain ⟨p, hp, rfl⟩ := rule_of_ruleWritten hm hr hrule
      exact ⟨p, hp, .inr hattested⟩
  · intro howner keys amount hresolve
    -- an initialised list has the config it was made for
    obtain ⟨-, config, hconfig, -⟩ :=
      (hinv.canonical (by simpa using hm) hlist).resolve_left fun hu =>
        d.programId_ne (howner.symm.trans hu.1)
    obtain ⟨a, hkeys, hfields, -⟩ := published_hook hr hm hconfig hlist howner hresolve
    rw [transferHook_for_rule hinv hm hw hlist hkeys hfields]
    have hp : policy K m l = some (policyOf K m l config) := by rw [policy, hconfig]; rfl
    constructor
    · rintro ⟨hmoving, p, hp, hcleared⟩
      exact accepts_of_cleared hinv hm hlist hentry hmoving
        ⟨p, hp, hcleared.imp_right And.right⟩
    · intro haccepts
      obtain ⟨hmoving, p, hp', hcleared⟩ := cleared_of_accepts hinv hm hw haccepts
      obtain rfl := Option.some.inj (hp.symm.trans hp')
      exact ⟨hmoving, _, hp', hcleared.imp_right fun hattested => ⟨rfl, hattested⟩⟩

/-- The wallet's transfer on the local chain, with any accounts and with the resolved ones. -/
theorem accepts_iff_enforced_listed :
    (Accepts LocalChain.chain LocalChain.listed LocalChain.source LocalChain.mint
        LocalChain.destination LocalChain.wallet ↔
      Enforced LocalChain.chain
          [(LocalChain.published, .invoked LocalChain.addToWhitelistCall),
            (LocalChain.configured, .invoked LocalChain.initializeListCall),
            (LocalChain.genesis, .invoked LocalChain.initializeConfigCall)]
          LocalChain.listed LocalChain.source LocalChain.mint LocalChain.wallet ∧
        (∃ mint, LocalChain.chain.interfaceMint LocalChain.listed LocalChain.mint = .ok mint) ∧
        ∃ dst, LocalChain.chain.interfaceTokenAccount LocalChain.listed LocalChain.destination =
          .ok dst ∧ dst.mint = LocalChain.mint) ∧
    (transferHook LocalChain.chain LocalChain.listed LocalChain.executeKeys 25 = .ok () ↔
      Accepts LocalChain.chain LocalChain.listed LocalChain.source LocalChain.mint
        LocalChain.destination LocalChain.wallet) := by
  obtain ⟨-, howner, hresolve, -⟩ := LocalChain.listed_eval
  obtain ⟨haccepts, hpublished⟩ := accepts_iff_enforced LocalChain.source LocalChain.destination
    LocalChain.reaches_listed LocalChain.mint_mem LocalChain.wallet_mem LocalChain.find_list
    (LocalChain.find_eq _)
  exact ⟨haccepts, hpublished howner LocalChain.executeKeys 25 hresolve⟩

/-! ## What changes clearance -/

/-- When the wallet would be cleared if nothing but the clock changed. -/
def clearedTimes (K : KeysInPlay d) (m w : Pubkey) (l : Ledger) : Set ℤ :=
  {t | Cleared K m w (l.atTime t)}

/-- The entries of a history that may change the wallet's clearance: a new rule, an
operation on the wallet, or another program writing to its attestation. -/
def Decides (K : KeysInPlay d) (m w : Pubkey) : Ledger × Event → Prop
  | (_, .invoked c) =>
      c.mint = some m ∧ (c.instruction.SetsRule ∨ c.instruction.OnWallet w)
  | (l, .written k _) => ∃ p b, policy K m l = some p ∧ d.findProgramAddress
      (TransferHook.attestationSeeds p.rule.credential p.rule.schema w) p.rule.sasProgram =
        some (k, b)
  | _ => False

/-- The wallet's attestation under the rule is not at the address of a record. -/
def AttestationApart (K : KeysInPlay d) (w : Pubkey) (rule : Rule) : Prop :=
  ∀ k b, d.findProgramAddress
      (TransferHook.attestationSeeds rule.credential rule.schema w) rule.sasProgram =
        some (k, b) → ∀ s b', K.Covers s → d.find s ≠ some (k, b')

/-- What the policy says about the wallet. -/
def standing (K : KeysInPlay d) (m w : Pubkey) (l : Ledger) : Option (Rule × Prop) :=
  (policy K m l).map fun p => (p.rule, w ∈ p.exempt)

lemma cleared_iff : Cleared K m w l ↔
    ∃ rule exempt, standing K m w l = some (rule, exempt) ∧ (exempt ∨ Attested d l rule w) := by
  unfold Cleared standing
  constructor
  · rintro ⟨p, hp, hcleared⟩
    exact ⟨p.rule, _, by rw [hp]; rfl, hcleared⟩
  · rintro ⟨rule, exempt, hstanding, hcleared⟩
    obtain ⟨p, hp, heq⟩ := Option.map_eq_some_iff.mp hstanding
    obtain ⟨rfl, rfl⟩ := Prod.mk.inj heq
    exact ⟨p, hp, hcleared⟩

lemma policy_atTime (t : ℤ) : policy K m (l.atTime t) = policy K m l := rfl

lemma standing_atTime (t : ℤ) : standing K m w (l.atTime t) = standing K m w l := rfl

/-- An expiry is passed once. -/
lemma attested_antitone (ht : t' ≤ t) (h : Attested d (l.atTime t) rule w) :
    Attested d (l.atTime t') rule w := by
  obtain ⟨k, b, n, e, hfind, howner, hdata, hlive⟩ := h
  exact ⟨k, b, n, e, hfind, howner, hdata, hlive.imp_right fun hlt => lt_of_le_of_lt ht hlt⟩

lemma isLowerSet_clearedTimes : IsLowerSet (clearedTimes K m w l) := by
  intro t t' ht h
  obtain ⟨rule, exempt, hstanding, hcleared⟩ := cleared_iff.mp h
  exact cleared_iff.mpr ⟨rule, exempt, hstanding, hcleared.imp_right (attested_antitone ht)⟩

lemma attested_congr (h : ∀ k b, d.findProgramAddress
      (TransferHook.attestationSeeds rule.credential rule.schema w) rule.sasProgram =
        some (k, b) → SameContent l l' k) :
    Attested d (l'.atTime t) rule w ↔ Attested d (l.atTime t) rule w := by
  constructor
  · rintro ⟨k, b, n, e, hfind, howner, hdata, hlive⟩
    obtain ⟨hsame, hsame'⟩ := h k b hfind
    exact ⟨k, b, n, e, hfind, hsame ▸ howner, hsame' ▸ hdata, hlive⟩
  · rintro ⟨k, b, n, e, hfind, howner, hdata, hlive⟩
    obtain ⟨hsame, hsame'⟩ := h k b hfind
    exact ⟨k, b, n, e, hfind, hsame.trans howner, hsame'.symm ▸ hdata, hlive⟩

/-- Any other operation leaves the rule and the wallet's exemption alone. -/
lemma standing_of_step {s s' : Option (Policy Pubkey Rule)} {op : Op Pubkey Rule}
    (h : Step s op s') (hrule : ¬ op.SetsRule) (hwallet : ¬ op.OnWallet w) :
    s'.map (fun p => (p.rule, w ∈ p.exempt)) = s.map fun p => (p.rule, w ∈ p.exempt) := by
  cases h with
  | create | setRule => exact absurd trivial hrule
  | exempt p w' _ =>
      have hne : w ≠ w' := fun heq => hwallet heq.symm
      simp [hne]
  | revoke p w' _ =>
      have hne : w ≠ w' := fun heq => hwallet heq.symm
      simp [hne]
  | _ => rfl

/-- A step that decides nothing leaves the standing of the wallet as it was. -/
lemma standing_of_ledgerStep {e : Event} (hr : Reaches (hookSystem K) h l) (hm : m ∈ K.keys)
    (hstep : LedgerStep K l e l') (hquiet : ¬ Decides K m w (l, e)) :
    standing K m w l' = standing K m w l := by
  cases hop : e.op m with
  | none =>
      have hidle := (policySimulation K hm).view_idle h l e l' hr hstep hop
      exact congrArg (Option.map _) hidle
  | some op =>
      have hstep' := (policySimulation K hm).view_step h l e l' hr hstep op hop
      cases e with
      | invoked c =>
          have hinstr := Call.instruction_of_op hop
          have hmint := Call.mint_of_op hop
          refine standing_of_step hstep' (fun hrule => hquiet ⟨hmint, .inl ?_⟩)
            fun hwallet => hquiet ⟨hmint, .inr ?_⟩
          · cases op with
            | create _ _ | setRule _ _ => rw [hinstr.1]; trivial
            | _ => cases hrule
          · cases op with
            | exempt _ _ | revoke _ _ => rw [hinstr.1]; exact hwallet
            | _ => cases hwallet
      | _ => cases hop

/-- Nor does it touch the wallet's attestation, but for the lamports there. -/
lemma attestation_of_ledgerStep {e : Event} {p : Policy Pubkey Rule} {k : Pubkey} {b : UInt8}
    (hinv : Inv K l) (hstep : LedgerStep K l e l') (hquiet : ¬ Decides K m w (l, e))
    (hp : policy K m l = some p) (hapart : AttestationApart K w p.rule)
    (hfind : d.findProgramAddress
      (TransferHook.attestationSeeds p.rule.credential p.rule.schema w) p.rule.sasProgram =
        some (k, b)) : SameContent l l' k := by
  cases hstep with
  | invoked ha hok =>
      exact (effect_of_process hinv ha hok).sameContent
        fun s hs b' => hapart k b hfind s b' (ha.covers hs)
  | rejected => exact ⟨rfl, rfl⟩
  | donated k' n => exact .credit ..
  | @written k' hforeign a =>
      have hne : k ≠ k' := by
        rintro rfl
        exact hquiet ⟨p, b, hp, hfind⟩
      exact .set_of_ne hne a
  | ticked => exact ⟨rfl, rfl⟩

lemma clearedTimes_of_ledgerStep {e : Event} (hr : Reaches (hookSystem K) h l)
    (hm : m ∈ K.keys) (hstep : LedgerStep K l e l') (hquiet : ¬ Decides K m w (l, e))
    (hapart : ∀ rule exempt, standing K m w l = some (rule, exempt) →
      AttestationApart K w rule) : clearedTimes K m w l' = clearedTimes K m w l := by
  have hstanding := standing_of_ledgerStep hr hm hstep hquiet
  ext t
  refine cleared_iff.trans (Iff.trans ?_ cleared_iff.symm)
  simp only [standing_atTime, hstanding]
  refine exists_congr fun rule => exists_congr fun exempt => and_congr_right fun hs => ?_
  obtain ⟨p, hp, heq⟩ := Option.map_eq_some_iff.mp hs
  obtain ⟨rfl, rfl⟩ := Prod.mk.inj heq
  exact or_congr_right (attested_congr fun k b hfind =>
    attestation_of_ledgerStep (inv_of_reaches hr) hstep hquiet hp (hapart _ _ hs) hfind)

/-- Over a stretch without deciding entries the cleared times stay what they were. -/
lemma clearedTimes_origin (hm : m ∈ K.keys) (hr : Reaches (hookSystem K) (newer ++ older) l)
    (hquiet : ∀ e ∈ newer, ¬ Decides K m w e)
    (hapart : ∀ rule exempt, standing K m w l = some (rule, exempt) →
      AttestationApart K w rule) :
    clearedTimes K m w l = clearedTimes K m w (origin newer l) := by
  induction newer generalizing l with
  | nil => rfl
  | cons entry newer ih =>
      obtain ⟨l₀, e⟩ := entry
      cases hr with
      | step hr hstep =>
          have hnow := hquiet _ (.head _)
          have hstanding := standing_of_ledgerStep hr hm hstep hnow
          rw [hstanding] at hapart
          rw [clearedTimes_of_ledgerStep hr hm hstep hnow hapart,
            ih hr (fun e he => hquiet e (.tail _ he)) hapart]
          rfl

/-- After the last deciding entry only the clock and the token accounts count: the hook
accepts as long as the clock has not passed the end of the clearance left then. -/
theorem acceptance_over_time (source destination : Pubkey) (newer : List (Ledger × Event))
    {kl ke : Pubkey} {bl be : UInt8}
    (hr : Reaches (hookSystem K) (newer ++ older) l) (hm : m ∈ K.keys) (hw : w ∈ K.keys)
    (hlist : d.find (.extraAccountMetas m) = some (kl, bl))
    (hentry : d.find (.whitelist m w) = some (ke, be))
    (hquiet : ∀ e ∈ newer, ¬ Decides K m w e)
    (hapart : ∀ p, policy K m l = some p → AttestationApart K w p.rule) :
    IsLowerSet (clearedTimes K m w (origin newer l)) ∧
      (Accepts d l source m destination w ↔ Moving d l source m destination w ∧
        l.unixTimestamp ∈ clearedTimes K m w (origin newer l)) := by
  have hinv := inv_of_reaches hr
  have htimes : clearedTimes K m w l = clearedTimes K m w (origin newer l) := by
    apply clearedTimes_origin hm hr hquiet
    intro rule exempt hs
    obtain ⟨p, hp, heq⟩ := Option.map_eq_some_iff.mp hs
    obtain ⟨rfl, -⟩ := Prod.mk.inj heq
    exact hapart p hp
  rw [← htimes]
  refine ⟨isLowerSet_clearedTimes, cleared_of_accepts hinv hm hw, ?_⟩
  rintro ⟨hmoving, hcleared⟩
  exact accepts_of_cleared hinv hm hlist hentry hmoving hcleared

namespace LocalChain

lemma find_attestation : chain.findProgramAddress
    (TransferHook.attestationSeeds LocalChain.rule.credential LocalChain.rule.schema wallet)
      LocalChain.rule.sasProgram = some (attestationKey, 255) := by
  decide +kernel

lemma attestationApart : AttestationApart keysInPlay wallet LocalChain.rule := by
  intro k b hfind s b' hs hslot
  obtain ⟨rfl, -⟩ : attestationKey = k ∧ _ := by simpa [find_attestation] using hfind
  obtain ⟨hkey, -⟩ : pda s = attestationKey ∧ _ := by simpa [find_eq] using hslot
  have hbytes : digest s 255 ++ List.replicate 28 0 = attestationKey.bytes :=
    (hash_bytes hs 255).symm.trans (congrArg Pubkey.bytes hkey)
  have hhead : attestationKey.bytes.head? = some 161 := by decide +kernel
  cases s <;> exact absurd ((congrArg List.head? hbytes).trans hhead) (by simp [digest])

end LocalChain

/-- After a tick the whitelisted wallet is cleared as before. -/
theorem acceptance_over_time_ticked :
    IsLowerSet (clearedTimes LocalChain.keysInPlay LocalChain.mint LocalChain.wallet
        LocalChain.listed) ∧
      (Accepts LocalChain.chain (LocalChain.listed.atTime 1800000000) LocalChain.source
          LocalChain.mint LocalChain.destination LocalChain.wallet ↔
        Moving LocalChain.chain (LocalChain.listed.atTime 1800000000) LocalChain.source
            LocalChain.mint LocalChain.destination LocalChain.wallet ∧
          (LocalChain.listed.atTime 1800000000).unixTimestamp ∈ clearedTimes
            LocalChain.keysInPlay LocalChain.mint LocalChain.wallet LocalChain.listed) := by
  have hr : Reaches (hookSystem LocalChain.keysInPlay)
      ([(LocalChain.listed, .ticked 1800000000)] ++
        [(LocalChain.published, .invoked LocalChain.addToWhitelistCall),
          (LocalChain.configured, .invoked LocalChain.initializeListCall),
          (LocalChain.genesis, .invoked LocalChain.initializeConfigCall)])
      (LocalChain.listed.atTime 1800000000) :=
    LocalChain.reaches_listed.step (.ticked LocalChain.listed 1800000000)
  have hquiet : ∀ e ∈ [(LocalChain.listed, Event.ticked 1800000000)],
      ¬ Decides LocalChain.keysInPlay LocalChain.mint LocalChain.wallet e := by
    simp [Decides]
  have hapart : ∀ p, policy LocalChain.keysInPlay LocalChain.mint
      (LocalChain.listed.atTime 1800000000) = some p →
        AttestationApart LocalChain.keysInPlay LocalChain.wallet p.rule := by
    intro p hp
    rw [policy_atTime] at hp
    obtain ⟨config, hconfig, rfl⟩ := hookConfig_of_policy hp
    obtain rfl := Option.some.inj (LocalChain.listed_eval.1.symm.trans hconfig)
    exact LocalChain.attestationApart
  have hacceptance := acceptance_over_time LocalChain.source LocalChain.destination
    [(LocalChain.listed, .ticked 1800000000)] hr LocalChain.mint_mem LocalChain.wallet_mem
    LocalChain.find_list (LocalChain.find_eq _) hquiet hapart
  simp only [origin] at hacceptance
  exact hacceptance

end AlienIdTransferHook

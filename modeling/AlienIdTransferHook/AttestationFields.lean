import AlienIdTransferHook.PdaDomains
import AlienIdTransferHook.Attestation

/-!
# The fields of an accepted attestation

The hook looks at an attestation's address, owner, discriminator and expiry, and
skips its nonce, credential and schema. They are the configured ones when the
program that owns it writes into its attestations the seeds of their addresses, as
the service does: then no other program can make an attestation of it.
-/
namespace AlienIdTransferHook
open Solana History

variable {d : Deployment} {K : KeysInPlay d} {A : AddressesInPlay d} {l l' : Ledger}
  {k p : Pubkey} {keys : List Pubkey} {amount : ℕ} {a : TransferHook} {config : HookConfig}
  {h : List (Ledger × Event)}

/-! ## The fields -/

def storedNonce (data : List UInt8) : List UInt8 := (data.drop 1).take 32
def storedCredential (data : List UInt8) : List UInt8 := (data.drop 33).take 32
def storedSchema (data : List UInt8) : List UInt8 := (data.drop 65).take 32

/-- The fields after the discriminator are these keys. -/
def StoresFields (data : List UInt8) (nonce credential schema : Pubkey) : Prop :=
  storedNonce data = nonce.bytes ∧ storedCredential data = credential.bytes ∧
    storedSchema data = schema.bytes

/-- The service stores the fields of the attestation. -/
theorem Attestation.storesFields (x : Attestation) (padding : List UInt8) :
    StoresFields (x.serialize ++ padding) x.nonce x.credential x.schema := by
  have hn := x.nonce.length_bytes
  have hc := x.credential.length_bytes
  have hs := x.schema.length_bytes
  have hsplit : x.serialize ++ padding = ATTESTATION_DISCRIMINATOR :: (x.nonce.bytes ++
      (x.credential.bytes ++ (x.schema.bytes ++ ((ByteCodec.toLE 4 x.data.length ++ (x.data ++
        (x.signer.bytes ++ ByteCodec.i64ToLE x.expiry))) ++
          (x.tokenAccount.bytes ++ padding))))) := by
    simp [serialize, attestationBytes]
  rw [StoresFields, hsplit]
  refine ⟨?_, ?_, ?_⟩
  · exact List.take_left' hn
  · rw [storedCredential, List.drop_succ_cons, List.drop_left' hn]
    exact List.take_left' hc
  · rw [storedSchema, List.drop_succ_cons, show 64 = 32 + 32 from rfl, ← List.drop_drop,
      List.drop_left' hn, List.drop_left' hc]
    exact List.take_left' hs

/-! ## The attestation path -/

/-- The hook returned `Ok` and did not take the whitelist's early return. -/
structure AcceptedByAttestation (d : Deployment) (l : Ledger) (keys : List Pubkey) (amount : ℕ)
    (a : TransferHook) (config : HookConfig) : Prop where
  accounts : TransferHook.ofKeys keys = .ok a
  returned : transferHook d l keys amount = .ok ()
  notWhitelisted : a.whitelisted d l = .ok false
  loaded : loadAccount HookConfig d.toHost l a.config = .ok config

namespace AcceptedByAttestation

theorem verified (h : AcceptedByAttestation d l keys amount a config) :
    a.verifyAttestation d l config = .ok () := by
  obtain ⟨a', source, config', hkeys, htry, hhandler⟩ := transferHook_ok h.returned
  obtain rfl := Except.ok.inj (hkeys.symm.trans h.accounts)
  obtain ⟨-, -, -, -, hload, -, -⟩ := TransferHook.tryAccounts_eq_ok.mp htry
  obtain rfl := Except.ok.inj (hload.symm.trans h.loaded)
  obtain ⟨-, -, hwhitelisted | ⟨-, hverify⟩⟩ := TransferHook.handler_eq_ok.mp hhandler
  · cases hwhitelisted.symm.trans h.notWhitelisted
  · exact hverify

/-- What the handler has checked of the account. -/
theorem checked (h : AcceptedByAttestation d l keys amount a config) :
    (∃ bump, d.findProgramAddress
      (TransferHook.attestationSeeds config.credential config.schema a.transferAuthority)
      config.sasProgram = some (a.attestation, bump)) ∧
      (l.account a.attestation).owner = config.sasProgram ∧
      ∃ n e, IsAttestation (l.account a.attestation).data n e := by
  obtain ⟨⟨⟩, haccounts, hrest⟩ := bind_eq_ok.mp h.verified
  obtain ⟨e, hread, -⟩ := bind_eq_ok.mp hrest
  obtain ⟨-, -, -, hfind, howner⟩ := TransferHook.checkAttestationAccounts_eq_ok.mp haccounts
  exact ⟨hfind, howner, _, e, TransferHook.isAttestation_of_readExpiry hread⟩

end AcceptedByAttestation

/-! ## What the owner writes -/

/-- Data for `k` that is no attestation, or that stores the seeds of the address under `p`. -/
def NamesItself (A : AddressesInPlay d) (p k : Pubkey) (data : List UInt8) : Prop :=
  data[0]? = some ATTESTATION_DISCRIMINATOR → ∃ nonce credential schema bump,
    (.attestation credential schema nonce, p) ∈ A.addresses ∧
    StoresFields data nonce credential schema ∧
    d.findProgramAddress (TransferHook.attestationSeeds credential schema nonce) p =
      some (k, bump)

/-- Every attestation of `p` stores the seeds of its own address. -/
def SelfDescribing (A : AddressesInPlay d) (p : Pubkey) (l : Ledger) : Prop :=
  ∀ k, (l.account k).owner = p → NamesItself A p k (l.account k).data

/-- What becomes an account of `p` by the event stores the seeds of its own address. -/
def Event.Describes (A : AddressesInPlay d) (p : Pubkey) : Event → Prop
  | .written k a => a.owner = p → NamesItself A p k a.data
  | _ => True

/-- A call of the hook leaves what other programs own as it was, or empty. -/
lemma Effect.owned_elsewhere {c : Call} (hinv : Inv K l) (ha : c.Admissible K)
    (heffect : Effect K l c l') (howner : (l'.account k).owner ≠ d.programId) :
    SameContent l l' k ∨ (l'.account k).Unallocated := by
  by_cases hwrites : ∃ s ∈ c.writes, ∃ b, d.find s = some (k, b)
  · obtain ⟨s, hs, b, hfind⟩ := hwrites
    have hcovers := ha.covers hs
    exact .inr (((heffect.inv hinv ha).unallocated_iff hcovers hfind).mpr howner)
  · push Not at hwrites
    exact .inl (heffect.sameContent hwrites)

lemma SelfDescribing.of_sameContent (h : SelfDescribing A p l) (hsame : SameContent l l' k)
    (howner : (l'.account k).owner = p) : NamesItself A p k (l'.account k).data := by
  rw [hsame.2]
  exact h k (hsame.1.symm.trans howner)

/-- Only the program itself makes attestations of its own. -/
lemma LedgerStep.selfDescribing {e : Event} (hinv : Inv K l) (hstep : LedgerStep K l e l')
    (hp : p ≠ d.programId) (he : e.Describes A p) (h : SelfDescribing A p l) :
    SelfDescribing A p l' := by
  intro k howner
  cases hstep with
  | invoked ha hok =>
      rcases (effect_of_process hinv ha hok).owned_elsewhere hinv ha (howner ▸ hp) with
        hsame | hu
      · exact h.of_sameContent hsame howner
      · intro hdata
        rw [hu.2] at hdata
        cases hdata
  | rejected => exact h k howner
  | donated => exact h.of_sameContent (.credit ..) howner
  | ticked => exact h k howner
  | @written k₀ _ a =>
      by_cases hk : k = k₀
      · subst hk
        rw [Ledger.account_set_self] at howner ⊢
        exact he howner
      · exact h.of_sameContent (.set_of_ne hk a) howner

/-- What the program had and what it has written since. -/
lemma selfDescribing_of_reaches (hr : Reaches (hookSystem K) h l) (hp : p ≠ d.programId)
    (hstart : SelfDescribing A p (origin h l)) (hwrites : ∀ e ∈ h, e.2.Describes A p) :
    SelfDescribing A p l := by
  induction hr with
  | start => exact hstart
  | step hr hstep ih =>
      exact hstep.selfDescribing (inv_of_reaches hr) hp (hwrites _ List.mem_cons_self)
        (ih hstart fun e he => hwrites e (List.mem_cons_of_mem _ he))

/-- An accepted attestation whose data name its address names the configured seeds. -/
lemma AcceptedByAttestation.storesFields (h : AcceptedByAttestation d l keys amount a config)
    (hconfigured : (.attestation config.credential config.schema a.transferAuthority,
      config.sasProgram) ∈ A.addresses)
    (hnames : NamesItself A config.sasProgram a.attestation (l.account a.attestation).data) :
    StoresFields (l.account a.attestation).data a.transferAuthority config.credential
      config.schema := by
  obtain ⟨⟨bump, hfind⟩, -, n, e, hattestation⟩ := h.checked
  obtain ⟨_, _, _, _, _, _, -, -, -, hdata⟩ := hattestation
  obtain ⟨nonce, credential, schema, bump', hplay, hfields, hfind'⟩ := hnames (by rw [hdata]; rfl)
  obtain ⟨hseeds, -, -⟩ := A.create_injective (s := .attestation credential schema nonce) hplay
    hconfigured (Host.createProgramAddress_of_find hfind') (Host.createProgramAddress_of_find hfind)
  obtain ⟨rfl, rfl, rfl⟩ := PdaSeeds.attestation.inj hseeds
  exact hfields

/-- Over every run in which the program that the config names as the attestation service
stores in its attestations the seeds of their addresses, whatever everybody else does and
however the config changes: when the hook accepts through the attestation path, the nonce,
the credential and the schema stored in the attestation are the transfer authority and the
configured ones. -/
theorem accepted_attestation_names_config (hr : Reaches (hookSystem K) h l)
    (hA : A.Extends K) (hacc : AcceptedByAttestation d l keys amount a config)
    (hconfigured : (.attestation config.credential config.schema a.transferAuthority,
      config.sasProgram) ∈ A.addresses)
    (hstart : SelfDescribing A config.sasProgram (origin h l))
    (hwrites : ∀ e ∈ h, e.2.Describes A config.sasProgram) :
    StoresFields (l.account a.attestation).data a.transferAuthority config.credential
      config.schema := by
  obtain ⟨-, howner, -⟩ := hacc.checked
  by_cases hsas : config.sasProgram = d.programId
  · -- the hook's own accounts are records, which no attestation's seeds lead to
    obtain ⟨⟨⟩, haccounts, -⟩ := bind_eq_ok.mp hacc.verified
    obtain ⟨_, _, heq, -, -⟩ := (inv_of_reaches hr).slot_of_accepted hA hconfigured
      (howner.trans hsas) (.attestation haccounts)
    cases heq
  · exact hacc.storesFields hconfigured
      (selfDescribing_of_reaches hr hsas hstart hwrites _ howner)

/-!
## A local chain with an attestation service

The local chain under a hash that also keeps a byte of the program and of the
third key from the end. On it the addresses of an attestation service differ from
the hook program's, and attestations for different keys from each other.
-/
namespace SasChain
open LocalChain

/-- Length, bump, and the last bytes of the last three keys and of the program. -/
def hash (bs : List UInt8) : Pubkey :=
  ⟨UInt8.ofNat bs.length :: bs.getD (bs.length - 54) 0 :: bs.getD (bs.length - 55) 0 ::
    bs.getD (bs.length - 87) 0 :: bs.getD (bs.length - 119) 0 :: bs.getD (bs.length - 53) 0 ::
    List.replicate 26 0, by simp⟩

def chain : Deployment := { LocalChain.chain with hash := hash }

/-- The hash keeps what the hash of the plain local chain keeps. -/
lemma hash_localChain {bs bs' : List UInt8} (h : hash bs = hash bs') :
    LocalChain.hash bs = LocalChain.hash bs' := by
  have hbytes := congrArg Pubkey.bytes h
  simp only [hash, List.cons.injEq] at hbytes
  obtain ⟨hlen, hbump, hlast, hprevious, -⟩ := hbytes
  refine Pubkey.ext_bytes ?_
  simp only [LocalChain.hash, hlen, hbump, hlast, hprevious]

/-- The hook program itself may be asked for attestations, too. -/
def keysInPlay : KeysInPlay chain where
  keys := Set.range key
  collisionFree := fun _ hx _ hy heq =>
    LocalChain.keysInPlay.collisionFree hx hy (hash_localChain heq)
  others := {seeds | ∃ c s n, seeds = TransferHook.attestationSeeds (key c) (key s) (key n)}

/-- An address under the hook program keeps the program in its sixth byte. -/
lemma program_of_create {seeds : List (List UInt8)} {k : Pubkey}
    (hcreate : chain.createProgramAddress seeds programId = some k) :
    k.bytes[5]? = some 9 := by
  have hhash : hash (pdaPreimage seeds programId) = k := Host.hash_of_create hcreate
  have hlen : (pdaPreimage seeds programId).length - 53 = seeds.flatten.length := by
    simp [pdaPreimage, Pubkey.length_bytes, pdaMarker]
  have hbyte : (pdaPreimage seeds programId).getD seeds.flatten.length 0 = 9 := by
    rw [pdaPreimage, List.getD_eq_getElem?_getD, List.getElem?_append_right le_rfl, Nat.sub_self]
    rfl
  rw [← hhash]
  simp only [hash, hlen, hbyte]
  rfl

lemma program_of_derived {k : Pubkey} (hk : keysInPlay.Derived k) : k.bytes[5]? = some 9 := by
  cases hk with
  | record _ hcreate => exact program_of_create hcreate
  | other _ hcreate => exact program_of_create hcreate

theorem not_derived {k : Pubkey} (hk : k.bytes[5]? ≠ some 9) : ¬ keysInPlay.Derived k :=
  fun h => hk (program_of_derived h)

/-- No hash is on the curve, so every bump is 255. -/
lemma find_eq {seeds : List (List UInt8)} (p : Pubkey) (hcount : seeds.length < 16)
    (hlength : ∀ s ∈ seeds, s.length ≤ 32) :
    chain.findProgramAddress seeds p =
      some (hash (pdaPreimage (seeds ++ [[255]]) p), 255) := by
  have hcreate : chain.createProgramAddress (seeds ++ [[255]]) p =
      some (hash (pdaPreimage (seeds ++ [[255]]) p)) := by
    unfold Host.createProgramAddress
    rw [if_neg]
    · rfl
    · rintro (hlong | ⟨s, hs, hlong⟩)
      · simp only [List.length_append, List.length_singleton] at hlong
        omega
      · rcases List.mem_append.mp hs with hs | hs
        · exact absurd hlong (Nat.not_lt.mpr (hlength s hs))
        · simp only [List.mem_singleton] at hs
          simp [hs] at hlong
  exact Host.findBump_succ (n := 254)
    (f := fun b => chain.createProgramAddress (seeds ++ [[b]]) p) hcreate

/-! ### Addresses -/

/-- The address for some seeds under a program. -/
def pda (s : PdaSeeds) (p : Pubkey) : Pubkey := hash (pdaPreimage (s.toList ++ [[255]]) p)

theorem find_pda (s : PdaSeeds) (p : Pubkey) :
    chain.findProgramAddress s.toList p = some (pda s p, 255) := by
  refine find_eq p ?_ ?_
  · cases s with
    | hook s => cases s <;> simp [PdaSeeds.toList, HookSeeds.toList]
    | attestation => simp [PdaSeeds.toList, TransferHook.attestationSeeds]
  · cases s with
    | hook s => cases s <;> simp [PdaSeeds.toList, HookSeeds.toList, Pubkey.length_bytes,
        configSeed, extraAccountMetasSeed, whitelistSeed]
    | attestation => simp [PdaSeeds.toList, TransferHook.attestationSeeds, Pubkey.length_bytes,
        ATTESTATION_SEED]

def configKey : Pubkey := pda (.hook (.config mint)) programId
def listKey : Pubkey := pda (.hook (.extraAccountMetas mint)) programId
def entryKey : Pubkey := pda (.hook (.whitelist mint wallet)) programId

/-- The wallet's attestation under the rule. -/
def attestationKey : Pubkey :=
  pda (.attestation rule.credential rule.schema wallet) rule.sasProgram

theorem find_attestation :
    chain.findProgramAddress
        (TransferHook.attestationSeeds rule.credential rule.schema wallet) rule.sasProgram =
      some (attestationKey, 255) :=
  find_pda (.attestation rule.credential rule.schema wallet) rule.sasProgram

set_option maxRecDepth 4000 in
lemma hash_attestation (c s n p b : UInt8) :
    (hash (pdaPreimage (TransferHook.attestationSeeds (key c) (key s) (key n) ++ [[b]])
      (key p))).bytes = 161 :: b :: n :: s :: c :: p :: List.replicate 26 0 := rfl

/-- The service's address is none of the hook program's. -/
theorem attestationKey_not_derived : ¬ keysInPlay.Derived attestationKey := by
  have hbytes : attestationKey.bytes = 161 :: 255 :: 3 :: 11 :: 10 :: 12 :: List.replicate 26 0 :=
    hash_attestation 10 11 3 12 255
  exact not_derived (by rw [hbytes]; simp)

/-- The first byte of an address is the length of what was hashed. -/
lemma hash_hook_ne {s : HookSeeds} {c s' n p b b' : UInt8} :
    hash (pdaPreimage (s.toList ++ [[b]]) programId) ≠
      hash (pdaPreimage (TransferHook.attestationSeeds (key c) (key s') (key n) ++ [[b']])
        (key p)) := by
  intro heq
  have hhead := congrArg (fun k => k.bytes.head?) heq
  rw [hash_attestation] at hhead
  cases s <;>
    simp [hash, pdaPreimage, HookSeeds.toList, Pubkey.length_bytes, configSeed,
      extraAccountMetasSeed, whitelistSeed, pdaMarker] at hhead

/-- The records of the hook, and attestations for keys that repeat one byte, under any such
program. -/
def addressesInPlay : AddressesInPlay chain where
  addresses := {a | (∃ s, a = (.hook s, programId) ∧ keysInPlay.Covers s) ∨
    ∃ c s n p, a = (.attestation (key c) (key s) (key n), key p)}
  collisionFree := by
    rintro _ ⟨_, hx, b, rfl⟩ _ ⟨_, hy, b', rfl⟩ heq
    rcases hx with ⟨s, rfl, hs⟩ | ⟨c, s, n, p, rfl⟩ <;>
      rcases hy with ⟨s', rfl, hs'⟩ | ⟨c', s', n', p', rfl⟩
    · exact keysInPlay.collisionFree ⟨s, b, hs, rfl⟩ ⟨s', b', hs', rfl⟩ heq
    · exact absurd heq hash_hook_ne
    · exact absurd heq.symm hash_hook_ne
    · have hbytes := (hash_attestation c s n p b).symm.trans
        ((congrArg Pubkey.bytes heq).trans (hash_attestation c' s' n' p' b'))
      simp only [List.cons.injEq, true_and, and_true] at hbytes
      obtain ⟨rfl, rfl, rfl, rfl, rfl⟩ := hbytes
      rfl

lemma addressesInPlay_extends : addressesInPlay.Extends keysInPlay where
  records s hs := .inl ⟨s, rfl, hs⟩
  own s hs := by
    rcases hs with ⟨s₀, heq, hs₀⟩ | ⟨c, s', n, p, heq⟩
    · exact .inl ⟨s₀, (Prod.mk.inj heq).1, hs₀⟩
    · exact .inr ⟨c, s', n, by rw [(Prod.mk.inj heq).1]; rfl⟩

/-- The wallet's attestation under the rule. -/
lemma attestation_mem : (.attestation rule.credential rule.schema wallet, rule.sasProgram) ∈
    addressesInPlay.addresses := .inr ⟨10, 11, 3, 12, rfl⟩

/-! ### States -/

theorem fresh_genesis : keysInPlay.Fresh genesis := by
  intro k hk
  have hne : ∀ b, b ≠ 9 → k ≠ key b := by
    rintro b hb rfl
    have hbyte : some b = some (9 : UInt8) := program_of_derived hk
    exact hb (Option.some.inj hbyte)
  simp [genesis, authority, successor, mint, source, destination, hne, Account.Unallocated]

def initializeConfigCall : Call :=
  ⟨.initializeConfig rule.credential rule.schema rule.sasProgram,
    [authority, configKey, mint, systemProgram], ⟨[authority], [authority, configKey]⟩⟩

def configured : Ledger :=
  (initializeConfigCall.process chain genesis).toOption.getD genesis

/-- The accounts of the wallet's transfer. -/
def executeKeys : List Pubkey :=
  [source, mint, destination, wallet, listKey, configKey, rule.credential, rule.schema,
    rule.sasProgram, attestationKey, entryKey]

/-- The same, under the names of the hook's fields. -/
def execute : TransferHook :=
  ⟨source, mint, destination, wallet, listKey, configKey, rule.credential, rule.schema,
    rule.sasProgram, attestationKey, entryKey⟩

/-- An attestation without payload that never expires. -/
def attestation (nonce credential schema signer : Pubkey) : Attestation :=
  ⟨nonce, credential, schema, [], signer, 0, Pubkey.default, by decide, ⟨by decide, by decide⟩⟩

/-- What the service writes for the wallet when `signer` issues. -/
def issuedBy (signer : Pubkey) : Attestation :=
  attestation wallet rule.credential rule.schema signer

@[simp] theorem issuedBy_signer (signer : Pubkey) : (issuedBy signer).signer = signer := rfl

@[simp] theorem issuedBy_credential (signer : Pubkey) :
    (issuedBy signer).credential = rule.credential := rfl

/-- Foreign keys in all three fields. -/
def forgery : Attestation := attestation (key 20) (key 21) (key 22) successor

/-- The configured mint, with an attestation account of the config's `sas_program`. -/
def attested (a : Attestation) : Ledger :=
  configured.set attestationKey ⟨2000000, rule.sasProgram, a.serialize⟩

lemma configured_eval : (initializeConfigCall.process chain genesis).isOk = true := by
  decide +kernel

theorem process_initializeConfig :
    initializeConfigCall.process chain genesis = .ok configured := by
  obtain ⟨l, hl⟩ := exists_eq_ok configured_eval
  rw [configured, hl]
  rfl

theorem admissible_initializeConfig : initializeConfigCall.Admissible keysInPlay where
  signers := by
    intro k hk
    obtain rfl := List.mem_singleton.mp hk
    exact not_derived (by decide)
  reserved := by decide
  mint m hm := Option.some.inj hm ▸ ⟨2, rfl⟩
  wallet w hw := by cases hw

theorem reaches_configured : Reaches (hookSystem keysInPlay)
    [(genesis, .invoked initializeConfigCall)] configured :=
  .step (.start fresh_genesis) (.invoked admissible_initializeConfig process_initializeConfig)

/-- The hook accepts both transfers through the attestation path. -/
lemma attested_eval :
    transferHook chain (attested (issuedBy successor)) executeKeys 25 = .ok () ∧
      transferHook chain (attested forgery) executeKeys 25 = .ok () ∧
      execute.whitelisted chain (attested (issuedBy successor)) = .ok false ∧
      execute.whitelisted chain (attested forgery) = .ok false ∧
      loadAccount HookConfig chain.toHost (attested (issuedBy successor)) configKey =
        .ok firstConfig ∧
      loadAccount HookConfig chain.toHost (attested forgery) configKey = .ok firstConfig := by
  decide +kernel

lemma acceptedByAttestation (x : Attestation)
    (hok : transferHook chain (attested x) executeKeys 25 = .ok ())
    (hpath : execute.whitelisted chain (attested x) = .ok false)
    (hload : loadAccount HookConfig chain.toHost (attested x) configKey = .ok firstConfig) :
    AcceptedByAttestation chain (attested x) executeKeys 25 execute firstConfig :=
  ⟨rfl, hok, hpath, hload⟩

theorem accepted_issued : AcceptedByAttestation chain (attested (issuedBy successor)) executeKeys
    25 execute firstConfig :=
  acceptedByAttestation _ attested_eval.1 attested_eval.2.2.1 attested_eval.2.2.2.2.1

theorem accepted_forgery : AcceptedByAttestation chain (attested forgery) executeKeys 25 execute
    firstConfig :=
  acceptedByAttestation _ attested_eval.2.1 attested_eval.2.2.2.1 attested_eval.2.2.2.2.2

theorem storesFields_attested (x : Attestation) :
    StoresFields ((attested x).account attestationKey).data x.nonce x.credential x.schema := by
  have hfields := x.storesFields []
  rw [List.append_nil] at hfields
  simpa [attested] using hfields

/-- Any program but the hook can leave such an account at the attestation's address. -/
theorem reaches_attested (x : Attestation) : Reaches (hookSystem keysInPlay)
    [(configured, .written attestationKey ⟨2000000, rule.sasProgram, x.serialize⟩),
      (genesis, .invoked initializeConfigCall)] (attested x) := by
  have hderived : ¬ keysInPlay.Derived attestationKey := attestationKey_not_derived
  have hvacant : (configured.account attestationKey).owner ≠ chain.programId := by
    decide +kernel
  exact reaches_configured.step (.written ⟨hvacant, fun _ => hderived⟩ _)

/-- The service has no accounts yet. -/
lemma genesis_owner_ne (k : Pubkey) : (genesis.account k).owner ≠ rule.sasProgram := by
  unfold genesis tokenAccount
  dsimp only
  split_ifs <;> decide

lemma selfDescribing_genesis : SelfDescribing addressesInPlay rule.sasProgram genesis :=
  fun k howner => absurd howner (genesis_owner_ne k)

lemma describes_issued (signer : Pubkey) :
    ∀ e ∈ [(configured, Event.written attestationKey
        ⟨2000000, rule.sasProgram, (issuedBy signer).serialize⟩),
      (genesis, .invoked initializeConfigCall)],
      e.2.Describes addressesInPlay rule.sasProgram := by
  intro e he
  rcases List.mem_cons.mp he with rfl | he
  · have hfields := (issuedBy signer).storesFields []
    rw [List.append_nil] at hfields
    exact fun _ _ => ⟨_, _, _, 255, attestation_mem, hfields, find_attestation⟩
  · obtain rfl := List.mem_singleton.mp he
    exact trivial

end SasChain

/-- The service's own attestation of the local wallet. -/
theorem accepted_attestation_names_config_issued :
    StoresFields ((SasChain.attested (SasChain.issuedBy LocalChain.successor)).account
      SasChain.execute.attestation).data SasChain.execute.transferAuthority
      LocalChain.firstConfig.credential LocalChain.firstConfig.schema :=
  accepted_attestation_names_config
    (SasChain.reaches_attested (SasChain.issuedBy LocalChain.successor))
    SasChain.addressesInPlay_extends SasChain.accepted_issued SasChain.attestation_mem
    SasChain.selfDescribing_genesis (SasChain.describes_issued LocalChain.successor)

/-- A program that the authority has chosen writes foreign keys into the account at the
attestation's address, and the hook accepts it. -/
theorem forged_attestation_accepted :
    ∃ h, Reaches (hookSystem SasChain.keysInPlay) h (SasChain.attested SasChain.forgery) ∧
      AcceptedByAttestation SasChain.chain (SasChain.attested SasChain.forgery)
        SasChain.executeKeys 25 SasChain.execute LocalChain.firstConfig ∧
      storedNonce ((SasChain.attested SasChain.forgery).account
        SasChain.execute.attestation).data ≠ SasChain.execute.transferAuthority.bytes ∧
      storedCredential ((SasChain.attested SasChain.forgery).account
        SasChain.execute.attestation).data ≠ LocalChain.firstConfig.credential.bytes ∧
      storedSchema ((SasChain.attested SasChain.forgery).account
        SasChain.execute.attestation).data ≠ LocalChain.firstConfig.schema.bytes := by
  obtain ⟨hnonce, hcredential, hschema⟩ := SasChain.storesFields_attested SasChain.forgery
  refine ⟨_, SasChain.reaches_attested SasChain.forgery, SasChain.accepted_forgery, ?_, ?_, ?_⟩
  · rw [show SasChain.execute.attestation = SasChain.attestationKey from rfl, hnonce]
    decide
  · rw [show SasChain.execute.attestation = SasChain.attestationKey from rfl, hcredential]
    decide
  · rw [show SasChain.execute.attestation = SasChain.attestationKey from rfl, hschema]
    decide

end AlienIdTransferHook

import AlienIdTransferHook.AttestationFields

/-!
# Who issued an attestation

The hook program beside the attestation service. The service keeps a list of
authorised signers for each credential, which its authority can replace, and lets
a signer on the list create attestations. Its other accounts are its own affair.
The hook does not read the list: what it accepts was issued by somebody who was on
it then.
-/
namespace AlienIdTransferHook
open Solana History

variable {d : Deployment}

/-! ## The service -/

/-- The service's program, which is neither the system program nor the hook. -/
structure AttestationService (d : Deployment) where
  id : Pubkey
  id_ne_system : id ≠ systemProgram
  id_ne_hook : id ≠ d.programId

/-- The ledger, and the authorised signers that the credentials of the service name. How a
credential account stores them does not matter. -/
structure World where
  ledger : Ledger
  signers : Pubkey → List Pubkey

inductive WorldEvent where
  | chain (e : Event)
  | createAttestation (k : Pubkey) (lamports : ℕ) (a : Attestation)
  | changeAuthorizedSigners (credential : Pubkey) (signers : List Pubkey)
  | serviceAccount (k : Pubkey) (a : Account)

/-- The account does not begin as an attestation of the service does. -/
def NoAttestation (a : Account) : Prop := a.data[0]? ≠ some ATTESTATION_DISCRIMINATOR

/-- Accounts of the service are written by the service alone, and an account that another
program hands over to it is zeroed: the runtime sees to both. -/
def RespectsService (S : AttestationService d) (l : Ledger) (e : Event) : Prop :=
  ∀ k a, e = .written k a →
    (l.account k).owner ≠ S.id ∧ (a.owner = S.id → ∀ b ∈ a.data, b = 0)

inductive WorldStep (K : KeysInPlay d) (S : AttestationService d) :
    World → WorldEvent → World → Prop
  /-- The hook program, other programs, donors and the clock. -/
  | chain {w : World} {e : Event} {l' : Ledger} (h : LedgerStep K w.ledger e l')
      (hother : RespectsService S w.ledger e) :
      WorldStep K S w (.chain e) { w with ledger := l' }
  /-- Signed by an authorised signer, at the address for the attestation's own fields. -/
  | createAttestation {w : World} {k : Pubkey} {a : Attestation} {bump : UInt8} (lamports : ℕ)
      (hauthorised : a.signer ∈ w.signers a.credential)
      (hfind : d.findProgramAddress
        (TransferHook.attestationSeeds a.credential a.schema a.nonce) S.id = some (k, bump))
      (hu : (w.ledger.account k).Unallocated) (hforeign : K.ForeignWrite w.ledger k) :
      WorldStep K S w (.createAttestation k lamports a)
        { w with ledger := w.ledger.set k ⟨lamports, S.id, a.serialize⟩ }
  /-- The credential's authority replaces the list. -/
  | changeAuthorizedSigners (w : World) (credential : Pubkey) (signers : List Pubkey) :
      WorldStep K S w (.changeAuthorizedSigners credential signers)
        { w with signers := Function.update w.signers credential signers }
  /-- A credential or a schema is created, changed or closed, or an attestation closed. -/
  | serviceAccount {w : World} {k : Pubkey} {a : Account} (hforeign : K.ForeignWrite w.ledger k)
      (hother : NoAttestation a) :
      WorldStep K S w (.serviceAccount k a) { w with ledger := w.ledger.set k a }

/-- Runs of both programs from before the hook's first instruction and the service's first
attestation. -/
def worldSystem (K : KeysInPlay d) (S : AttestationService d) : System World WorldEvent where
  start w := K.Fresh w.ledger ∧
    ∀ k, (w.ledger.account k).owner = S.id → NoAttestation (w.ledger.account k)
  step := WorldStep K S

variable {K : KeysInPlay d} {S : AttestationService d} {h : List (World × WorldEvent)}
  {w w' : World} {l l' : Ledger} {k : Pubkey}

/-- To the hook program the service is another program. -/
def worldSimulation (K : KeysInPlay d) (S : AttestationService d) :
    Simulation (worldSystem K S) (hookSystem K) where
  view := World.ledger
  label
    | .chain e => some e
    | .createAttestation k lamports a => some (.written k ⟨lamports, S.id, a.serialize⟩)
    | .changeAuthorizedSigners .. => none
    | .serviceAccount k a => some (.written k a)
  view_start _ hs := hs.1
  view_step := by
    rintro _ w e w' - hstep δ hlabel
    cases hstep with
    | chain h _ =>
        obtain rfl := Option.some.inj hlabel
        exact h
    | createAttestation _ _ _ _ hforeign =>
        obtain rfl := Option.some.inj hlabel
        exact .written hforeign _
    | changeAuthorizedSigners => cases hlabel
    | serviceAccount hforeign _ =>
        obtain rfl := Option.some.inj hlabel
        exact .written hforeign _
  view_idle := by
    rintro _ w e w' - hstep hlabel
    cases hstep with
    | changeAuthorizedSigners => rfl
    | _ => cases hlabel

theorem inv_of_world (hr : Reaches (worldSystem K S) h w) : Inv K w.ledger :=
  inv_of_reaches ((worldSimulation K S).reaches hr)

/-! ## Accounts of the service -/

/-- Outside the service nothing makes an attestation of the service. -/
lemma LedgerStep.service_kept {e : Event} (hinv : Inv K l) (hstep : LedgerStep K l e l')
    (hother : RespectsService S l e) (howner : (l'.account k).owner = S.id) :
    SameContent l l' k ∨ NoAttestation (l'.account k) := by
  cases hstep with
  | invoked ha hprocess =>
      have hne : (l'.account k).owner ≠ d.programId := fun heq =>
        S.id_ne_hook (howner.symm.trans heq)
      refine ((effect_of_process hinv ha hprocess).owned_elsewhere hinv ha hne).imp_right ?_
      intro hu
      exact absurd (howner.symm.trans hu.1) S.id_ne_system
  | rejected => exact .inl ⟨rfl, rfl⟩
  | donated => exact .inl (.credit ..)
  | ticked => exact .inl ⟨rfl, rfl⟩
  | @written k₀ _ a =>
      by_cases hk : k = k₀
      · subst hk
        rw [Ledger.account_set_self] at howner ⊢
        refine .inr fun hhead => ?_
        have hzero := (hother k a rfl).2 howner _ (List.mem_of_getElem? hhead)
        cases hzero
      · exact .inl (.set_of_ne hk a)

/-- The account at `k` holds the attestation that this entry of the history created, and
its signer was authorised then. -/
structure Issued (S : AttestationService d) (h : List (World × WorldEvent)) (l : Ledger)
    (k : Pubkey) (a : Attestation) (newer : List (World × WorldEvent)) (w₀ : World) :
    Prop where
  data : (l.account k).data = a.serialize
  find : ∃ bump, d.findProgramAddress
    (TransferHook.attestationSeeds a.credential a.schema a.nonce) S.id = some (k, bump)
  created : ∃ lamports older, h = newer ++ (w₀, .createAttestation k lamports a) :: older
  authorised : a.signer ∈ w₀.signers a.credential

/-- Every account of the service is no attestation or was issued. -/
theorem issued_of_reaches (hr : Reaches (worldSystem K S) h w) (k : Pubkey)
    (howner : (w.ledger.account k).owner = S.id) :
    NoAttestation (w.ledger.account k) ∨ ∃ a newer w₀, Issued S h w.ledger k a newer w₀ := by
  induction hr with
  | start hs => exact .inl (hs.2 k howner)
  | @step h w w' e hr hstep ih =>
      -- an account that the step leaves alone keeps the entry that created it
      have hsame : SameContent w.ledger w'.ledger k → NoAttestation (w'.ledger.account k) ∨
          ∃ a newer w₀, Issued S ((w, e) :: h) w'.ledger k a newer w₀ := by
        rintro ⟨hown, hdata⟩
        refine (ih (hown.symm.trans howner)).imp (fun hno => by rwa [NoAttestation, hdata]) ?_
        rintro ⟨a, newer, w₀, himage, hfind, ⟨lamports, older, rfl⟩, hauthorised⟩
        exact ⟨a, (w, e) :: newer, w₀, hdata.trans himage, hfind, ⟨lamports, older, rfl⟩,
          hauthorised⟩
      cases hstep with
      | chain hledger hother =>
          exact (hledger.service_kept (inv_of_world hr) hother howner).elim hsame .inl
      | @createAttestation k₀ a bump lamports hauthorised hfind =>
          by_cases hk : k = k₀
          · subst hk
            exact .inr ⟨a, [], w, by simp, ⟨bump, hfind⟩, ⟨lamports, h, rfl⟩, hauthorised⟩
          · exact hsame (.set_of_ne hk _)
      | changeAuthorizedSigners => exact hsame ⟨rfl, rfl⟩
      | @serviceAccount k₀ a _ hother =>
          by_cases hk : k = k₀
          · subst hk
            exact .inl (by rwa [Ledger.account_set_self])
          · exact hsame (.set_of_ne hk _)

/-- A signer stays authorised while no change of the list drops it. -/
theorem signer_kept {newer older : List (World × WorldEvent)} {w₀ : World} {e : WorldEvent}
    {credential signer : Pubkey}
    (hr : Reaches (worldSystem K S) (newer ++ (w₀, e) :: older) w)
    (he : ∀ c s, e ≠ .changeAuthorizedSigners c s) (hsigner : signer ∈ w₀.signers credential)
    (hkept : ∀ p ∈ newer, ∀ s, p.2 = .changeAuthorizedSigners credential s → signer ∈ s) :
    signer ∈ w.signers credential := by
  induction newer generalizing w with
  | nil =>
      cases hr with
      | step _ hstep =>
          cases hstep with
          | changeAuthorizedSigners c s => exact absurd rfl (he c s)
          | _ => exact hsigner
  | cons p newer ih =>
      cases hr with
      | step hr hstep =>
          have hold := ih hr fun p hp => hkept p (.tail _ hp)
          cases hstep with
          | changeAuthorizedSigners c s =>
              by_cases hc : credential = c
              · subst hc
                simpa using hkept _ (.head _) s rfl
              · simpa [Function.update_of_ne hc] using hold
          | _ => exact hold

/-! ## What the hook accepts -/

/-- The signer field, behind the payload. -/
def recordedSigner (data : List UInt8) : List UInt8 :=
  (data.drop (101 + TransferHook.dataFieldLen data)).take 32

theorem Attestation.recordedSigner_serialize (x : Attestation) :
    recordedSigner x.serialize = x.signer.bytes := by
  have hlen : TransferHook.dataFieldLen x.serialize = x.data.length :=
    TransferHook.dataFieldLen_attestationBytes x.nonce x.credential x.schema x.signer
      x.length_data x.expiry x.tokenAccount.bytes
  have hsplit : x.serialize = (ATTESTATION_DISCRIMINATOR :: (x.nonce.bytes ++
      (x.credential.bytes ++ (x.schema.bytes ++ (ByteCodec.toLE 4 x.data.length ++ x.data))))) ++
        (x.signer.bytes ++ (ByteCodec.i64ToLE x.expiry ++ x.tokenAccount.bytes)) := by
    simp [serialize, attestationBytes]
  have hfront : (ATTESTATION_DISCRIMINATOR :: (x.nonce.bytes ++ (x.credential.bytes ++
      (x.schema.bytes ++ (ByteCodec.toLE 4 x.data.length ++ x.data))))).length =
        101 + x.data.length := by
    simp [Pubkey.length_bytes]
    omega
  rw [recordedSigner, hlen, hsplit, List.drop_left' hfront]
  exact List.take_left' x.signer.length_bytes

variable {A : AddressesInPlay d} {keys : List Pubkey} {amount : ℕ} {a : TransferHook}
  {config : HookConfig}

/-- Whenever the hook accepts an attestation of the service, whatever the service and the
hook have done in between, the recorded signer was authorised for the configured
credential when the attestation was created, and it still is unless a change of the list
has dropped it since. -/
theorem accepted_issuer_was_authorised (hr : Reaches (worldSystem K S) h w)
    (hacc : AcceptedByAttestation d w.ledger keys amount a config)
    (hsas : config.sasProgram = S.id)
    (hconfigured : (.attestation config.credential config.schema a.transferAuthority, S.id) ∈
      A.addresses)
    (hcreated : ∀ p ∈ h, ∀ k n x, p.2 = .createAttestation k n x →
      (.attestation x.credential x.schema x.nonce, S.id) ∈ A.addresses) :
    ∃ x newer w₀ lamports older,
      h = newer ++ (w₀, .createAttestation a.attestation lamports x) :: older ∧
      (w.ledger.account a.attestation).data = x.serialize ∧
      recordedSigner (w.ledger.account a.attestation).data = x.signer.bytes ∧
      x.nonce = a.transferAuthority ∧ x.credential = config.credential ∧
      x.schema = config.schema ∧ x.signer ∈ w₀.signers config.credential ∧
      ((∀ p ∈ newer, ∀ s, p.2 = .changeAuthorizedSigners config.credential s → x.signer ∈ s) →
        x.signer ∈ w.signers config.credential) := by
  obtain ⟨⟨bump, hfind⟩, howner, n, e, hattestation⟩ := hacc.checked
  rw [hsas] at hfind howner
  rcases issued_of_reaches hr a.attestation howner with hno | ⟨x, newer, w₀, hissued⟩
  · obtain ⟨_, _, _, _, _, _, -, -, -, hdata⟩ := hattestation
    exact absurd (by rw [hdata]; rfl) hno
  · obtain ⟨hdata, ⟨bump', hfind'⟩, ⟨lamports, older, rfl⟩, hauthorised⟩ := hissued
    obtain ⟨hseeds, -, -⟩ := A.create_injective
      (s := .attestation x.credential x.schema x.nonce)
      (hcreated _ (List.mem_append_right _ (.head _)) _ _ _ rfl) hconfigured
      (Host.createProgramAddress_of_find hfind') (Host.createProgramAddress_of_find hfind)
    obtain ⟨hcredential, hschema, hnonce⟩ := PdaSeeds.attestation.inj hseeds
    rw [hcredential] at hauthorised
    exact ⟨x, newer, w₀, lamports, older, rfl, hdata,
      by rw [hdata, x.recordedSigner_serialize], hnonce, hcredential, hschema, hauthorised,
      signer_kept hr (fun _ _ heq => by cases heq) hauthorised⟩

namespace SasChain
open LocalChain

def service : AttestationService chain := ⟨rule.sasProgram, by decide, by decide⟩

/-- Before either program's first instruction. -/
def start : World := ⟨genesis, fun _ => []⟩

theorem start_worldSystem : (worldSystem keysInPlay service).start start :=
  ⟨fresh_genesis, fun k howner => absurd howner (genesis_owner_ne k)⟩

lemma respectsService_invoked (l : Ledger) (c : Call) :
    RespectsService service l (.invoked c) := by
  intro k a heq
  cases heq

/-- The mint is configured and the credential's list set. -/
def enrolled : World :=
  ⟨configured, Function.update (fun _ => []) rule.credential [successor]⟩

/-- The signer on the list has attested the wallet. -/
def issued : World :=
  ⟨attested (issuedBy successor), enrolled.signers⟩

/-- The list now names somebody else. -/
def rotated : World :=
  ⟨issued.ledger, Function.update issued.signers rule.credential [holder]⟩

def issuedHistory : List (World × WorldEvent) :=
  [(enrolled, .createAttestation attestationKey 2000000 (issuedBy successor)),
    (⟨configured, fun _ => []⟩, .changeAuthorizedSigners rule.credential [successor]),
    (start, .chain (.invoked initializeConfigCall))]

set_option maxRecDepth 4000 in
theorem reaches_issued :
    Reaches (worldSystem keysInPlay service) issuedHistory issued := by
  have hvacant : (configured.account attestationKey).Unallocated := by decide +kernel
  have hforeign : keysInPlay.ForeignWrite configured attestationKey :=
    ⟨fun howner => chain.programId_ne (howner.symm.trans hvacant.1),
      fun _ => attestationKey_not_derived⟩
  have hconfigured : Reaches (worldSystem keysInPlay service)
      [(start, .chain (.invoked initializeConfigCall))] ⟨configured, fun _ => []⟩ :=
    .step (.start start_worldSystem)
      (.chain (.invoked admissible_initializeConfig process_initializeConfig)
        (respectsService_invoked genesis initializeConfigCall))
  have henrolled := hconfigured.step (.changeAuthorizedSigners _ rule.credential [successor])
  have hlist : enrolled.signers rule.credential = [successor] := by
    unfold enrolled
    simp only [Function.update_self]
  have hsigner : (issuedBy successor).signer ∈
      enrolled.signers (issuedBy successor).credential := by
    rw [issuedBy_credential, issuedBy_signer, hlist]
    exact List.mem_singleton.mpr rfl
  exact henrolled.step (.createAttestation 2000000 hsigner find_attestation hvacant hforeign)

theorem reaches_rotated : Reaches (worldSystem keysInPlay service)
    ((issued, .changeAuthorizedSigners rule.credential [holder]) :: issuedHistory) rotated :=
  reaches_issued.step (.changeAuthorizedSigners issued rule.credential [holder])

end SasChain

/-- The service of the local chain has attested the wallet. -/
theorem accepted_issuer_was_authorised_issued :
    ∃ x newer w₀ lamports older,
      SasChain.issuedHistory =
        newer ++ (w₀, .createAttestation SasChain.execute.attestation lamports x) :: older ∧
      (SasChain.issued.ledger.account SasChain.execute.attestation).data = x.serialize ∧
      recordedSigner (SasChain.issued.ledger.account SasChain.execute.attestation).data =
        x.signer.bytes ∧
      x.nonce = SasChain.execute.transferAuthority ∧
      x.credential = LocalChain.firstConfig.credential ∧
      x.schema = LocalChain.firstConfig.schema ∧
      x.signer ∈ w₀.signers LocalChain.firstConfig.credential ∧
      ((∀ p ∈ newer, ∀ s,
          p.2 = .changeAuthorizedSigners LocalChain.firstConfig.credential s → x.signer ∈ s) →
        x.signer ∈ SasChain.issued.signers LocalChain.firstConfig.credential) :=
  accepted_issuer_was_authorised (A := SasChain.addressesInPlay) SasChain.reaches_issued
    SasChain.accepted_issued rfl SasChain.attestation_mem (by
      intro p hp k n x hx
      simp only [SasChain.issuedHistory, List.mem_cons, List.not_mem_nil, or_false] at hp
      rcases hp with rfl | rfl | rfl
      · cases hx
        exact SasChain.attestation_mem
      · cases hx
      · cases hx)

/-- After the list has been replaced the hook still accepts the attestation, whose signer
is no longer on it. -/
theorem dropped_issuer_accepted :
    ∃ h, Reaches (worldSystem SasChain.keysInPlay SasChain.service) h SasChain.rotated ∧
      LocalChain.firstConfig.sasProgram = SasChain.service.id ∧
      AcceptedByAttestation SasChain.chain SasChain.rotated.ledger SasChain.executeKeys 25
        SasChain.execute LocalChain.firstConfig ∧
      recordedSigner (SasChain.rotated.ledger.account SasChain.execute.attestation).data =
        LocalChain.successor.bytes ∧
      SasChain.rotated.signers LocalChain.firstConfig.credential = [LocalChain.holder] ∧
      LocalChain.successor ∉ SasChain.rotated.signers LocalChain.firstConfig.credential := by
  have hsigners : SasChain.rotated.signers LocalChain.firstConfig.credential =
      [LocalChain.holder] := by
    unfold SasChain.rotated
    exact Function.update_self (β := fun _ => List Pubkey) LocalChain.rule.credential _
      SasChain.issued.signers
  have hdata : (SasChain.rotated.ledger.account SasChain.execute.attestation).data =
      (SasChain.issuedBy LocalChain.successor).serialize := by
    simp [SasChain.rotated, SasChain.issued, SasChain.attested, SasChain.execute]
  refine ⟨_, SasChain.reaches_rotated, rfl, SasChain.accepted_issued, ?_, hsigners, ?_⟩
  · rw [hdata, Attestation.recordedSigner_serialize, SasChain.issuedBy_signer]
  · rw [hsigners]
    decide

end AlienIdTransferHook

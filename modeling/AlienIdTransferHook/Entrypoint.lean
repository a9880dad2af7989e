import AlienIdTransferHook.Runs
import AlienIdTransferHook.TagDispatch

/-!
# From bytes to instructions

The dispatch that Anchor generates for `#[program]`. Instruction data names a handler
with its first eight bytes; the handler reads its arguments from the rest and ignores
what follows them. Apart from the instructions that Anchor adds for the IDL account, the
runs of the program on bytes reach the same ledgers as its runs on instructions.
-/
namespace AlienIdTransferHook
open Solana History ByteCodec WireFields TagDispatch

/-! ## Instruction data -/

namespace Instruction

/-- The start of SHA-256 of "global:initialize_config", and so for the next five. -/
def INITIALIZE_CONFIG : List UInt8 := [208, 127, 21, 1, 194, 190, 196, 70]
def UPDATE_CONFIG : List UInt8 := [29, 158, 252, 191, 10, 83, 219, 99]
def ADD_TO_WHITELIST : List UInt8 := [157, 211, 52, 54, 144, 81, 5, 55]
def REMOVE_FROM_WHITELIST : List UInt8 := [7, 144, 216, 239, 243, 236, 193, 235]
def TRANSFER_AUTHORITY : List UInt8 := [48, 169, 76, 72, 229, 180, 55, 161]
def ACCEPT_AUTHORITY : List UInt8 := [107, 86, 198, 91, 33, 12, 107, 160]

/-- The interface's own, the start of SHA-256 of
"spl-transfer-hook-interface:initialize-extra-account-metas". -/
def INITIALIZE_EXTRA_ACCOUNT_META_LIST : List UInt8 := [43, 34, 13, 49, 167, 88, 235, 235]

/-- The start of SHA-256 of "spl-transfer-hook-interface:execute". -/
def EXECUTE : List UInt8 := [105, 37, 101, 197, 75, 251, 102, 26]

def discriminator : Instruction → List UInt8
  | initializeConfig .. => INITIALIZE_CONFIG
  | updateConfig .. => UPDATE_CONFIG
  | addToWhitelist _ => ADD_TO_WHITELIST
  | removeFromWhitelist _ => REMOVE_FROM_WHITELIST
  | transferAuthority => TRANSFER_AUTHORITY
  | acceptAuthority => ACCEPT_AUTHORITY
  | initializeExtraAccountMetaList => INITIALIZE_EXTRA_ACCOUNT_META_LIST
  | transferHook _ => EXECUTE

/-- The Borsh encoding of the arguments. -/
def args : Instruction → List UInt8
  | initializeConfig credential schema sasProgram | updateConfig credential schema sasProgram =>
      credential.bytes ++ (schema.bytes ++ sasProgram.bytes)
  | addToWhitelist wallet | removeFromWhitelist wallet => wallet.bytes
  | transferHook amount => toLE 8 amount
  | transferAuthority | acceptAuthority | initializeExtraAccountMetaList => []

/-- `InstructionData::data`, what every client sends. -/
def data (i : Instruction) : List UInt8 := i.discriminator ++ i.args

/-- The amount is a `u64`. -/
def WellFormed : Instruction → Prop
  | transferHook amount => amount < 2 ^ 64
  | _ => True

end Instruction

/-! ## The handlers -/

lemma exact_readPubkey : Exact readPubkey fun k bytes => bytes = k.bytes := by
  intro bs k rest
  constructor
  · intro h
    unfold readPubkey at h
    split_ifs at h
    obtain ⟨rfl, rfl⟩ := Prod.mk.inj (Option.some.inj h)
    exact ⟨bs.take 32, rfl, (List.take_append_drop 32 bs).symm⟩
  · rintro ⟨_, rfl, rfl⟩
    exact readPubkey_append k rest

/-- Three keys. -/
def readRule : Reader (Pubkey × Pubkey × Pubkey) :=
  andThen readPubkey (andThen readPubkey readPubkey)

lemma exact_readRule : Exact readRule fun r bytes =>
    bytes = r.1.bytes ++ (r.2.1.bytes ++ r.2.2.bytes) := by
  intro bs r rest
  rw [readRule, (exact_readPubkey.andThen (exact_readPubkey.andThen exact_readPubkey)) bs r rest]
  constructor
  · rintro ⟨_, ⟨_, _, rfl, ⟨_, _, rfl, rfl, rfl⟩, rfl⟩, rfl⟩
    exact ⟨_, rfl, rfl⟩
  · rintro ⟨_, rfl, rfl⟩
    exact ⟨_, ⟨_, _, rfl, ⟨_, _, rfl, rfl, rfl⟩, rfl⟩, rfl⟩

namespace Handlers

/-- A handler without arguments. -/
def plain (tag : List UInt8) (i : Instruction) : Handler Instruction :=
  ⟨tag, always i, _, .always i⟩

/-- A handler for a wallet. -/
def forWallet (tag : List UInt8) (f : Pubkey → Instruction) : Handler Instruction :=
  ⟨tag, mapTo f readPubkey, _, exact_readPubkey.mapTo f⟩

/-- A handler for a credential, a schema and a SAS program. -/
def forRule (tag : List UInt8) (f : Pubkey → Pubkey → Pubkey → Instruction) :
    Handler Instruction :=
  ⟨tag, mapTo (fun r => f r.1 r.2.1 r.2.2) readRule, _, exact_readRule.mapTo _⟩

def initializeConfig : Handler Instruction :=
  forRule Instruction.INITIALIZE_CONFIG .initializeConfig

def updateConfig : Handler Instruction := forRule Instruction.UPDATE_CONFIG .updateConfig

def addToWhitelist : Handler Instruction :=
  forWallet Instruction.ADD_TO_WHITELIST .addToWhitelist

def removeFromWhitelist : Handler Instruction :=
  forWallet Instruction.REMOVE_FROM_WHITELIST .removeFromWhitelist

def transferAuthority : Handler Instruction :=
  plain Instruction.TRANSFER_AUTHORITY .transferAuthority

def acceptAuthority : Handler Instruction :=
  plain Instruction.ACCEPT_AUTHORITY .acceptAuthority

def initializeExtraAccountMetaList : Handler Instruction :=
  plain Instruction.INITIALIZE_EXTRA_ACCOUNT_META_LIST .initializeExtraAccountMetaList

def transferHook : Handler Instruction :=
  ⟨Instruction.EXECUTE, mapTo .transferHook (readLE 8), _, (Exact.readLE 8).mapTo _⟩

/-- In the order of the module's functions. -/
def all : List (Handler Instruction) :=
  [initializeConfig, updateConfig, addToWhitelist, removeFromWhitelist, transferAuthority,
    acceptAuthority, initializeExtraAccountMetaList, transferHook]

lemma width_all : ∀ h ∈ all, h.tag.length = 8 := by
  simp [all, initializeConfig, updateConfig, addToWhitelist, removeFromWhitelist,
    transferAuthority, acceptAuthority, initializeExtraAccountMetaList, transferHook, plain,
    forWallet, forRule, Instruction.INITIALIZE_CONFIG, Instruction.UPDATE_CONFIG,
    Instruction.ADD_TO_WHITELIST, Instruction.REMOVE_FROM_WHITELIST,
    Instruction.TRANSFER_AUTHORITY, Instruction.ACCEPT_AUTHORITY,
    Instruction.INITIALIZE_EXTRA_ACCOUNT_META_LIST, Instruction.EXECUTE]

lemma nodup_all : (all.map Handler.tag).Nodup := by
  change [Instruction.INITIALIZE_CONFIG, Instruction.UPDATE_CONFIG,
    Instruction.ADD_TO_WHITELIST, Instruction.REMOVE_FROM_WHITELIST,
    Instruction.TRANSFER_AUTHORITY, Instruction.ACCEPT_AUTHORITY,
    Instruction.INITIALIZE_EXTRA_ACCOUNT_META_LIST, Instruction.EXECUTE].Nodup
  decide

lemma plain_encodes {tag bs : List UInt8} {i i' : Instruction} :
    (∃ bytes, (plain tag i).Encodes i' bytes ∧ (plain tag i).tag ++ bytes = bs) ↔
      i' = i ∧ tag = bs := by
  constructor
  · rintro ⟨_, ⟨rfl, rfl⟩, rfl⟩
    exact ⟨rfl, (List.append_nil tag).symm⟩
  · rintro ⟨rfl, rfl⟩
    exact ⟨[], ⟨rfl, rfl⟩, List.append_nil tag⟩

lemma forWallet_encodes {tag bs : List UInt8} {f : Pubkey → Instruction} {i : Instruction} :
    (∃ bytes, (forWallet tag f).Encodes i bytes ∧ (forWallet tag f).tag ++ bytes = bs) ↔
      ∃ w, f w = i ∧ tag ++ w.bytes = bs := by
  constructor
  · rintro ⟨_, ⟨w, hw, rfl⟩, rfl⟩
    exact ⟨w, hw, rfl⟩
  · rintro ⟨w, hw, rfl⟩
    exact ⟨_, ⟨w, hw, rfl⟩, rfl⟩

lemma forRule_encodes {tag bs : List UInt8} {f : Pubkey → Pubkey → Pubkey → Instruction}
    {i : Instruction} :
    (∃ bytes, (forRule tag f).Encodes i bytes ∧ (forRule tag f).tag ++ bytes = bs) ↔
      ∃ c s p, f c s p = i ∧ tag ++ (c.bytes ++ (s.bytes ++ p.bytes)) = bs := by
  constructor
  · rintro ⟨_, ⟨⟨c, s, p⟩, hr, rfl⟩, rfl⟩
    exact ⟨c, s, p, hr, rfl⟩
  · rintro ⟨c, s, p, hr, rfl⟩
    exact ⟨_, ⟨(c, s, p), hr, rfl⟩, rfl⟩

lemma transferHook_encodes {bs : List UInt8} {i : Instruction} :
    (∃ bytes, transferHook.Encodes i bytes ∧ transferHook.tag ++ bytes = bs) ↔
      ∃ n, .transferHook n = i ∧ n < 2 ^ 64 ∧ Instruction.EXECUTE ++ toLE 8 n = bs := by
  constructor
  · rintro ⟨_, ⟨n, hn, hlt, rfl⟩, rfl⟩
    exact ⟨n, hn, by simpa using hlt, rfl⟩
  · rintro ⟨n, hn, hlt, rfl⟩
    exact ⟨_, ⟨n, hn, by simpa using hlt, rfl⟩, rfl⟩

/-- The handlers read the data of the well-formed instructions. -/
lemma encodes_iff {i : Instruction} {bs : List UInt8} :
    (∃ h ∈ all, ∃ bytes, h.Encodes i bytes ∧ h.tag ++ bytes = bs) ↔
      i.WellFormed ∧ i.data = bs := by
  simp only [all, List.mem_cons, List.not_mem_nil, or_false, exists_eq_or_imp,
    exists_eq_left, initializeConfig, updateConfig, addToWhitelist, removeFromWhitelist,
    transferAuthority, acceptAuthority, initializeExtraAccountMetaList, plain_encodes,
    forWallet_encodes, forRule_encodes, transferHook_encodes]
  cases i <;> simp [Instruction.WellFormed, Instruction.data, Instruction.discriminator,
    Instruction.args]

end Handlers

/-! ## Dispatch -/

inductive DispatchError where
  | instructionDidNotDeserialize | eventInstructionStub | instructionFallbackNotFound
  deriving DecidableEq

/-- An instruction of the module, or one of those that Anchor adds for the IDL account. -/
inductive Target where
  | instruction (i : Instruction)
  | idl
  deriving DecidableEq

/-- `IDL_IX_TAG_LE`. -/
def IDL_IX_TAG_LE : List UInt8 := [64, 244, 188, 120, 167, 233, 105, 10]

/-- `EVENT_IX_TAG_LE`. -/
def EVENT_IX_TAG_LE : List UInt8 := [228, 69, 165, 46, 81, 203, 154, 29]

def dispatch (data : List UInt8) : Except DispatchError Target :=
  match lookup Handlers.all data with
  | some h =>
      match h.read (data.drop h.tag.length) with
      | some (i, _) => .ok (.instruction i)
      | none => .error .instructionDidNotDeserialize
  | none =>
      if IDL_IX_TAG_LE.isPrefixOf data then .ok .idl
      else if EVENT_IX_TAG_LE.isPrefixOf data then .error .eventInstructionStub
      else .error .instructionFallbackNotFound

lemma dispatch_eq_instruction {data : List UInt8} {i : Instruction} :
    dispatch data = .ok (.instruction i) ↔ i.WellFormed ∧ i.data <+: data := by
  have hdispatch : dispatch data = .ok (.instruction i) ↔
      ∃ h rest, lookup Handlers.all data = some h ∧
        h.read (data.drop h.tag.length) = some (i, rest) := by
    unfold dispatch
    cases hfound : lookup Handlers.all data with
    | none => split_ifs <;> simp [*]
    | some h =>
        cases hargs : h.read (data.drop h.tag.length) with
        | none => simp [hargs]
        | some r => obtain ⟨i', rest⟩ := r; simp [hargs]
  rw [hdispatch, lookup_read Handlers.width_all Handlers.nodup_all]
  constructor
  · rintro ⟨h, hmem, bytes, hbytes, hprefix⟩
    obtain ⟨hwell, hdata⟩ := Handlers.encodes_iff.mp ⟨h, hmem, bytes, hbytes, rfl⟩
    exact ⟨hwell, hdata ▸ hprefix⟩
  · rintro ⟨hwell, hprefix⟩
    obtain ⟨h, hmem, bytes, hbytes, hdata⟩ := Handlers.encodes_iff.mpr ⟨hwell, rfl⟩
    exact ⟨h, hmem, bytes, hbytes, hdata ▸ hprefix⟩

/-- The tags of the table are the discriminators. -/
lemma exists_tag {P : List UInt8 → Prop} :
    (∃ h ∈ Handlers.all, P h.tag) ↔ ∃ i : Instruction, P i.discriminator := by
  constructor
  · rintro ⟨h, hmem, hP⟩
    simp only [Handlers.all, List.mem_cons, List.not_mem_nil, or_false] at hmem
    let k := Pubkey.default
    rcases hmem with rfl | rfl | rfl | rfl | rfl | rfl | rfl | rfl
    exacts [⟨.initializeConfig k k k, hP⟩, ⟨.updateConfig k k k, hP⟩, ⟨.addToWhitelist k, hP⟩,
      ⟨.removeFromWhitelist k, hP⟩, ⟨.transferAuthority, hP⟩, ⟨.acceptAuthority, hP⟩,
      ⟨.initializeExtraAccountMetaList, hP⟩, ⟨.transferHook 0, hP⟩]
  · rintro ⟨i, hP⟩
    have hmem : ∀ h, h ∈ Handlers.all → h.tag = i.discriminator →
        ∃ h ∈ Handlers.all, P h.tag := fun h hmem htag => ⟨h, hmem, htag ▸ hP⟩
    cases i with
    | initializeConfig => exact hmem Handlers.initializeConfig (by simp [Handlers.all]) rfl
    | updateConfig => exact hmem Handlers.updateConfig (by simp [Handlers.all]) rfl
    | addToWhitelist => exact hmem Handlers.addToWhitelist (by simp [Handlers.all]) rfl
    | removeFromWhitelist => exact hmem Handlers.removeFromWhitelist (by simp [Handlers.all]) rfl
    | transferAuthority => exact hmem Handlers.transferAuthority (by simp [Handlers.all]) rfl
    | acceptAuthority => exact hmem Handlers.acceptAuthority (by simp [Handlers.all]) rfl
    | initializeExtraAccountMetaList =>
        exact hmem Handlers.initializeExtraAccountMetaList (by simp [Handlers.all]) rfl
    | transferHook => exact hmem Handlers.transferHook (by simp [Handlers.all]) rfl

/-- The program executes an instruction exactly on its data followed by any bytes. Data with
the discriminator of an instruction and too few bytes after it does not deserialize, and
data with no discriminator executes nothing of the module. -/
theorem dispatch_exact (data : List UInt8) :
    (∀ i, dispatch data = .ok (.instruction i) ↔ i.WellFormed ∧ i.data <+: data) ∧
    (dispatch data = .error .instructionDidNotDeserialize ↔
      (∃ i : Instruction, i.discriminator <+: data) ∧
        ∀ i : Instruction, i.WellFormed → ¬ i.data <+: data) ∧
    ((∀ i : Instruction, ¬ i.discriminator <+: data) ↔ dispatch data = .ok .idl ∨
      dispatch data = .error .eventInstructionStub ∨
      dispatch data = .error .instructionFallbackNotFound) := by
  have hok : ∀ i, dispatch data = .ok (.instruction i) ↔ i.WellFormed ∧ i.data <+: data :=
    fun _ => dispatch_eq_instruction
  have hnone : lookup Handlers.all data = none ↔
      ∀ i : Instruction, ¬ i.discriminator <+: data := by
    rw [lookup_eq_none]
    simpa using not_congr (exists_tag (P := (· <+: data)))
  refine ⟨hok, ?_, ?_⟩
  · have hex : (∃ i : Instruction, i.discriminator <+: data) ↔
        lookup Handlers.all data ≠ none := by
      rw [Ne, hnone]
      push Not
      rfl
    have hall : (∀ i : Instruction, i.WellFormed → ¬ i.data <+: data) ↔
        ∀ i, dispatch data ≠ .ok (.instruction i) := by
      apply forall_congr'
      intro i
      rw [Ne, hok i, not_and]
    rw [hex, hall]
    unfold dispatch
    cases hfound : lookup Handlers.all data with
    | none => simp only [ne_eq, not_true_eq_false, false_and, iff_false]; split_ifs <;> simp
    | some h =>
        cases hargs : h.read (data.drop h.tag.length) with
        | none => simp [hargs]
        | some r => obtain ⟨i, rest⟩ := r; simp [hargs]
  · rw [← hnone]
    unfold dispatch
    cases hfound : lookup Handlers.all data with
    | none => simp only [true_iff]; split_ifs <;> simp
    | some h =>
        cases hargs : h.read (data.drop h.tag.length) with
        | none => simp [hargs]
        | some r => obtain ⟨i, rest⟩ := r; simp [hargs]

example : dispatch (Instruction.transferHook 25).data = .ok (.instruction (.transferHook 25)) := by
  decide

/-! ## Runs on bytes -/

/-- An instruction as a transaction carries it, with any data but that of Anchor's own
instructions for the IDL account. The build has those, too, as `no-idl` is off: they
create, write and close accounts of the program that are no records. -/
structure RawInstruction where
  data : List UInt8
  accounts : List Pubkey
  privileges : Privileges
  not_idl : dispatch data ≠ .ok .idl

def RawInstruction.call (r : RawInstruction) (i : Instruction) : Call :=
  ⟨i, r.accounts, r.privileges⟩

inductive RawEvent where
  | sent (r : RawInstruction)
  | outside (e : Event)

/-- What happens without a call of the program. -/
def Event.Outside : Event → Prop
  | .donated .. | .written .. | .ticked _ => True
  | _ => False

variable {d : Deployment} {K : KeysInPlay d} {l l' : Ledger}

/-- The steps of the program on bytes. -/
inductive RawStep (K : KeysInPlay d) : Ledger → RawEvent → Ledger → Prop
  | executed {l l' : Ledger} {r : RawInstruction} {i : Instruction}
      (hd : dispatch r.data = .ok (.instruction i)) (ha : (r.call i).Admissible K)
      (h : (r.call i).process d l = .ok l') : RawStep K l (.sent r) l'
  | failed {l : Ledger} {r : RawInstruction} {i : Instruction} {e : ProgramError}
      (hd : dispatch r.data = .ok (.instruction i)) (h : (r.call i).process d l = .error e) :
      RawStep K l (.sent r) l
  | refused {l : Ledger} {r : RawInstruction} {e : DispatchError}
      (hd : dispatch r.data = .error e) : RawStep K l (.sent r) l
  | outside {l l' : Ledger} {e : Event} (he : e.Outside) (h : LedgerStep K l e l') :
      RawStep K l (.outside e) l'

def rawSystem (K : KeysInPlay d) : System Ledger RawEvent where
  start := K.Fresh
  step := RawStep K

/-- A step on bytes is a step of the program or changes nothing. -/
lemma RawStep.ledgerStep {e : RawEvent} (h : RawStep K l e l') :
    (∃ e', LedgerStep K l e' l') ∨ l' = l := by
  cases h with
  | executed _ ha h => exact .inl ⟨_, .invoked ha h⟩
  | failed _ h => exact .inl ⟨_, .rejected h⟩
  | refused _ => exact .inr rfl
  | outside _ h => exact .inl ⟨_, h⟩

/-- What is no `u64` reaches no handler, but then the hook changes nothing either. -/
lemma LedgerStep.rawStep {e : Event} (h : LedgerStep K l e l') :
    (∃ e', RawStep K l e' l') ∨ l' = l := by
  cases h with
  | invoked ha h =>
      rename_i c
      by_cases hwell : c.instruction.WellFormed
      · have hd : dispatch c.instruction.data = .ok (.instruction c.instruction) :=
          dispatch_eq_instruction.mpr ⟨hwell, List.prefix_rfl⟩
        have hidl : dispatch c.instruction.data ≠ .ok .idl := by
          rw [hd]
          simp
        exact .inl ⟨.sent ⟨c.instruction.data, c.accounts, c.privileges, hidl⟩,
          .executed hd ha h⟩
      · obtain ⟨i, keys, p⟩ := c
        cases i with
        | transferHook amount =>
            obtain ⟨l₁, hrun, hcommit⟩ := bind_eq_ok.mp h
            obtain ⟨⟨⟩, -, hl₁⟩ := bind_eq_ok.mp hrun
            obtain rfl := pure_eq_ok.mp hl₁
            exact .inr (commit_eq_ok.mp hcommit).2.symm
        | _ => exact absurd trivial hwell
  | rejected => exact .inr rfl
  | donated k n => exact .inl ⟨.outside (.donated k n), .outside trivial (.donated l k n)⟩
  | @written k hf a => exact .inl ⟨.outside (.written k a), .outside trivial (.written hf a)⟩
  | ticked t => exact .inl ⟨.outside (.ticked t), .outside trivial (.ticked l t)⟩

/-- Whatever is sent has an outcome. -/
lemma RawInstruction.exists_step (r : RawInstruction) (l : Ledger)
    (ha : ∀ i, dispatch r.data = .ok (.instruction i) → (r.call i).Admissible K) :
    ∃ l', RawStep K l (.sent r) l' := by
  cases hd : dispatch r.data with
  | error e => exact ⟨l, .refused hd⟩
  | ok target =>
      cases target with
      | idl => exact absurd hd r.not_idl
      | instruction i =>
          cases h : (r.call i).process d l with
          | ok l' => exact ⟨l', .executed hd (ha i hd) h⟩
          | error e => exact ⟨l, .failed hd h⟩

/-- The program on bytes, but for those of the IDL instructions, reaches exactly the ledgers
that the program on instructions reaches, so what holds in every reachable state holds
whatever such bytes are sent; and whatever is sent has an outcome. -/
theorem raw_reaches_iff (K : KeysInPlay d) (l : Ledger) :
    ((∃ h, Reaches (rawSystem K) h l) ↔ ∃ h, Reaches (hookSystem K) h l) ∧
      ∀ r : RawInstruction,
        (∀ i, dispatch r.data = .ok (.instruction i) → (r.call i).Admissible K) →
          ∃ l', RawStep K l (.sent r) l' := by
  refine ⟨?_, fun r => r.exists_step l⟩
  constructor
  · rintro ⟨h, hr⟩
    induction hr with
    | start hs => exact ⟨[], .start hs⟩
    | step _ he ih =>
        obtain ⟨h', hr'⟩ := ih
        rcases RawStep.ledgerStep he with ⟨e', he'⟩ | rfl
        · exact ⟨_, hr'.step he'⟩
        · exact ⟨h', hr'⟩
  · rintro ⟨h, hr⟩
    induction hr with
    | start hs => exact ⟨[], .start hs⟩
    | step _ he ih =>
        obtain ⟨h', hr'⟩ := ih
        rcases LedgerStep.rawStep he with ⟨e', he'⟩ | rfl
        · exact ⟨_, hr'.step he'⟩
        · exact ⟨h', hr'⟩

namespace LocalChain

lemma dispatch_addToWhitelist : dispatch ((Instruction.addToWhitelist wallet).data ++ [7]) =
    .ok (.instruction (.addToWhitelist wallet)) :=
  dispatch_eq_instruction.mpr ⟨trivial, List.prefix_append _ _⟩

/-- The third call as bytes, with one byte too many. -/
def addToWhitelistRaw : RawInstruction where
  data := (Instruction.addToWhitelist wallet).data ++ [7]
  accounts := addToWhitelistCall.accounts
  privileges := addToWhitelistCall.privileges
  not_idl := by
    rw [dispatch_addToWhitelist]
    simp

end LocalChain

open LocalChain in
/-- The published state, where the bytes of the third call are sent next. -/
theorem raw_reaches_iff_published :
    ((∃ h, Reaches (rawSystem keysInPlay) h published) ↔
      ∃ h, Reaches (hookSystem keysInPlay) h published) ∧
      ∃ l', RawStep keysInPlay published (.sent addToWhitelistRaw) l' := by
  obtain ⟨hreaches, hsent⟩ := raw_reaches_iff keysInPlay published
  refine ⟨hreaches, hsent addToWhitelistRaw fun i hi => ?_⟩
  have heq := dispatch_addToWhitelist.symm.trans hi
  obtain rfl : Instruction.addToWhitelist wallet = i := by simpa using heq
  exact admissible_addToWhitelist

end AlienIdTransferHook

import AlienIdTransferHook.TransferHook

/-!
# The attestation layout

What the hook's reader accepts, byte for byte, and the accounts of the attestation
service as the reader meets them.
-/
namespace AlienIdTransferHook
open Solana ByteCodec

/-- An `Attestation` account of the service; a payload length fits in a `u32`. -/
structure Attestation where
  nonce : Pubkey
  credential : Pubkey
  schema : Pubkey
  data : List UInt8
  signer : Pubkey
  expiry : ℤ
  tokenAccount : Pubkey
  length_data : data.length < 2 ^ 32
  isI64_expiry : IsI64 expiry

/-- The fields up to the expiry, in order and after the discriminator. -/
def attestationBytes (nonce credential schema : Pubkey) (payload : List UInt8)
    (signer : Pubkey) (expiry : ℤ) : List UInt8 :=
  ATTESTATION_DISCRIMINATOR :: (nonce.bytes ++ (credential.bytes ++ (schema.bytes ++
    (toLE 4 payload.length ++ (payload ++ (signer.bytes ++ i64ToLE expiry))))))

def Attestation.serialize (a : Attestation) : List UInt8 :=
  attestationBytes a.nonce a.credential a.schema a.data a.signer a.expiry ++
    a.tokenAccount.bytes

/-- `data` begins with an attestation with a payload of `n` bytes and expiry `e`. -/
def IsAttestation (data : List UInt8) (n : ℕ) (e : ℤ) : Prop :=
  ∃ nonce credential schema signer payload rest, payload.length = n ∧ n < 2 ^ 32 ∧ IsI64 e ∧
    data = attestationBytes nonce credential schema payload signer e ++ rest

theorem Attestation.isAttestation (a : Attestation) (padding : List UInt8) :
    IsAttestation (a.serialize ++ padding) a.data.length a.expiry :=
  ⟨a.nonce, a.credential, a.schema, a.signer, a.data, a.tokenAccount.bytes ++ padding, rfl,
    a.length_data, a.isI64_expiry, by rw [serialize, List.append_assoc]⟩

namespace TransferHook

/-- The payload length that the data states. -/
def dataFieldLen (data : List UInt8) : ℕ := fromLE ((data.drop 97).take 4)

def expiryOffset (data : List UInt8) : ℕ := 97 + 4 + dataFieldLen data + 32

lemma dataFieldLen_lt (data : List UInt8) : dataFieldLen data < 2 ^ 32 := by
  have hlt := fromLE_lt ((data.drop 97).take 4)
  have hlen : ((data.drop 97).take 4).length ≤ 4 := List.length_take_le _ _
  calc dataFieldLen data < 256 ^ ((data.drop 97).take 4).length := hlt
    _ ≤ 256 ^ 4 := Nat.pow_le_pow_right (by norm_num) hlen
    _ = 2 ^ 32 := by norm_num

/-- The four checks of the reader amount to one bound and the discriminator; none of
its slices, conversions and additions can fail. -/
theorem readExpiry_eq (data : List UInt8) :
    readExpiry data =
      if data[0]? = some ATTESTATION_DISCRIMINATOR ∧ expiryOffset data + 8 ≤ data.length then
        .ok (i64FromLE ((data.drop (expiryOffset data)).take 8))
      else .error TransferHookError.InvalidAttestation.toError := by
  have hword := dataFieldLen_lt data
  have hoffset : expiryOffset data = 101 + dataFieldLen data + 32 := rfl
  unfold readExpiry
  by_cases hone : data.length > 1
  swap
  · rw [require_neg hone, error_bind, if_neg (by omega)]
  obtain ⟨b, hb⟩ : ∃ b, data[0]? = some b := ⟨_, List.getElem?_eq_getElem (by omega)⟩
  rw [require_pos hone, ok_bind, index_of_some hb, ok_bind, hb]
  by_cases hdisc : b = ATTESTATION_DISCRIMINATOR
  swap
  · rw [require_neg hdisc, error_bind, if_neg (fun h => hdisc (Option.some.inj h.1))]
  have hadd : usizeAdd (1 + 32 + 32 + 32) 4 = .ok 101 := rfl
  rw [require_pos hdisc, ok_bind]
  simp only [hadd, ok_bind]
  by_cases hhead : data.length ≥ 101
  swap
  · rw [require_neg hhead, error_bind, if_neg (by omega)]
  have hlength : ((data.drop (1 + 32 + 32 + 32)).take (101 - (1 + 32 + 32 + 32))).length = 4 := by
    simp; omega
  -- the length word is below 2^32, so the sums stay far below 2^64
  have hpayload : usizeAdd 101 (dataFieldLen data) = .ok (101 + dataFieldLen data) :=
    usizeAdd_of_lt (by omega)
  have hsigner : usizeAdd (101 + dataFieldLen data) 32 = .ok (expiryOffset data) :=
    usizeAdd_of_lt (by omega)
  have hend : usizeAdd (expiryOffset data) 8 = .ok (expiryOffset data + 8) :=
    usizeAdd_of_lt (by omega)
  rw [require_pos hhead, ok_bind, slice_of_le (by norm_num) hhead, ok_bind,
    tryIntoArray_of_length hlength, ok_bind]
  change (usizeAdd 101 (dataFieldLen data) >>= _) = _
  rw [hpayload, ok_bind, hsigner, ok_bind, hend, ok_bind]
  by_cases htail : data.length ≥ expiryOffset data + 8
  swap
  · rw [require_neg htail, error_bind, if_neg (fun h => htail h.2)]
  have hexpiry : ((data.drop (expiryOffset data)).take
      (expiryOffset data + 8 - expiryOffset data)).length = 8 := by
    simp; omega
  rw [require_pos htail, ok_bind, slice_of_le (by omega) htail, ok_bind,
    tryIntoArray_of_length hexpiry, ok_bind, if_pos ⟨congrArg some hdisc, htail⟩,
    Nat.add_sub_cancel_left]
  rfl

/-- The only way to fail. -/
theorem readExpiry_error {data : List UInt8} {e : ProgramError}
    (h : readExpiry data = .error e) : e = TransferHookError.InvalidAttestation.toError := by
  rw [readExpiry_eq] at h
  split_ifs at h
  exact (Except.error.inj h).symm

/-! ## The reader against the layout -/

lemma dataFieldLen_attestationBytes (nonce credential schema signer : Pubkey)
    {payload : List UInt8} (hn : payload.length < 2 ^ 32) (e : ℤ) (rest : List UInt8) :
    dataFieldLen (attestationBytes nonce credential schema payload signer e ++ rest) =
      payload.length := by
  have hsplit : attestationBytes nonce credential schema payload signer e ++ rest =
      (ATTESTATION_DISCRIMINATOR :: (nonce.bytes ++ (credential.bytes ++ schema.bytes))) ++
        (toLE 4 payload.length ++ (payload ++ (signer.bytes ++ (i64ToLE e ++ rest)))) := by
    simp [attestationBytes]
  rw [dataFieldLen, hsplit, List.drop_left' (by simp [Pubkey.length_bytes]),
    List.take_left' (length_toLE _ _), fromLE_toLE]
  exact Nat.mod_eq_of_lt (by omega)

/-- An attestation passes the reader with its own expiry. -/
theorem readExpiry_of_isAttestation {data : List UInt8} {n : ℕ} {e : ℤ}
    (h : IsAttestation data n e) : dataFieldLen data = n ∧ readExpiry data = .ok e := by
  obtain ⟨nonce, credential, schema, signer, payload, rest, rfl, hn, he, rfl⟩ := h
  have hlen := dataFieldLen_attestationBytes nonce credential schema signer hn e rest
  have hsplit : attestationBytes nonce credential schema payload signer e ++ rest =
      (ATTESTATION_DISCRIMINATOR :: (nonce.bytes ++ (credential.bytes ++ (schema.bytes ++
        (toLE 4 payload.length ++ (payload ++ signer.bytes)))))) ++ (i64ToLE e ++ rest) := by
    simp [attestationBytes]
  have hoffset : (ATTESTATION_DISCRIMINATOR :: (nonce.bytes ++ (credential.bytes ++
      (schema.bytes ++ (toLE 4 payload.length ++ (payload ++ signer.bytes)))))).length =
        97 + 4 + payload.length + 32 := by
    simp [Pubkey.length_bytes]
    omega
  refine ⟨hlen, ?_⟩
  rw [readExpiry_eq, expiryOffset, hlen, hsplit, if_pos, List.drop_left' hoffset,
    List.take_left' (length_i64ToLE e), i64FromLE_i64ToLE he]
  refine ⟨rfl, ?_⟩
  rw [List.length_append, hoffset, List.length_append, length_i64ToLE]
  omega

/-- What passes the reader is an attestation. -/
theorem isAttestation_of_readExpiry {data : List UInt8} {e : ℤ}
    (h : readExpiry data = .ok e) : IsAttestation data (dataFieldLen data) e := by
  rw [readExpiry_eq] at h
  split_ifs at h with hok
  obtain ⟨hdisc, hlen⟩ := hok
  obtain rfl := Except.ok.inj h
  have hoffset : expiryOffset data = 97 + 4 + dataFieldLen data + 32 := rfl
  have hfield : ∀ a n, a + n ≤ data.length → ((data.drop a).take n).length = n := by
    intro a n hn
    simp
    omega
  have hcut : ∀ a n, data.drop a = (data.drop a).take n ++ data.drop (a + n) := by
    intro a n
    rw [← List.drop_drop, List.take_append_drop]
  have hexpiry := i64ToLE_i64FromLE (hfield (expiryOffset data) 8 hlen)
  have hword : toLE 4 (dataFieldLen data) = (data.drop 97).take 4 := by
    have hbytes := toLE_fromLE ((data.drop 97).take 4)
    rwa [hfield 97 4 (by omega)] at hbytes
  refine ⟨⟨(data.drop 1).take 32, hfield 1 32 (by omega)⟩,
    ⟨(data.drop 33).take 32, hfield 33 32 (by omega)⟩,
    ⟨(data.drop 65).take 32, hfield 65 32 (by omega)⟩,
    ⟨(data.drop (101 + dataFieldLen data)).take 32, hfield _ 32 (by omega)⟩,
    (data.drop 101).take (dataFieldLen data), data.drop (expiryOffset data + 8),
    hfield 101 _ (by omega), dataFieldLen_lt data,
    isI64_i64FromLE (hfield _ 8 hlen), ?_⟩
  have hdata : data = ATTESTATION_DISCRIMINATOR :: data.drop 1 := by
    cases data with
    | nil => cases hdisc
    | cons b tail => simpa using hdisc
  have htail : data.drop 1 = (data.drop 1).take 32 ++ ((data.drop 33).take 32 ++
      ((data.drop 65).take 32 ++ ((data.drop 97).take 4 ++ ((data.drop 101).take
        (dataFieldLen data) ++ ((data.drop (101 + dataFieldLen data)).take 32 ++
          ((data.drop (expiryOffset data)).take 8 ++ data.drop (expiryOffset data + 8))))))) := by
    conv_lhs =>
      rw [hcut 1 32, hcut (1 + 32) 32, hcut (1 + 32 + 32) 32, hcut (1 + 32 + 32 + 32) 4,
        hcut (1 + 32 + 32 + 32 + 4) (dataFieldLen data),
        hcut (1 + 32 + 32 + 32 + 4 + dataFieldLen data) 32,
        hcut (1 + 32 + 32 + 32 + 4 + dataFieldLen data + 32) 8]
    rfl
  rw [attestationBytes, hfield 101 _ (by omega), hexpiry, hword]
  simp only [List.cons_append, List.append_assoc]
  rw [← htail]
  exact hdata

/-- The reader accepts exactly the attestation layout, reads the expiry that is stored
there, and fails with `InvalidAttestation` and nothing else. -/
theorem readExpiry_exact (data : List UInt8) :
    (∀ e, readExpiry data = .ok e ↔ ∃ n, IsAttestation data n e) ∧
      (∀ n n' e e', IsAttestation data n e → IsAttestation data n' e' → n = n' ∧ e = e') ∧
      (∀ (a : Attestation) (padding : List UInt8), data = a.serialize ++ padding →
        readExpiry data = .ok a.expiry) ∧
      ((¬ ∃ n e, IsAttestation data n e) →
        readExpiry data = .error TransferHookError.InvalidAttestation.toError) ∧
      readExpiry data ≠ .error .panicked := by
  refine ⟨fun e => ⟨fun h => ⟨_, isAttestation_of_readExpiry h⟩, ?_⟩, ?_, ?_, fun hnone => ?_, ?_⟩
  · rintro ⟨n, h⟩
    exact (readExpiry_of_isAttestation h).2
  · intro n n' e e' h h'
    obtain ⟨hn, he⟩ := readExpiry_of_isAttestation h
    obtain ⟨hn', he'⟩ := readExpiry_of_isAttestation h'
    exact ⟨hn.symm.trans hn', Except.ok.inj (he.symm.trans he')⟩
  · rintro a padding rfl
    exact (readExpiry_of_isAttestation (a.isAttestation padding)).2
  · cases h : readExpiry data with
    | ok e => exact absurd ⟨_, e, isAttestation_of_readExpiry h⟩ hnone
    | error e => exact congrArg _ (readExpiry_error h)
  · intro h
    cases readExpiry_error h

end TransferHook

end AlienIdTransferHook

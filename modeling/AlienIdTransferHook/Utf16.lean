import Mathlib.Data.List.Basic

/-!
# Strings of 16-bit code units

Decoding reads a string of UTF-16 code units as characters, with U+FFFD in the
place of every surrogate that has no partner. A string survives the round trip
through characters exactly when each of its surrogates is half of a pair, and UTF-8
adds no loss of its own.
-/
namespace AlienIdTransferHook.Utf16

/-! ## Code units -/

/-- A high (leading) surrogate. -/
abbrev IsHigh (u : UInt16) : Prop := 0xD800 ≤ u.toNat ∧ u.toNat < 0xDC00

/-- A low (trailing) surrogate. -/
abbrev IsLow (u : UInt16) : Prop := 0xDC00 ≤ u.toNat ∧ u.toNat < 0xE000

abbrev IsSurrogate (u : UInt16) : Prop := IsHigh u ∨ IsLow u

def replacement : Char := Char.ofNat 0xFFFD

/-- The character a code unit stands for without a partner. -/
def unit (u : UInt16) : Char := if IsSurrogate u then replacement else Char.ofNat u.toNat

/-- The character two surrogates stand for. -/
def pair (u v : UInt16) : Char :=
  Char.ofNat (0x10000 + (u.toNat - 0xD800) * 0x400 + (v.toNat - 0xDC00))

def encodeChar (c : Char) : List UInt16 :=
  if c.toNat < 0x10000 then [UInt16.ofNat c.toNat]
  else [UInt16.ofNat (0xD800 + (c.toNat - 0x10000) / 0x400),
    UInt16.ofNat (0xDC00 + (c.toNat - 0x10000) % 0x400)]

lemma toNat_ofNat {n : ℕ} (h : n.isValidChar) : (Char.ofNat n).toNat = n := by
  rw [Char.ofNat, dif_pos h]
  rfl

lemma toNat_unit {u : UInt16} (h : ¬IsSurrogate u) : (unit u).toNat = u.toNat := by
  have hu := u.toNat_lt
  have hvalid : u.toNat.isValidChar := by
    unfold Nat.isValidChar
    omega
  rw [unit, if_neg h, toNat_ofNat hvalid]

lemma toNat_pair {u v : UInt16} (hu : IsHigh u) (hv : IsLow v) :
    (pair u v).toNat = 0x10000 + (u.toNat - 0xD800) * 0x400 + (v.toNat - 0xDC00) := by
  apply toNat_ofNat
  unfold Nat.isValidChar
  omega

/-- A character of the basic plane is one code unit, no surrogate; any other is a pair. -/
lemma encodeChar_cases (c : Char) :
    (∃ u, encodeChar c = [u] ∧ ¬IsSurrogate u ∧ unit u = c) ∨
      ∃ u v, encodeChar c = [u, v] ∧ IsHigh u ∧ IsLow v ∧ pair u v = c := by
  have hvalid : c.toNat < 0xD800 ∨ 0xDFFF < c.toNat ∧ c.toNat < 0x110000 := c.valid
  by_cases hc : c.toNat < 0x10000
  · left
    have hu : (UInt16.ofNat c.toNat).toNat = c.toNat := by
      rw [UInt16.toNat_ofNat']
      omega
    have hs : ¬IsSurrogate (UInt16.ofNat c.toNat) := by
      unfold IsSurrogate IsHigh IsLow
      omega
    refine ⟨_, if_pos hc, hs, Char.toNat_inj.mp ?_⟩
    rw [toNat_unit hs, hu]
  · right
    have hu : (UInt16.ofNat (0xD800 + (c.toNat - 0x10000) / 0x400)).toNat =
        0xD800 + (c.toNat - 0x10000) / 0x400 := by
      rw [UInt16.toNat_ofNat']
      omega
    have hv : (UInt16.ofNat (0xDC00 + (c.toNat - 0x10000) % 0x400)).toNat =
        0xDC00 + (c.toNat - 0x10000) % 0x400 := by
      rw [UInt16.toNat_ofNat']
      omega
    have hhigh : IsHigh (UInt16.ofNat (0xD800 + (c.toNat - 0x10000) / 0x400)) := by
      unfold IsHigh
      omega
    have hlow : IsLow (UInt16.ofNat (0xDC00 + (c.toNat - 0x10000) % 0x400)) := by
      unfold IsLow
      omega
    refine ⟨_, _, if_neg hc, hhigh, hlow, Char.toNat_inj.mp ?_⟩
    rw [toNat_pair hhigh hlow, hu, hv]
    omega

lemma encodeChar_unit {u : UInt16} (h : ¬IsSurrogate u) : encodeChar (unit u) = [u] := by
  have hu := u.toNat_lt
  rw [encodeChar, toNat_unit h, if_pos (by omega), UInt16.ofNat_toNat]

lemma encodeChar_pair {u v : UInt16} (hu : IsHigh u) (hv : IsLow v) :
    encodeChar (pair u v) = [u, v] := by
  have hhigh : 0xD800 + ((u.toNat - 0xD800) * 0x400 + (v.toNat - 0xDC00)) / 0x400 = u.toNat := by
    omega
  have hlow : 0xDC00 + ((u.toNat - 0xD800) * 0x400 + (v.toNat - 0xDC00)) % 0x400 = v.toNat := by
    omega
  have hsub : 0x10000 + (u.toNat - 0xD800) * 0x400 + (v.toNat - 0xDC00) - 0x10000 =
      (u.toNat - 0xD800) * 0x400 + (v.toNat - 0xDC00) := by omega
  rw [encodeChar, toNat_pair hu hv, if_neg (by omega), hsub, hhigh, hlow,
    UInt16.ofNat_toNat, UInt16.ofNat_toNat]

/-! ## Strings -/

/-- The characters of a string. -/
def decode : List UInt16 → List Char
  | [] => []
  | [u] => [unit u]
  | u :: v :: rest =>
    if IsHigh u ∧ IsLow v then pair u v :: decode rest else unit u :: decode (v :: rest)

def encode (cs : List Char) : List UInt16 := cs.flatMap encodeChar

/-- Every surrogate is half of a pair. -/
def WellFormed : List UInt16 → Prop
  | [] => True
  | [u] => ¬IsSurrogate u
  | u :: v :: rest =>
    if IsHigh u ∧ IsLow v then WellFormed rest else ¬IsSurrogate u ∧ WellFormed (v :: rest)

lemma decode_unit {u : UInt16} (h : ¬IsSurrogate u) (s : List UInt16) :
    decode (u :: s) = unit u :: decode s := by
  cases s with
  | nil => rfl
  | cons v rest => rw [decode, if_neg fun hp => h (.inl hp.1)]

lemma decode_pair {u v : UInt16} (hu : IsHigh u) (hv : IsLow v) (s : List UInt16) :
    decode (u :: v :: s) = pair u v :: decode s := by
  rw [decode, if_pos ⟨hu, hv⟩]

lemma wellFormed_unit {u : UInt16} (h : ¬IsSurrogate u) {s : List UInt16} (hs : WellFormed s) :
    WellFormed (u :: s) := by
  cases s with
  | nil => exact h
  | cons v rest =>
      rw [WellFormed, if_neg fun hp => h (.inl hp.1)]
      exact ⟨h, hs⟩

lemma wellFormed_pair {u v : UInt16} (hu : IsHigh u) (hv : IsLow v) {s : List UInt16}
    (hs : WellFormed s) : WellFormed (u :: v :: s) := by
  rw [WellFormed, if_pos ⟨hu, hv⟩]
  exact hs

lemma encode_cons (c : Char) (cs : List Char) : encode (c :: cs) = encodeChar c ++ encode cs := rfl

theorem decode_encode (cs : List Char) : decode (encode cs) = cs := by
  induction cs with
  | nil => rfl
  | cons c cs ih =>
      rw [encode_cons]
      obtain ⟨u, hc, hu, heq⟩ | ⟨u, v, hc, hu, hv, heq⟩ := encodeChar_cases c
      · rw [hc, List.singleton_append, decode_unit hu, ih, heq]
      · rw [hc, List.cons_append, List.singleton_append, decode_pair hu hv, ih, heq]

theorem wellFormed_encode (cs : List Char) : WellFormed (encode cs) := by
  induction cs with
  | nil => trivial
  | cons c cs ih =>
      rw [encode_cons]
      obtain ⟨u, hc, hu, -⟩ | ⟨u, v, hc, hu, hv, -⟩ := encodeChar_cases c
      · rw [hc]
        exact wellFormed_unit hu ih
      · rw [hc]
        exact wellFormed_pair hu hv ih

theorem encode_decode {s : List UInt16} (h : WellFormed s) : encode (decode s) = s := by
  induction s using decode.induct with
  | case1 => rfl
  | case2 u => rw [decode, encode_cons, encodeChar_unit h]; rfl
  | case3 u v rest hp ih =>
      rw [WellFormed, if_pos hp] at h
      rw [decode_pair hp.1 hp.2, encode_cons, encodeChar_pair hp.1 hp.2, ih h]
      rfl
  | case4 u v rest hp ih =>
      rw [WellFormed, if_neg hp] at h
      rw [decode_unit h.1, encode_cons, encodeChar_unit h.1, ih h.2]
      rfl

/-- The string with every surrogate that has no partner replaced. -/
def toWellFormed (s : List UInt16) : List UInt16 := encode (decode s)

/-- The strings the replacement character leaves alone are the well-formed ones. -/
theorem toWellFormed_eq_iff {s : List UInt16} : toWellFormed s = s ↔ WellFormed s := by
  refine ⟨fun h => ?_, encode_decode⟩
  rw [← h]
  exact wellFormed_encode _

/-! ## UTF-8 -/

/-- A string in UTF-8. -/
def toUtf8 (s : List UInt16) : List UInt8 := (decode s).flatMap String.utf8EncodeChar

/-- The string UTF-8 bytes stand for, where they are valid. -/
def ofUtf8? (bytes : List UInt8) : Option (List UInt16) :=
  bytes.toByteArray.utf8Decode?.map fun cs => encode cs.toList

theorem ofUtf8?_toUtf8 (s : List UInt16) : ofUtf8? (toUtf8 s) = some (toWellFormed s) := by
  have hbytes : (toUtf8 s).toByteArray = (decode s).utf8Encode := rfl
  rw [ofUtf8?, hbytes, List.utf8Decode?_utf8Encode]
  rfl

end AlienIdTransferHook.Utf16

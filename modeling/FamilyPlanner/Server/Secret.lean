import FamilyPlanner.Foundation.Base64
import FamilyPlanner.Server.Reconnect

/-!
# Secrets at rest

The secret of a data source is encrypted under the key of the server and kept as
a text that begins with the nonce.  No text opens but those that were sealed.
-/

namespace FamilyPlanner.Server.Secret

open FamilyPlanner.Foundation FamilyPlanner.Widget

abbrev Bytes := List UInt8

def nonceSize : Nat := 12

structure Nonce where
  bytes : Bytes
  length_bytes : bytes.length = nonceSize

/-- GCM over a block cipher with its key.  A ciphertext with its tag opens to a
plaintext when it is what the plaintext is sealed to. -/
structure AEAD where
  Seal : Bytes → Bytes → Bytes
  Open : Bytes → Bytes → Option Bytes
  open_eq_some : ∀ nonce : Nonce, ∀ ciphertext plaintext,
    Open nonce.bytes ciphertext = some plaintext ↔ Seal nonce.bytes plaintext = ciphertext

variable (aes : Bytes → AEAD)

/-- A key of AES has 16, 24 or 32 bytes. -/
def newGCM (key : Bytes) : Option AEAD :=
  if key.length ∈ [16, 24, 32] then some (aes key) else none

def Seal (nonce : Option Nonce) (plaintext key : Bytes) : Option String := do
  let gcm ← newGCM aes key
  let nonce ← nonce
  some (String.ofList
    (Base64.StdEncoding.encode (nonce.bytes ++ gcm.Seal nonce.bytes plaintext)))

def Open (token : String) (key : Bytes) : Option Bytes := do
  let raw ← Base64.StdEncoding.decode token.toList
  let gcm ← newGCM aes key
  if raw.length < nonceSize then none
  else gcm.Open (raw.take nonceSize) (raw.drop nonceSize)

variable {aes} {key plaintext : Bytes} {token : String}

theorem seal_eq_some {nonce : Nonce} (h : Seal aes (some nonce) plaintext key = some token) :
    ∃ gcm, newGCM aes key = some gcm ∧
      Base64.StdEncoding.decode token.toList =
        some (nonce.bytes ++ gcm.Seal nonce.bytes plaintext) := by
  simp only [Seal, Option.bind_eq_bind, Option.bind_some, Option.bind_eq_some_iff] at h
  obtain ⟨gcm, hgcm, htoken⟩ := h
  refine ⟨gcm, hgcm, ?_⟩
  rw [← Option.some.inj htoken, String.toList_ofList]
  exact Base64.decode_encode _ _

theorem open_of_decode {gcm : AEAD} {nonce : Nonce} (hgcm : newGCM aes key = some gcm)
    (hraw : Base64.StdEncoding.decode token.toList =
      some (nonce.bytes ++ gcm.Seal nonce.bytes plaintext)) :
    Open aes token key = some plaintext := by
  have hlong : ¬ (nonce.bytes ++ gcm.Seal nonce.bytes plaintext).length < nonceSize := by
    rw [List.length_append, nonce.length_bytes]
    omega
  simp only [Open, hraw, hgcm, Option.bind_eq_bind, Option.bind_some, if_neg hlong,
    List.take_left' nonce.length_bytes, List.drop_left' nonce.length_bytes]
  exact (gcm.open_eq_some nonce _ _).mpr rfl

/--
A text opens to a plaintext under a key exactly when it was sealed from it under
that key with some nonce, up to what the decoder of the text passes over.
-/
theorem open_iff_sealed (aes : Bytes → AEAD) (token : String) (key plaintext : Bytes) :
    Open aes token key = some plaintext ↔
      ∃ nonce sealed, Seal aes (some nonce) plaintext key = some sealed ∧
        Base64.StdEncoding.decode token.toList =
          Base64.StdEncoding.decode sealed.toList := by
  constructor
  · intro h
    simp only [Open, Option.bind_eq_bind, Option.bind_eq_some_iff] at h
    obtain ⟨raw, hraw, gcm, hgcm, h⟩ := h
    split at h
    · cases h
    · rename_i hlong
      let nonce : Nonce := ⟨raw.take nonceSize, by rw [List.length_take]; omega⟩
      have hsealed := (gcm.open_eq_some nonce _ _).mp h
      have hsplit : nonce.bytes ++ gcm.Seal nonce.bytes plaintext = raw := by
        rw [hsealed]
        exact List.take_append_drop nonceSize raw
      refine ⟨nonce, String.ofList (Base64.StdEncoding.encode raw), ?_, ?_⟩
      · simp only [Seal, hgcm, Option.bind_eq_bind, Option.bind_some, hsplit]
      · rw [hraw, String.toList_ofList, Base64.decode_encode]
  · rintro ⟨nonce, sealed, hsealed, hdecode⟩
    obtain ⟨gcm, hgcm, hraw⟩ := seal_eq_some hsealed
    exact open_of_decode hgcm (hdecode.trans hraw)

private def keyBytes : Bytes :=
  [1, 2, 3, 4, 5, 6, 7, 8, 9, 10, 11, 12, 13, 14, 15, 16, 17, 18, 19, 20, 21, 22, 23, 24, 25, 26,
    27, 28, 29, 30, 31, 32]

private def letterNonce : Nonce := ⟨[21, 22, 23, 24, 25, 26, 27, 28, 29, 30, 31, 32], rfl⟩

private def letter : Bytes :=
  [123, 34, 101, 109, 97, 105, 108, 34, 58, 34, 97, 64, 98, 46, 98, 101, 34, 125]

private def ciphertext : Bytes :=
  [69, 184, 71, 31, 111, 81, 10, 50, 59, 204, 168, 241, 117, 79, 28, 236, 89, 254, 226, 56, 67,
    42, 62, 82, 58, 50, 127, 150, 79, 134, 237, 113, 139, 189]

/-- AES with that key for that letter; all else is marked and left as it is. -/
private def oneLetter : AEAD where
  Seal nonce plaintext :=
    if nonce = letterNonce.bytes ∧ plaintext = letter then ciphertext else 0 :: plaintext
  Open nonce sealed :=
    if nonce = letterNonce.bytes ∧ sealed = ciphertext then some letter
    else if nonce = letterNonce.bytes ∧ sealed = 0 :: letter then none
    else if sealed.head? = some 0 then some sealed.tail
    else none
  open_eq_some nonce sealed plaintext := by
    have hmark : ∀ l, ciphertext ≠ 0 :: l := fun l => by simp [ciphertext]
    have hsplit : sealed.head? = some 0 ↔ 0 :: sealed.tail = sealed := by
      cases sealed <;> simp [eq_comm]
    split_ifs <;> grind

/-- With a newline in it. -/
private def letterToken : String :=
  "FRYXGBkaGxwdHh8gRbhHH29RCjI7zKjxdU8c\r\n7Fn+4jhDKj5SOjJ/lk+G7XGLvQ=="

theorem open_iff_sealed_letter :
    Open (fun _ => oneLetter) letterToken keyBytes = some letter :=
  (open_iff_sealed (fun _ => oneLetter) letterToken keyBytes letter).mpr
    ⟨letterNonce, "FRYXGBkaGxwdHh8gRbhHH29RCjI7zKjxdU8c7Fn+4jhDKj5SOjJ/lk+G7XGLvQ==",
      by decide +kernel, by decide +kernel⟩

theorem open_seal {nonce : Option Nonce} (h : Seal aes nonce plaintext key = some token) :
    Open aes token key = some plaintext ∧ token ≠ "" := by
  obtain ⟨nonce, rfl⟩ : ∃ n, nonce = some n := by
    cases nonce with
    | none => simp [Seal] at h
    | some n => exact ⟨n, rfl⟩
  obtain ⟨gcm, hgcm, hraw⟩ := seal_eq_some h
  refine ⟨open_of_decode hgcm hraw, ?_⟩
  rintro rfl
  have hempty : Base64.StdEncoding.decode "".toList = some [] := by decide +kernel
  rw [hempty] at hraw
  have hnone := (List.append_eq_nil_iff.mp (Option.some.inj hraw).symm).1
  have hlength := nonce.length_bytes
  rw [hnone] at hlength
  cases hlength

/-! ## The broker with these -/

section Broker

variable {P D : Type}

/-- `marshal` and `unmarshal` are those of `encoding/json`. -/
def sealing (b : Broker P D) (aes : Bytes → AEAD) (key : Bytes)
    (nonce : StoredSecret → Option Nonce) (marshal : StoredSecret → Bytes)
    (unmarshal : Bytes → Option StoredSecret) : Broker P D where
  typ := b.typ
  marshalError := b.marshalError
  openSecret cipher := (Open aes cipher key).bind unmarshal
  sealSecret secret := Seal aes (nonce secret) (marshal secret) key

theorem seals_sealing (b : Broker P D) (aes : Bytes → AEAD) (key : Bytes)
    (nonce : StoredSecret → Option Nonce) {marshal : StoredSecret → Bytes}
    {unmarshal : Bytes → Option StoredSecret}
    (hcodec : ∀ secret, unmarshal (marshal secret) = some secret) :
    Connection.Seals (sealing b aes key nonce marshal unmarshal) := by
  constructor
  · intro secret cipher h
    simp only [sealing] at h ⊢
    rw [(open_seal h).1, Option.bind_some, hcodec]
  · intro secret cipher h
    exact (open_seal h).2

end Broker

end FamilyPlanner.Server.Secret

import VolumeCrypt.Aes
import VolumeCrypt.Digests
import VolumeCrypt.Hkdf
import VolumeCrypt.VckTypes
import VolumeCrypt.XtsCipher

/-!
# The JVCK Metadata block

`lib/common/src/jvck/metadata.rs`: the 512-byte block, its plaintext header, the
encrypted 128-byte payload, the tag over the ciphertext and the checksum over
everything before it. AES, HMAC-SHA256 and CRC-32 are parameters; HKDF is RFC 5869
over the HMAC parameter and CBC is the mode over the AES parameter.
-/
namespace JvckMetadata

open ByteString BlockCipher VckTypes XtsCipher

/-- The primitives that the `aes`, `hmac`/`sha2` and `crc` crates supply. -/
structure Primitives where
  aes : Aes256
  hmac : Bytes → Bytes → Fixed 32
  crc32 : Bytes → UInt32

/-- AES-256, HMAC-SHA256 and CRC-32/ISO-HDLC themselves. -/
def standard : Primitives where
  aes := Aes.aes256
  hmac := Digests.hmacSha256
  crc32 := Digests.crc32

def jvckSignature : Bytes := [0x4a, 0x56, 0x43, 0x4b]

def metadataBlockSize : Nat := 512
def encryptedMetadataSize : Nat := 128
def hmacSize : Nat := 32
def saltSize : Nat := 16
def vendorReservedSize : Nat := 192

/-- `b"EncryptedMetadata:MAC"`. -/
def infoMac : Bytes := "EncryptedMetadata:MAC".toList.map fun c => UInt8.ofNat c.toNat
def infoEnc : Bytes := "EncryptedMetadata:ENC".toList.map fun c => UInt8.ofNat c.toNat
def infoIv : Bytes := "EncryptedMetadata:IV".toList.map fun c => UInt8.ofNat c.toNat

structure DerivedKeys where
  macKey : Fixed 32
  encKey : Fixed 32
  encIv : Fixed 16
  deriving DecidableEq

/-- `HKDF_SHA256(salt = Volume ID ‖ salt, ikm = VMK, info = label)` for the three labels. -/
def deriveKeys (P : Primitives) (volumeId salt : Fixed 16) (vmk : Bytes) : DerivedKeys :=
  let prk := Hkdf.extract P.hmac (volumeId.toList ++ salt.toList) vmk
  { macKey := Fixed.ofBytes 32 (Hkdf.expand P.hmac prk infoMac 32)
    encKey := Fixed.ofBytes 32 (Hkdf.expand P.hmac prk infoEnc 32)
    encIv := Fixed.ofBytes 16 (Hkdf.expand P.hmac prk infoIv 16) }

def emOffSignature : Nat := 0
def emOffMustZero : Nat := 4
def emOffEncryptedOffset : Nat := 16
def emOffState : Nat := 24
def emOffFvekKey1 : Nat := 32
def emOffFvekKey2 : Nat := 64

structure JvckHeader where
  vendorId : UInt64
  metadataVersion : UInt16
  vendorVersion : UInt16
  metadataSize : UInt32
  sectorSize : UInt32
  headerReplicaCount : UInt8
  footerReplicaCount : UInt8
  volumeId : Fixed 16
  vendorReserved : Fixed 192
  deriving DecidableEq

structure JvckSecrets where
  fvekKey1 : Fixed 32
  fvekKey2 : Fixed 32
  deriving DecidableEq

def offSignature : Nat := 0
def offVendorId : Nat := 4
def offMetadataVersion : Nat := 12
def offVendorVersion : Nat := 14
def offMetadataSize : Nat := 16
def offSectorSize : Nat := 20
def offHeaderCount : Nat := 24
def offFooterCount : Nat := 25
def offVolumeId : Nat := 32
def offSalt : Nat := 48
def offEncryptedMetadata : Nat := 64
def offHmac : Nat := 192
def offVendorReserved : Nat := 304
def offCrc32 : Nat := 508
def crcCoverageEnd : Nat := 508

def leU16 (block : Bytes) (off : Nat) : UInt16 := UInt16.ofNat (leNat (slice block off 2))
def leU32 (block : Bytes) (off : Nat) : UInt32 := UInt32.ofNat (leNat (slice block off 4))
def leU64 (block : Bytes) (off : Nat) : UInt64 := UInt64.ofNat (leNat (slice block off 8))

/-- Signature and checksum only, without the VMK. -/
def verifyCrc (P : Primitives) (block : Bytes) : VckResult Unit :=
  if block.length < metadataBlockSize then
    .error (.sizeMismatch metadataBlockSize block.length)
  else if slice block offSignature 4 ≠ jvckSignature then .error .signatureMismatch
  else if P.crc32 (slice block 0 crcCoverageEnd) ≠ leU32 block offCrc32 then .error .checksumMismatch
  else .ok ()

/-- `JvckHeader::parse`. -/
def parse (P : Primitives) (block : Bytes) : VckResult JvckHeader := do
  verifyCrc P block
  let block := slice block 0 metadataBlockSize
  return {
    vendorId := leU64 block offVendorId
    metadataVersion := leU16 block offMetadataVersion
    vendorVersion := leU16 block offVendorVersion
    metadataSize := leU32 block offMetadataSize
    sectorSize := leU32 block offSectorSize
    headerReplicaCount := block.getD offHeaderCount 0
    footerReplicaCount := block.getD offFooterCount 0
    volumeId := Fixed.ofBytes 16 (slice block offVolumeId 16)
    vendorReserved := Fixed.ofBytes 192 (slice block offVendorReserved vendorReservedSize) }

/-- The plaintext fields, in the order in which `encode` copies them. -/
def headerFields (h : JvckHeader) (salt : Fixed 16) : List (Nat × Bytes) :=
  [(offSignature, jvckSignature),
   (offVendorId, leBytes 8 h.vendorId.toNat),
   (offMetadataVersion, leBytes 2 h.metadataVersion.toNat),
   (offVendorVersion, leBytes 2 h.vendorVersion.toNat),
   (offMetadataSize, leBytes 4 h.metadataSize.toNat),
   (offSectorSize, leBytes 4 h.sectorSize.toNat),
   (offHeaderCount, [h.headerReplicaCount]),
   (offFooterCount, [h.footerReplicaCount]),
   (offVolumeId, h.volumeId.toList),
   (offSalt, salt.toList),
   (offVendorReserved, h.vendorReserved.toList)]

/-- The fields of the EncryptedMetadata plaintext. -/
def payloadFields (secrets : JvckSecrets) (encryptedOffset : UInt64) (state : VolumeState) :
    List (Nat × Bytes) :=
  [(emOffSignature, jvckSignature),
   (emOffEncryptedOffset, leBytes 8 encryptedOffset.toNat),
   (emOffState, leBytes 2 state.asU16.toNat),
   (emOffFvekKey1, secrets.fvekKey1.toList),
   (emOffFvekKey2, secrets.fvekKey2.toList)]

def payload (secrets : JvckSecrets) (encryptedOffset : UInt64) (state : VolumeState) : Bytes :=
  writeFields (List.replicate encryptedMetadataSize 0) (payloadFields secrets encryptedOffset state)

/-- `JvckHeader::encode`. Its error branches test key and buffer lengths that the array types fix,
so the block is always produced. -/
def encode (P : Primitives) (h : JvckHeader) (secrets : JvckSecrets) (encryptedOffset : UInt64)
    (state : VolumeState) (salt : Fixed 16) (vmk : Bytes) : Bytes :=
  let out := writeFields (List.replicate metadataBlockSize 0) (headerFields h salt)
  let plain := payload secrets encryptedOffset state
  let keys := deriveKeys P h.volumeId salt vmk
  let out := copyAt out offEncryptedMetadata (P.aes.cbcEncrypt keys.encKey keys.encIv plain)
  let tag := P.hmac keys.macKey.toList (slice out offEncryptedMetadata encryptedMetadataSize)
  let out := copyAt out offHmac tag.toList
  let crc := P.crc32 (slice out 0 crcCoverageEnd)
  copyAt out offCrc32 (leBytes 4 crc.toNat)

/-- Authenticate, decrypt and check the EncryptedMetadata payload. -/
def decryptPayload (P : Primitives) (block : Bytes) (vmk : Bytes) :
    VckResult (UInt64 × VolumeState × JvckSecrets) := do
  verifyCrc P block
  let block := slice block 0 metadataBlockSize
  let volumeId := Fixed.ofBytes 16 (slice block offVolumeId 16)
  let salt := Fixed.ofBytes 16 (slice block offSalt saltSize)
  let keys := deriveKeys P volumeId salt vmk
  let enc := slice block offEncryptedMetadata encryptedMetadataSize
  let storedHmac := slice block offHmac hmacSize
  if (P.hmac keys.macKey.toList enc).toList ≠ storedHmac then
    throw (.validationFailed "EncryptedMetadata HMAC mismatch")
  let plain := P.aes.cbcDecrypt keys.encKey keys.encIv enc
  if slice plain emOffSignature 4 ≠ jvckSignature then
    throw (.validationFailed "inner JVCK signature mismatch")
  if slice plain emOffMustZero 12 ≠ List.replicate 12 0 then
    throw (.validationFailed "inner must-zero field not zero")
  let secrets : JvckSecrets :=
    { fvekKey1 := Fixed.ofBytes 32 (slice plain emOffFvekKey1 32)
      fvekKey2 := Fixed.ofBytes 32 (slice plain emOffFvekKey2 32) }
  return (leU64 plain emOffEncryptedOffset, VolumeState.fromU16 (leU16 plain emOffState), secrets)

/-- Only the offset; the keys are dropped. -/
def readEncryptedOffset (P : Primitives) (block : Bytes) (vmk : Bytes) : VckResult UInt64 := do
  let r ← decryptPayload P block vmk
  return r.1

/-! ## What the block holds -/

theorem leU16_of_slice {b : Bytes} {off : Nat} {x : UInt16} (h : slice b off 2 = leBytes 2 x.toNat) :
    leU16 b off = x := by
  have hx : x.toNat < 256 ^ 2 := x.toNat_lt
  rw [leU16, h, leNat_leBytes_of_lt hx, UInt16.ofNat_toNat]

theorem leU32_of_slice {b : Bytes} {off : Nat} {x : UInt32} (h : slice b off 4 = leBytes 4 x.toNat) :
    leU32 b off = x := by
  have hx : x.toNat < 256 ^ 4 := x.toNat_lt
  rw [leU32, h, leNat_leBytes_of_lt hx, UInt32.ofNat_toNat]

theorem leU64_of_slice {b : Bytes} {off : Nat} {x : UInt64} (h : slice b off 8 = leBytes 8 x.toNat) :
    leU64 b off = x := by
  have hx : x.toNat < 256 ^ 8 := x.toNat_lt
  rw [leU64, h, leNat_leBytes_of_lt hx, UInt64.ofNat_toNat]

theorem getD_of_slice {b : Bytes} {off : Nat} {x : UInt8} (h : slice b off 1 = [x]) : b.getD off 0 = x := by
  have hg := getElem?_slice b off 1 0
  rw [h] at hg
  rw [List.getD_eq_getElem?_getD]
  simpa using congrArg (Option.getD · 0) hg.symm

/-- A block passes exactly when it is long enough, signed and summed. -/
theorem verifyCrc_ok_iff (P : Primitives) (block : Bytes) : verifyCrc P block = .ok () ↔
    512 ≤ block.length ∧ slice block 0 4 = jvckSignature ∧ P.crc32 (slice block 0 508) = leU32 block 508 := by
  simp only [verifyCrc, metadataBlockSize, offSignature, crcCoverageEnd, offCrc32]
  by_cases hlen : block.length < 512
  · simp [hlen]
  · by_cases hsig : slice block 0 4 = jvckSignature
    · by_cases hcrc : P.crc32 (slice block 0 508) = leU32 block 508
      · simp [hlen, hsig, hcrc, Nat.le_of_not_lt hlen]
      · simp [hlen, hsig, hcrc]
    · simp [hlen, hsig]

theorem verifyCrc_of_parse {P : Primitives} {block : Bytes} {h : JvckHeader} (hp : parse P block = .ok h) :
    verifyCrc P block = .ok () := by
  rw [parse] at hp
  cases hv : verifyCrc P block with
  | error e =>
    rw [hv] at hp
    cases hp
  | ok u => rfl

theorem headerFields_table (h : JvckHeader) (salt : Fixed 16) :
    FieldTable metadataBlockSize (headerFields h salt) := by
  refine .of_placed [(0, 4), (4, 8), (12, 2), (14, 2), (16, 4), (20, 4), (24, 1), (25, 1), (32, 16), (48, 16),
    (304, 192)] ?_ (by decide)
  simp [headerFields, jvckSignature, offSignature, offVendorId, offMetadataVersion, offVendorVersion,
    offMetadataSize, offSectorSize, offHeaderCount, offFooterCount, offVolumeId, offSalt, offVendorReserved]

theorem payloadFields_table (secrets : JvckSecrets) (encryptedOffset : UInt64) (state : VolumeState) :
    FieldTable encryptedMetadataSize (payloadFields secrets encryptedOffset state) := by
  refine .of_placed [(0, 4), (16, 8), (24, 2), (32, 32), (64, 32)] ?_ (by decide)
  simp [payloadFields, jvckSignature, emOffSignature, emOffEncryptedOffset, emOffState, emOffFvekKey1,
    emOffFvekKey2]

@[simp] theorem length_payload (secrets : JvckSecrets) (o : UInt64) (s : VolumeState) :
    (payload secrets o s).length = 128 :=
  (payloadFields_table secrets o s).length_writeFields (by rw [List.length_replicate])

theorem payload_field {secrets : JvckSecrets} {o : UInt64} {s : VolumeState} {f : Nat × Bytes}
    (hf : f ∈ payloadFields secrets o s) {n : Nat} (hn : f.2.length = n) :
    slice (payload secrets o s) f.1 n = f.2 :=
  (payloadFields_table secrets o s).slice_writeFields (by rw [List.length_replicate]) hf hn

theorem payload_mustZero (secrets : JvckSecrets) (o : UInt64) (s : VolumeState) :
    slice (payload secrets o s) emOffMustZero 12 = List.replicate 12 0 := by
  rw [payload, slice_writeFields_of_apart (payloadFields_table secrets o s).fits]
  · decide
  · simp [payloadFields, Apart, jvckSignature, emOffSignature, emOffEncryptedOffset, emOffState, emOffFvekKey1,
      emOffFvekKey2, emOffMustZero]

section Encoded

variable (P : Primitives) (h : JvckHeader) (secrets : JvckSecrets) (o : UInt64) (s : VolumeState)
  (salt : Fixed 16) (vmk : Bytes)

/-- The ciphertext of the payload under the derived keys. -/
def ciphertext : Bytes :=
  P.aes.cbcEncrypt (deriveKeys P h.volumeId salt vmk).encKey (deriveKeys P h.volumeId salt vmk).encIv
    (payload secrets o s)

/-- The block before its tag and checksum are written. -/
def untagged : Bytes :=
  copyAt (writeFields (List.replicate metadataBlockSize 0) (headerFields h salt)) offEncryptedMetadata
    (ciphertext P h secrets o s salt vmk)

def tag : Fixed 32 :=
  P.hmac (deriveKeys P h.volumeId salt vmk).macKey.toList (ciphertext P h secrets o s salt vmk)

/-- The block before its checksum is written. -/
def unsummed : Bytes :=
  copyAt (untagged P h secrets o s salt vmk) offHmac (tag P h secrets o s salt vmk).toList

theorem length_ciphertext : (ciphertext P h secrets o s salt vmk).length = 128 := by
  rw [ciphertext, P.aes.length_cbcEncrypt _ _ (m := 8) (by decide) (by simp), length_payload]

theorem length_header : (writeFields (List.replicate metadataBlockSize 0) (headerFields h salt)).length = 512 :=
  (headerFields_table h salt).length_writeFields (by rw [List.length_replicate])

theorem length_untagged : (untagged P h secrets o s salt vmk).length = 512 := by
  rw [untagged, length_copyAt, length_header]
  rw [length_header, length_ciphertext]
  decide

theorem length_unsummed : (unsummed P h secrets o s salt vmk).length = 512 := by
  rw [unsummed, length_copyAt, length_untagged]
  rw [length_untagged, List.Vector.toList_length]
  decide

theorem slice_untagged : slice (untagged P h secrets o s salt vmk) offEncryptedMetadata encryptedMetadataSize =
    ciphertext P h secrets o s salt vmk :=
  slice_copyAt_same (by rw [length_header]; decide) (length_ciphertext ..)

theorem encode_eq : encode P h secrets o s salt vmk =
    copyAt (unsummed P h secrets o s salt vmk) offCrc32
      (leBytes 4 (P.crc32 (slice (unsummed P h secrets o s salt vmk) 0 crcCoverageEnd)).toNat) := by
  have hs := slice_untagged P h secrets o s salt vmk
  simp only [untagged, ciphertext] at hs
  simp only [encode, unsummed, untagged, tag, ciphertext, hs]

theorem length_encode : (encode P h secrets o s salt vmk).length = 512 := by
  rw [encode_eq, length_copyAt, length_unsummed]
  rw [length_unsummed, length_leBytes]
  decide

/-- Bytes before the checksum are those of the unsummed block. -/
theorem slice_encode {off n : Nat} (hn : off + n ≤ 508) :
    slice (encode P h secrets o s salt vmk) off n = slice (unsummed P h secrets o s salt vmk) off n := by
  rw [encode_eq]
  exact slice_copyAt_of_disjoint (by rw [length_unsummed]; decide) (.inl hn)

/-- Every plaintext field of the header stays in place. -/
theorem slice_encode_field {f : Nat × Bytes} (hf : f ∈ headerFields h salt) {n : Nat} (hn : f.2.length = n) :
    slice (encode P h secrets o s salt vmk) f.1 n = f.2 := by
  have hplace : f.1 + n ≤ 64 ∨ (224 ≤ f.1 ∧ f.1 + n ≤ 508) := by
    subst hn
    revert f
    simp [headerFields, jvckSignature, offSignature, offVendorId, offMetadataVersion, offVendorVersion,
      offMetadataSize, offSectorSize, offHeaderCount, offFooterCount, offVolumeId, offSalt, offVendorReserved]
  have hc := length_ciphertext P h secrets o s salt vmk
  rw [slice_encode P h secrets o s salt vmk (by omega), unsummed, slice_copyAt_of_disjoint, untagged,
    slice_copyAt_of_disjoint]
  · exact (headerFields_table h salt).slice_writeFields (by rw [List.length_replicate]) hf hn
  · rw [length_header]; decide
  · rw [hc]; simp only [offEncryptedMetadata]; omega
  · rw [length_untagged]; decide
  · rw [List.Vector.toList_length]; simp only [offHmac]; omega

theorem slice_encode_ciphertext :
    slice (encode P h secrets o s salt vmk) offEncryptedMetadata encryptedMetadataSize =
      ciphertext P h secrets o s salt vmk := by
  rw [slice_encode P h secrets o s salt vmk (by decide), unsummed, slice_copyAt_of_disjoint, slice_untagged]
  · rw [length_untagged]; decide
  · exact .inl (by decide)

theorem slice_encode_tag : slice (encode P h secrets o s salt vmk) offHmac hmacSize =
    (tag P h secrets o s salt vmk).toList := by
  rw [slice_encode P h secrets o s salt vmk (by decide), unsummed, slice_copyAt_same]
  · rw [length_untagged]; decide
  · rw [List.Vector.toList_length]; rfl

theorem leU32_encode_crc : leU32 (encode P h secrets o s salt vmk) offCrc32 =
    P.crc32 (slice (encode P h secrets o s salt vmk) 0 crcCoverageEnd) := by
  have hle : offCrc32 ≤ (unsummed P h secrets o s salt vmk).length := by
    rw [length_unsummed]
    decide
  have hcover : slice (encode P h secrets o s salt vmk) 0 crcCoverageEnd =
      slice (unsummed P h secrets o s salt vmk) 0 crcCoverageEnd := slice_encode P h secrets o s salt vmk (by decide)
  rw [hcover]
  apply leU32_of_slice
  rw [encode_eq]
  exact slice_copyAt_same hle (length_leBytes ..)

theorem slice_encode_all : slice (encode P h secrets o s salt vmk) 0 metadataBlockSize =
    encode P h secrets o s salt vmk := by
  have ha := slice_all (encode P h secrets o s salt vmk)
  rwa [length_encode] at ha

/-- An encoded block passes the signature and checksum test. -/
theorem verifyCrc_encode : verifyCrc P (encode P h secrets o s salt vmk) = .ok () := by
  have hsig : slice (encode P h secrets o s salt vmk) offSignature 4 = jvckSignature :=
    slice_encode_field P h secrets o s salt vmk (f := (offSignature, jvckSignature)) (by simp [headerFields]) rfl
  rw [verifyCrc, if_neg (by rw [length_encode]; decide), if_neg (by rw [hsig]; simp),
    if_neg (by rw [leU32_encode_crc]; simp)]

/-- Parsing an encoded block returns the header field for field. -/
theorem parse_encode : parse P (encode P h secrets o s salt vmk) = .ok h := by
  have hfield (f : Nat × Bytes) (hf : f ∈ headerFields h salt) (n : Nat) (hn : f.2.length = n) :=
    slice_encode_field P h secrets o s salt vmk hf hn
  have h₁ := hfield (offVendorId, leBytes 8 h.vendorId.toNat) (by simp [headerFields]) 8 (by simp)
  have h₂ := hfield (offMetadataVersion, leBytes 2 h.metadataVersion.toNat) (by simp [headerFields]) 2 (by simp)
  have h₃ := hfield (offVendorVersion, leBytes 2 h.vendorVersion.toNat) (by simp [headerFields]) 2 (by simp)
  have h₄ := hfield (offMetadataSize, leBytes 4 h.metadataSize.toNat) (by simp [headerFields]) 4 (by simp)
  have h₅ := hfield (offSectorSize, leBytes 4 h.sectorSize.toNat) (by simp [headerFields]) 4 (by simp)
  have h₆ := hfield (offHeaderCount, [h.headerReplicaCount]) (by simp [headerFields]) 1 rfl
  have h₇ := hfield (offFooterCount, [h.footerReplicaCount]) (by simp [headerFields]) 1 rfl
  have h₈ := hfield (offVolumeId, h.volumeId.toList) (by simp [headerFields]) 16 (by simp)
  have h₉ := hfield (offVendorReserved, h.vendorReserved.toList) (by simp [headerFields]) vendorReservedSize
    (by simp [vendorReservedSize])
  have hcrc := verifyCrc_encode P h secrets o s salt vmk
  have hall := slice_encode_all P h secrets o s salt vmk
  generalize encode P h secrets o s salt vmk = block at *
  rw [parse, hcrc]
  simp only [hall, leU64_of_slice h₁, leU16_of_slice h₂, leU16_of_slice h₃, leU32_of_slice h₄, leU32_of_slice h₅,
    getD_of_slice h₆, getD_of_slice h₇, h₈, h₉, Fixed.ofBytes_toList]
  rfl

theorem slice_encode_salt : slice (encode P h secrets o s salt vmk) offSalt saltSize = salt.toList :=
  slice_encode_field P h secrets o s salt vmk (f := (offSalt, salt.toList)) (by simp [headerFields])
    (by simp [saltSize])

/-- Decrypting an encoded block under the same VMK returns offset, state and keys. -/
theorem decryptPayload_encode :
    decryptPayload P (encode P h secrets o s salt vmk) vmk = .ok (o, s, secrets) := by
  have hid : slice (encode P h secrets o s salt vmk) offVolumeId 16 = h.volumeId.toList :=
    slice_encode_field P h secrets o s salt vmk (f := (offVolumeId, h.volumeId.toList)) (by simp [headerFields])
      (by simp)
  have hplain : P.aes.cbcDecrypt (deriveKeys P h.volumeId salt vmk).encKey (deriveKeys P h.volumeId salt vmk).encIv
      (ciphertext P h secrets o s salt vmk) = payload secrets o s :=
    P.aes.cbcDecrypt_cbcEncrypt _ _ (m := 8) (by decide) (by simp)
  have h₁ : slice (payload secrets o s) emOffSignature 4 = jvckSignature :=
    payload_field (f := (emOffSignature, jvckSignature)) (by simp [payloadFields]) rfl
  have h₂ : slice (payload secrets o s) emOffEncryptedOffset 8 = leBytes 8 o.toNat :=
    payload_field (f := (emOffEncryptedOffset, leBytes 8 o.toNat)) (by simp [payloadFields]) (by simp)
  have h₃ : slice (payload secrets o s) emOffState 2 = leBytes 2 s.asU16.toNat :=
    payload_field (f := (emOffState, leBytes 2 s.asU16.toNat)) (by simp [payloadFields]) (by simp)
  have h₄ : slice (payload secrets o s) emOffFvekKey1 32 = secrets.fvekKey1.toList :=
    payload_field (f := (emOffFvekKey1, secrets.fvekKey1.toList)) (by simp [payloadFields]) (by simp)
  have h₅ : slice (payload secrets o s) emOffFvekKey2 32 = secrets.fvekKey2.toList :=
    payload_field (f := (emOffFvekKey2, secrets.fvekKey2.toList)) (by simp [payloadFields]) (by simp)
  have hcrc := verifyCrc_encode P h secrets o s salt vmk
  have hall := slice_encode_all P h secrets o s salt vmk
  have hsalt := slice_encode_salt P h secrets o s salt vmk
  have henc := slice_encode_ciphertext P h secrets o s salt vmk
  have htag := slice_encode_tag P h secrets o s salt vmk
  generalize encode P h secrets o s salt vmk = block at *
  rw [decryptPayload, hcrc]
  simp only [hall, hid, hsalt, henc, htag, Fixed.ofBytes_toList, hplain, tag, h₁, payload_mustZero, h₄, h₅,
    leU64_of_slice h₂, leU16_of_slice h₃, VolumeState.fromU16_asU16, ne_eq, not_true_eq_false, if_false]
  rfl

theorem readEncryptedOffset_encode :
    readEncryptedOffset P (encode P h secrets o s salt vmk) vmk = .ok o := by
  rw [readEncryptedOffset, decryptPayload_encode]
  rfl

/-- Read a block back and encode what was read, under the salt stored in the block. -/
def reencode (block : Bytes) : VckResult Bytes := do
  let header ← parse P block
  let (encryptedOffset, state, secrets) ← decryptPayload P block vmk
  let salt := Fixed.ofBytes 16 (slice block offSalt saltSize)
  return encode P header secrets encryptedOffset state salt vmk

/-- Decoding undoes encoding, and encoding what was decoded reproduces the block. -/
theorem metadata_roundtrip :
    (encode P h secrets o s salt vmk).length = 512 ∧ verifyCrc P (encode P h secrets o s salt vmk) = .ok () ∧
      parse P (encode P h secrets o s salt vmk) = .ok h ∧
      decryptPayload P (encode P h secrets o s salt vmk) vmk = .ok (o, s, secrets) ∧
      reencode P vmk (encode P h secrets o s salt vmk) = .ok (encode P h secrets o s salt vmk) := by
  have hp := parse_encode P h secrets o s salt vmk
  have hd := decryptPayload_encode P h secrets o s salt vmk
  have hs := slice_encode_salt P h secrets o s salt vmk
  refine ⟨length_encode .., verifyCrc_encode .., hp, hd, ?_⟩
  rw [reencode, hp, hd, hs, Fixed.ofBytes_toList]
  rfl

end Encoded

end JvckMetadata

import VolumeCrypt.JvckMetadata

/-!
# The SDK's Metadata encoder

`sdk/jvck.go`: the hand-written HKDF loop, the second offset table and the block
encoder that creates a volume's first metadata, and the signature and checksum
test. Both agree with the Rust side on every input.
-/
namespace SdkMetadata

open ByteString BlockCipher VckTypes
open JvckMetadata (Primitives JvckHeader JvckSecrets DerivedKeys)

def metadataBlockSize : Nat := 512
def encryptedMetadataSize : Nat := 128
def hmacSize : Nat := 32

def jvckSignature : Bytes := ['J', 'V', 'C', 'K'].map fun c => UInt8.ofNat c.toNat

def infoMAC : Bytes := "EncryptedMetadata:MAC".toList.map fun c => UInt8.ofNat c.toNat
def infoENC : Bytes := "EncryptedMetadata:ENC".toList.map fun c => UInt8.ofNat c.toNat
def infoIV : Bytes := "EncryptedMetadata:IV".toList.map fun c => UInt8.ofNat c.toNat

def offSignature : Nat := 0
def offVendorID : Nat := 4
def offMetadataVersion : Nat := 12
def offVendorVersion : Nat := 14
def offMetadataSize : Nat := 16
def offSectorSize : Nat := 20
def offHeaderCount : Nat := 24
def offFooterCount : Nat := 25
def offVolumeID : Nat := 32
def offSalt : Nat := 48
def offEncryptedMeta : Nat := 64
def offHMAC : Nat := 192
def offVendorReserved : Nat := 304
def offCRC32 : Nat := 508
def crcCoverageEnd : Nat := 508

def emOffSignature : Nat := 0
def emOffEncryptedOffset : Nat := 16
def emOffFvekKey1 : Nat := 32
def emOffFvekKey2 : Nat := 64

def hkdfExtract (P : Primitives) (salt ikm : Bytes) : Bytes := (P.hmac salt ikm).toList

/-- The loop of `hkdfExpand`; the counter is a byte that starts at 1. -/
def hkdfExpandLoop (P : Primitives) (prk info : Bytes) (length : Nat) (counter : UInt8) (prev out : Bytes) : Bytes :=
  if out.length < length then
    let prev := (P.hmac prk (prev ++ info ++ [counter])).toList
    hkdfExpandLoop P prk info length (counter + 1) prev (out ++ prev)
  else out.take length
termination_by length - out.length
decreasing_by
  rw [List.length_append, List.Vector.toList_length]
  omega

def hkdfExpand (P : Primitives) (prk info : Bytes) (length : Nat) : Bytes :=
  hkdfExpandLoop P prk info length 1 [] []

def deriveKeys (P : Primitives) (volumeID salt : Fixed 16) (vmk : Bytes) : DerivedKeys :=
  let prk := hkdfExtract P (volumeID.toList ++ salt.toList) vmk
  { macKey := Fixed.ofBytes 32 (hkdfExpand P prk infoMAC 32)
    encKey := Fixed.ofBytes 32 (hkdfExpand P prk infoENC 32)
    encIv := Fixed.ofBytes 16 (hkdfExpand P prk infoIV 16) }

/-- `EncodeMetadataBlock`. `aes.NewCipher` rejects only keys of a wrong length, which the array
type of the key excludes, so the block is always produced. -/
def encodeMetadataBlock (P : Primitives) (h : JvckHeader) (fvek1 fvek2 : Fixed 32) (encryptedOffset : UInt64)
    (salt : Fixed 16) (vmk : Bytes) : Bytes :=
  let out := writeFields (List.replicate metadataBlockSize 0)
    [(offSignature, jvckSignature),
     (offVendorID, leBytes 8 h.vendorId.toNat),
     (offMetadataVersion, leBytes 2 h.metadataVersion.toNat),
     (offVendorVersion, leBytes 2 h.vendorVersion.toNat),
     (offMetadataSize, leBytes 4 h.metadataSize.toNat),
     (offSectorSize, leBytes 4 h.sectorSize.toNat),
     (offHeaderCount, [h.headerReplicaCount]),
     (offFooterCount, [h.footerReplicaCount]),
     (offVolumeID, h.volumeId.toList),
     (offSalt, salt.toList),
     (offVendorReserved, h.vendorReserved.toList)]
  let plain := writeFields (List.replicate encryptedMetadataSize 0)
    [(emOffSignature, jvckSignature),
     (emOffEncryptedOffset, leBytes 8 encryptedOffset.toNat),
     (emOffFvekKey1, fvek1.toList),
     (emOffFvekKey2, fvek2.toList)]
  let keys := deriveKeys P h.volumeId salt vmk
  let out := copyAt out offEncryptedMeta (P.aes.cbcEncrypt keys.encKey keys.encIv plain)
  let mac := P.hmac keys.macKey.toList (slice out offEncryptedMeta encryptedMetadataSize)
  let out := copyAt out offHMAC mac.toList
  copyAt out offCRC32 (leBytes 4 (P.crc32 (slice out 0 crcCoverageEnd)).toNat)

/-- `for i := range a { if a[i] != b[i] { return false } }`. -/
def bytesEqualLoop : Bytes → Bytes → Bool
  | x :: xs, y :: ys => if x ≠ y then false else bytesEqualLoop xs ys
  | _, _ => true

def bytesEqual (a b : Bytes) : Bool :=
  if a.length ≠ b.length then false else bytesEqualLoop a b

def verifyMetadataCRC (P : Primitives) (block : Bytes) : Bool :=
  if block.length < metadataBlockSize then false
  else if !bytesEqual (slice block offSignature 4) jvckSignature then false
  else
    let stored := UInt32.ofNat (leNat (slice block offCRC32 4))
    P.crc32 (slice block 0 crcCoverageEnd) == stored

/-! ## The HKDF loop is RFC 5869 -/

theorem expandBlock_succ (P : Primitives) (prk info : Bytes) (i : Nat) :
    Hkdf.expandBlock P.hmac prk info (i + 1) =
      (P.hmac prk (Hkdf.expandBlock P.hmac prk info i ++ info ++ [UInt8.ofNat (i + 1)])).toList := rfl

/-- Entered with the first `k` blocks, `k` the last counter, the loop completes the output. -/
theorem hkdfExpandLoop_eq (P : Primitives) (prk info : Bytes) (length k : Nat)
    (hk : k ≤ (length + 31) / 32) :
    hkdfExpandLoop P prk info length (UInt8.ofNat (k + 1)) (Hkdf.expandBlock P.hmac prk info k)
      (Hkdf.expandBlocks P.hmac prk info k) = Hkdf.expand P.hmac prk info length := by
  obtain ⟨d, hd⟩ : ∃ d, (length + 31) / 32 = k + d := ⟨_, (Nat.add_sub_of_le hk).symm⟩
  induction d generalizing k with
  | zero =>
    rw [hkdfExpandLoop, Hkdf.length_expandBlocks, if_neg (by omega), Hkdf.expand, Nat.add_sub_assoc (by decide), hd]
    rfl
  | succ d ih =>
    have hcounter : UInt8.ofNat (k + 1) + 1 = UInt8.ofNat (k + 1 + 1) := (UInt8.ofNat_add (k + 1) 1).symm
    rw [hkdfExpandLoop, Hkdf.length_expandBlocks, if_pos (by omega)]
    simp only
    rw [← expandBlock_succ, ← Hkdf.expandBlocks_succ, hcounter]
    exact ih (k + 1) (by omega) (by omega)

theorem hkdfExpand_eq (P : Primitives) (prk info : Bytes) (length : Nat) :
    hkdfExpand P prk info length = Hkdf.expand P.hmac prk info length :=
  hkdfExpandLoop_eq P prk info length 0 (Nat.zero_le _)

theorem deriveKeys_eq (P : Primitives) (volumeID salt : Fixed 16) (vmk : Bytes) :
    deriveKeys P volumeID salt vmk = JvckMetadata.deriveKeys P volumeID salt vmk := by
  simp only [deriveKeys, hkdfExpand_eq]
  rfl

/-! ## Agreement with the Rust encoder -/

/-- The state field of an `encrypt` payload is already zero, so writing it changes nothing. -/
theorem payload_encrypt (secrets : JvckSecrets) (encryptedOffset : UInt64) :
    writeFields (List.replicate encryptedMetadataSize 0)
      [(emOffSignature, jvckSignature), (emOffEncryptedOffset, leBytes 8 encryptedOffset.toNat),
       (emOffFvekKey1, secrets.fvekKey1.toList), (emOffFvekKey2, secrets.fvekKey2.toList)] =
      JvckMetadata.payload secrets encryptedOffset .encrypt := by
  let fields := [(emOffSignature, jvckSignature), (emOffEncryptedOffset, leBytes 8 encryptedOffset.toNat)]
  let base := writeFields (List.replicate encryptedMetadataSize 0) fields
  have htable : FieldTable 128 fields :=
    .of_placed [(0, 4), (16, 8)] (by simp [fields, emOffSignature, emOffEncryptedOffset, jvckSignature]) (by decide)
  have hlen : base.length = 128 := htable.length_writeFields (by rw [List.length_replicate]; rfl)
  have hzero : slice base JvckMetadata.emOffState 2 = leBytes 2 (VolumeState.asU16 .encrypt).toNat := by
    rw [slice_writeFields_of_apart (by rw [List.length_replicate]; exact htable.fits)]
    · decide
    · simp [fields, Apart, emOffSignature, emOffEncryptedOffset, jvckSignature, JvckMetadata.emOffState]
  have hstate : copyAt base JvckMetadata.emOffState (leBytes 2 (VolumeState.asU16 .encrypt).toNat) = base :=
    copyAt_eq_self (by rw [hlen]; decide) hzero
  change copyAt (copyAt base emOffFvekKey1 _) emOffFvekKey2 _ =
    copyAt (copyAt (copyAt base JvckMetadata.emOffState _) emOffFvekKey1 _) emOffFvekKey2 _
  rw [hstate]

theorem encodeMetadataBlock_eq (P : Primitives) (h : JvckHeader) (secrets : JvckSecrets) (encryptedOffset : UInt64)
    (salt : Fixed 16) (vmk : Bytes) :
    encodeMetadataBlock P h secrets.fvekKey1 secrets.fvekKey2 encryptedOffset salt vmk =
      JvckMetadata.encode P h secrets encryptedOffset .encrypt salt vmk := by
  simp only [encodeMetadataBlock, payload_encrypt, deriveKeys_eq]
  rfl

theorem bytesEqualLoop_iff {a b : Bytes} (h : a.length = b.length) : bytesEqualLoop a b = true ↔ a = b := by
  induction a generalizing b with
  | nil =>
    cases b with
    | nil => simp [bytesEqualLoop]
    | cons y ys => simp at h
  | cons x xs ih =>
    cases b with
    | nil => simp at h
    | cons y ys =>
      have ht := ih (Nat.succ.inj h)
      by_cases hxy : x = y
      · simp [bytesEqualLoop, hxy, ht]
      · simp [bytesEqualLoop, hxy]

theorem bytesEqual_iff (a b : Bytes) : bytesEqual a b = true ↔ a = b := by
  by_cases hl : a.length = b.length
  · rw [bytesEqual, if_neg (by simp [hl])]
    exact bytesEqualLoop_iff hl
  · rw [bytesEqual, if_pos hl]
    constructor
    · intro h
      cases h
    · intro h
      exact absurd (congrArg List.length h) hl

theorem verifyMetadataCRC_iff (P : Primitives) (block : Bytes) :
    verifyMetadataCRC P block = true ↔ JvckMetadata.verifyCrc P block = .ok () := by
  have hsig := bytesEqual_iff (slice block 0 4) jvckSignature
  have hsame : jvckSignature = JvckMetadata.jvckSignature := by decide
  rw [hsame] at hsig
  rw [JvckMetadata.verifyCrc_ok_iff, ← hsig, ← Nat.not_lt]
  simp only [verifyMetadataCRC, metadataBlockSize, offSignature, offCRC32, crcCoverageEnd, hsame]
  by_cases hlen : block.length < 512
  · simp [hlen]
  · cases bytesEqual (slice block 0 4) JvckMetadata.jvckSignature with
    | false => simp [hlen]
    | true => simp [hlen, JvckMetadata.leU32]

/-- The two encoders produce the same block on every input, and the two signature and checksum
tests accept the same byte strings. -/
theorem sdk_metadata_eq_rust_metadata (P : Primitives) :
    (∀ (h : JvckHeader) (fvek1 fvek2 : Fixed 32) (encryptedOffset : UInt64) (salt : Fixed 16) (vmk : Bytes),
      encodeMetadataBlock P h fvek1 fvek2 encryptedOffset salt vmk =
        JvckMetadata.encode P h ⟨fvek1, fvek2⟩ encryptedOffset .encrypt salt vmk) ∧
    ∀ block : Bytes, verifyMetadataCRC P block = true ↔ JvckMetadata.verifyCrc P block = .ok () := by
  constructor
  · intro h fvek1 fvek2 encryptedOffset salt vmk
    exact encodeMetadataBlock_eq P h ⟨fvek1, fvek2⟩ encryptedOffset salt vmk
  · exact verifyMetadataCRC_iff P

end SdkMetadata

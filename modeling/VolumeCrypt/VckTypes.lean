import Mathlib.Data.Vector.Basic

/-!
# Shared types

Errors, the persisted sweep direction and the progress record of `lib/common`.
-/
namespace VckTypes

inductive VckError where
  | invalidData (msg : String)
  | validationFailed (msg : String)
  | unsupported (msg : String)
  | notFound (msg : String)
  | permissionDenied (msg : String)
  | sizeMismatch (expected actual : Nat)
  | signatureMismatch
  | checksumMismatch
  | cryptoFailed (msg : String)
  | msgpackEncode (msg : String)
  | msgpackDecode (msg : String)
  | io (msg : String)
  deriving DecidableEq, Repr

abbrev VckResult := Except VckError

/-- Persisted sweep direction. -/
inductive VolumeState where
  | encrypt
  | decrypt
  deriving DecidableEq, Repr

def VolumeState.asU16 : VolumeState → UInt16
  | .encrypt => 0
  | .decrypt => 1

/-- Unknown on-disk values fall back to `encrypt`. -/
def VolumeState.fromU16 (v : UInt16) : VolumeState :=
  if v = 1 then .decrypt else .encrypt

@[simp] theorem VolumeState.fromU16_asU16 (s : VolumeState) : VolumeState.fromU16 s.asU16 = s := by
  cases s <;> rfl

/-- Progress in data-region relative sectors. -/
structure EncryptedOffset where
  sector : UInt64
  totalSectors : UInt64
  deriving DecidableEq, Repr

def EncryptedOffset.isEncrypted (o : EncryptedOffset) (sector : UInt64) : Bool := sector < o.sector

def EncryptedOffset.isFullyEncrypted (o : EncryptedOffset) : Bool := o.sector ≥ o.totalSectors

end VckTypes

import VolumeCrypt.ByteMemory
import VolumeCrypt.VckTypes
import Mathlib.Logic.Function.Basic

/-!
# The handover from loader to driver

`lib/loader/src/handover.rs` stages the payload in memory that the firmware keeps and
publishes a locator of it in a UEFI variable; `lib/windrv/src/handover.rs` reads the
locator, copies the payload and overwrites the source. The encoding is that of the
`messagepack_serde` crate, of which only the round trip is used.
-/
namespace Handover

open ByteString ByteMemory VckTypes

/-! ## Payload and locator -/

/-- `to_vec` and `from_slice` for one type. -/
structure Messagepack (α : Type) where
  toVec : α → VckResult Bytes
  fromSlice : Bytes → VckResult α

/-- What was encoded is decoded, and no encoding is empty. -/
structure Messagepack.Lawful {α : Type} (C : Messagepack α) : Prop where
  decode : ∀ {x bytes}, C.toVec x = .ok bytes → C.fromSlice bytes = .ok x
  nonempty : ∀ {x bytes}, C.toVec x = .ok bytes → bytes ≠ []

structure HandoverLocator where
  magic : UInt32
  version : UInt16
  address : UInt64
  length : UInt64
  deriving DecidableEq, Repr

/-- `u32::from_le_bytes(*b"VCKL")`. -/
def handoverLocatorMagic : UInt32 := 0x4C4B4356

def handoverLocatorVersion : UInt16 := 1

namespace HandoverLocator

def new (address length : UInt64) : HandoverLocator :=
  { magic := handoverLocatorMagic, version := handoverLocatorVersion, address, length }

def validate (l : HandoverLocator) : VckResult Unit :=
  if l.magic ≠ handoverLocatorMagic then .error (.invalidData "handover locator: bad magic")
  else if l.version ≠ handoverLocatorVersion then .error (.invalidData "handover locator: unsupported version")
  else if l.address = 0 ∨ l.length = 0 then .error (.invalidData "handover locator: empty address/length")
  else .ok ()

end HandoverLocator

def decodeLocator (C : Messagepack HandoverLocator) (bytes : Bytes) : VckResult HandoverLocator := do
  let locator ← C.fromSlice bytes
  locator.validate
  return locator

/-! ## The machine between loader and driver -/

/-- `VAR_NAME` and `VAR_GUID` of a payload type. -/
structure Variable where
  name : String
  guid : Fixed 16
  deriving DecidableEq

/-- `HANDOVER_VAR_NAME` and `HANDOVER_VAR_GUID` of the sample. -/
def vckHandover : Variable :=
  ⟨"VckHandover", ⟨[0x43, 0x4b, 0x56, 0x59, 0x48, 0x44, 0x4f, 0x56, 0x31, 0x32, 0x2d, 0x56, 0x41, 0x52, 0x21, 0x21], rfl⟩⟩

/-- Physical memory and the volatile UEFI variables. -/
structure Machine where
  memory : Memory
  vars : Variable → Option Bytes

section Loader

variable {α : Type}

/-- Answers of the firmware to `allocate_pool` and `SetVariable`, with the text of its errors. -/
structure BootServices where
  allocatePool : Nat → Except String UInt64
  setVariable : Except String Unit

def installHandover (C : Messagepack α) (CL : Messagepack HandoverLocator) (var : Variable) (fw : BootServices)
    (payload : α) (m : Machine) : VckResult Unit × Machine :=
  match C.toVec payload with
  | .error e => (.error e, m)
  | .ok data =>
    let len := data.length
    match fw.allocatePool len with
    | .error e => (.error (.io s!"allocate_pool(RUNTIME_SERVICES_DATA, {len}) failed: {e}"), m)
    | .ok address =>
      -- the buffer is leaked, also when the variable cannot be set
      let m := { m with memory := save m.memory address.toNat data }
      match CL.toVec (.new address (UInt64.ofNat len)) with
      | .error e => (.error e, m)
      | .ok locBytes =>
        match fw.setVariable with
        | .error e => (.error (.io s!"SetVariable(handover locator) failed: {e}"), m)
        | .ok () => (.ok (), { m with vars := Function.update m.vars var (some locBytes) })

end Loader

section Driver

variable {α : Type}

/-- What `ExGetFirmwareEnvironmentVariable` leaves behind: its status, the length and the bytes of the buffer. -/
structure VariableAnswer where
  status : Int32
  length : UInt32
  value : Bytes

/-- Answers of the kernel to `ExGetFirmwareEnvironmentVariable`, for a variable and a buffer of so many bytes, to
`ExAllocatePool2` and to `MmMapIoSpace`. -/
structure Kernel where
  getVariable : Variable → UInt32 → VariableAnswer
  poolAllocated : Bool
  mapped : Bool

def statusBufferTooSmall : Int32 := (0xC0000023 : UInt32).toInt32

def readHandoverVariable (k : Kernel) (var : Variable) : VckResult Bytes :=
  let probe := k.getVariable var 0
  if probe.status ≠ statusBufferTooSmall ∨ probe.length = 0 then .error (.notFound "handover variable not present")
  else if !k.poolAllocated then .error (.io "ExAllocatePool2(handover var) failed")
  else
    let answer := k.getVariable var probe.length
    if answer.status < 0 then .error (.io "ExGetFirmwareEnvironmentVariable(get) failed")
    else .ok (answer.value.take (min answer.length.toNat probe.length.toNat))

/-- `MAX_PAYLOAD_LEN`. -/
def maxPayloadLen : Nat := 64 * 1024

/-- Copy the payload, then overwrite the source. -/
def readHandoverPayload (k : Kernel) (locator : HandoverLocator) (m : Machine) : VckResult Bytes × Machine :=
  let len := locator.length.toNat
  if len = 0 ∨ maxPayloadLen < len then (.error (.invalidData "handover payload length out of range"), m)
  else if !k.mapped then (.error (.io "MmMapIoSpace(handover payload) failed"), m)
  else
    (.ok (load m.memory locator.address.toNat len),
      { m with memory := save m.memory locator.address.toNat (List.replicate len 0) })

def readHandover (C : Messagepack α) (CL : Messagepack HandoverLocator) (k : Kernel) (var : Variable) (m : Machine) :
    VckResult α × Machine :=
  match readHandoverVariable k var >>= decodeLocator CL with
  | .error e => (.error e, m)
  | .ok locator =>
    match readHandoverPayload k locator m with
    | (.error e, m) => (.error e, m)
    | (.ok payload, m) => (C.fromSlice payload, m)

end Driver

/-! ## Reading back -/

/-- What is documented of `ExGetFirmwareEnvironmentVariable`: a buffer that is too small is answered with the length of
the variable, and a success leaves its value and its length. The call may fail in any other way. -/
structure Kernel.Reads (k : Kernel) (m : Machine) : Prop where
  tooSmall : ∀ {var size}, (k.getVariable var size).status = statusBufferTooSmall →
    ∃ value, m.vars var = some value ∧ (k.getVariable var size).length.toNat = value.length
  success : ∀ {var size}, 0 ≤ (k.getVariable var size).status →
    ∃ value, m.vars var = some value ∧ (k.getVariable var size).length.toNat = value.length ∧
      (k.getVariable var size).value = value

/-- The variable can be read: the kernel tells its length, gives a buffer of that length and fills it. -/
def Kernel.Fetches (k : Kernel) (var : Variable) : Prop :=
  (k.getVariable var 0).status = statusBufferTooSmall ∧ k.poolAllocated = true ∧
    0 ≤ (k.getVariable var (k.getVariable var 0).length).status

/-- Until the driver runs, the variable and the buffer stay as the loader left them. -/
structure Keeps (var : Variable) (address len : Nat) (m m' : Machine) : Prop where
  published : m'.vars var = m.vars var
  buffer : ∀ i, i < len → m'.memory (address + i) = m.memory (address + i)

section RoundTrip

variable {α : Type} {C : Messagepack α} {CL : Messagepack HandoverLocator} {var : Variable} {fw : BootServices}
  {payload : α} {data : Bytes} {address : UInt64} {m m₁ m₂ : Machine}

/-- The loader's side is done: the variable holds the locator, the buffer holds the payload. -/
structure Staged (CL : Messagepack HandoverLocator) (var : Variable) (data : Bytes) (address : UInt64) (m : Machine) :
    Prop where
  published : ∃ locBytes, CL.toVec (.new address (UInt64.ofNat data.length)) = .ok locBytes ∧ m.vars var = some locBytes
  buffer : load m.memory address.toNat data.length = data

theorem installHandover_staged (henc : C.toVec payload = .ok data)
    (halloc : fw.allocatePool data.length = .ok address)
    (hinst : installHandover C CL var fw payload m = (.ok (), m₁)) : Staged CL var data address m₁ := by
  simp only [installHandover, henc, halloc] at hinst
  cases hloc : CL.toVec (.new address (UInt64.ofNat data.length)) with
  | error e =>
    rw [hloc] at hinst
    cases (Prod.mk.inj hinst).1
  | ok locBytes =>
    rw [hloc] at hinst
    simp only at hinst
    split at hinst
    · cases (Prod.mk.inj hinst).1
    · obtain rfl := (Prod.mk.inj hinst).2
      exact ⟨⟨locBytes, hloc, Function.update_self ..⟩, load_save_same _ rfl⟩

theorem Staged.keep (hs : Staged CL var data address m₁) (hkeep : Keeps var address.toNat data.length m₁ m₂) :
    Staged CL var data address m₂ := by
  obtain ⟨⟨locBytes, hloc, hvar⟩, hbuf⟩ := hs
  exact ⟨⟨locBytes, hloc, hkeep.published.trans hvar⟩, (load_congr hkeep.buffer).trans hbuf⟩

/-- A variable that is there is read whole. -/
theorem readHandoverVariable_of_fetches {k : Kernel} {value : Bytes} (hk : k.Reads m) (hvar : m.vars var = some value)
    (hne : value ≠ []) (hfetch : k.Fetches var) : readHandoverVariable k var = .ok value := by
  obtain ⟨hprobe, hpool, hget⟩ := hfetch
  obtain ⟨v₁, hv₁, hlen⟩ := hk.tooSmall hprobe
  obtain ⟨v₂, hv₂, hgot, hvalue⟩ := hk.success hget
  obtain rfl := Option.some.inj (hvar.symm.trans hv₁)
  obtain rfl := Option.some.inj (hvar.symm.trans hv₂)
  have hpos : (k.getVariable var 0).length ≠ 0 := by
    intro h
    rw [h] at hlen
    exact hne (List.length_eq_zero_iff.mp hlen.symm)
  simp only [readHandoverVariable, hprobe, hpos, hpool, Int32.not_lt.mpr hget, hgot, hlen, hvalue, ne_eq,
    not_true_eq_false, or_self, if_false, Bool.not_true, Bool.false_eq_true, Nat.min_self, List.take_length]

theorem readHandoverVariable_of_not_fetches {k : Kernel} (h : ¬ k.Fetches var) :
    ∃ e, readHandoverVariable k var = .error e := by
  unfold readHandoverVariable
  by_cases hprobe : (k.getVariable var 0).status ≠ statusBufferTooSmall ∨ (k.getVariable var 0).length = 0
  · exact ⟨_, if_pos hprobe⟩
  · simp only [if_neg hprobe]
    obtain ⟨hprobe, -⟩ := not_or.mp hprobe
    cases hpool : k.poolAllocated with
    | false => exact ⟨_, rfl⟩
    | true =>
      have hget : (k.getVariable var (k.getVariable var 0).length).status < 0 := by
        rw [← Int32.not_le]
        exact fun hget => h ⟨not_not.mp hprobe, hpool, hget⟩
      exact ⟨_, if_pos hget⟩

theorem decodeLocator_new (hCL : CL.Lawful) {locBytes : Bytes} {length : UInt64}
    (hloc : CL.toVec (.new address length) = .ok locBytes) (haddr : address ≠ 0) (hlen : length ≠ 0) :
    decodeLocator CL locBytes = .ok (.new address length) := by
  have hvalid : (HandoverLocator.new address length).validate = .ok () := by
    simp [HandoverLocator.validate, HandoverLocator.new, haddr, hlen]
  rw [decodeLocator, hCL.decode hloc]
  change ((HandoverLocator.new address length).validate >>= _) = _
  rw [hvalid]
  rfl

theorem readHandoverPayload_eq {n : Nat} (hn : (UInt64.ofNat n).toNat = n) (hpos : 0 < n) {k : Kernel} :
    readHandoverPayload k (.new address (UInt64.ofNat n)) m =
      if maxPayloadLen < n then (.error (.invalidData "handover payload length out of range"), m)
      else if k.mapped then
        (.ok (load m.memory address.toNat n), { m with memory := save m.memory address.toNat (List.replicate n 0) })
      else (.error (.io "MmMapIoSpace(handover payload) failed"), m) := by
  simp only [readHandoverPayload, HandoverLocator.new, hn, Nat.ne_of_gt hpos, false_or]
  cases k.mapped <;> rfl

/-- What the driver finds once it has the locator. -/
theorem Staged.readHandover_eq (hs : Staged CL var data address m) (hC : C.Lawful) (hCL : CL.Lawful)
    (henc : C.toVec payload = .ok data) (hsize : data.length < 2 ^ 64) (haddr : address ≠ 0) {k : Kernel}
    (hk : k.Reads m) (hfetch : k.Fetches var) :
    readHandover C CL k var m =
      if maxPayloadLen < data.length then (.error (.invalidData "handover payload length out of range"), m)
      else if k.mapped then
        (.ok payload, { m with memory := save m.memory address.toNat (List.replicate data.length 0) })
      else (.error (.io "MmMapIoSpace(handover payload) failed"), m) := by
  obtain ⟨⟨locBytes, hloc, hvar⟩, hbuf⟩ := hs
  have hpos : 0 < data.length := List.length_pos_iff.mpr (hC.nonempty henc)
  have hlen : (UInt64.ofNat data.length).toNat = data.length := by
    rw [UInt64.toNat_ofNat', Nat.mod_eq_of_lt hsize]
  have hne : UInt64.ofNat data.length ≠ 0 := by
    intro h
    rw [h] at hlen
    have hzero : (0 : UInt64).toNat = 0 := rfl
    omega
  have hread := readHandoverVariable_of_fetches hk hvar (hCL.nonempty hloc) hfetch
  have hlocator : (readHandoverVariable k var >>= decodeLocator CL) = .ok (.new address (UInt64.ofNat data.length)) := by
    rw [hread]
    exact decodeLocator_new hCL hloc haddr hne
  have hpayload : readHandoverPayload k (.new address (UInt64.ofNat data.length)) m = _ :=
    readHandoverPayload_eq hlen hpos
  rw [hbuf] at hpayload
  simp only [readHandover, hlocator]
  by_cases hlong : maxPayloadLen < data.length
  · rw [if_pos hlong] at hpayload ⊢
    simp only [hpayload]
  · rw [if_neg hlong] at hpayload ⊢
    by_cases hm : k.mapped = true
    · rw [if_pos hm] at hpayload ⊢
      simp only [hpayload, hC.decode henc]
    · rw [if_neg hm] at hpayload ⊢
      simp only [hpayload]

/-- Without the locator the driver goes no further. -/
theorem readHandover_of_not_fetches {k : Kernel} (h : ¬ k.Fetches var) :
    ∃ e, readHandover C CL k var m = (.error e, m) := by
  obtain ⟨e, he⟩ := readHandoverVariable_of_not_fetches h
  refine ⟨e, ?_⟩
  rw [readHandover, he]
  rfl

/-- The driver gets the payload and leaves zeros in its place exactly when the kernel reads the variable and maps the
buffer for it and the payload is at most 64 KiB long. In every other case nothing changes, and the payload, key
included, stays where the loader put it. -/
theorem handover_read_iff (hC : C.Lawful) (hCL : CL.Lawful) (henc : C.toVec payload = .ok data)
    (hsize : data.length < 2 ^ 64) (halloc : fw.allocatePool data.length = .ok address) (haddr : address ≠ 0)
    (hinst : installHandover C CL var fw payload m = (.ok (), m₁))
    (hkeep : Keeps var address.toNat data.length m₁ m₂) {k : Kernel} (hk : k.Reads m₂) :
    (readHandover C CL k var m₂ =
        (.ok payload, { m₂ with memory := save m₂.memory address.toNat (List.replicate data.length 0) }) ↔
      k.Fetches var ∧ k.mapped = true ∧ data.length ≤ maxPayloadLen) ∧
    (¬ (k.Fetches var ∧ k.mapped = true ∧ data.length ≤ maxPayloadLen) →
      ∃ e, readHandover C CL k var m₂ = (.error e, m₂) ∧ load m₂.memory address.toNat data.length = data) := by
  have hs := (installHandover_staged henc halloc hinst).keep hkeep
  have hno (h : ¬ (k.Fetches var ∧ k.mapped = true ∧ data.length ≤ maxPayloadLen)) :
      ∃ e, readHandover C CL k var m₂ = (.error e, m₂) := by
    by_cases hfetch : k.Fetches var
    · rw [hs.readHandover_eq hC hCL henc hsize haddr hk hfetch]
      split
      · exact ⟨_, rfl⟩
      · rename_i hshort
        rw [if_neg fun hm => h ⟨hfetch, hm, Nat.not_lt.mp hshort⟩]
        exact ⟨_, rfl⟩
    · exact readHandover_of_not_fetches hfetch
  refine ⟨⟨?_, ?_⟩, ?_⟩
  · intro heq
    by_contra h
    obtain ⟨e, he⟩ := hno h
    rw [heq] at he
    cases (Prod.mk.inj he).1
  · intro ⟨hfetch, hm, hshort⟩
    rw [hs.readHandover_eq hC hCL henc hsize haddr hk hfetch, if_neg (Nat.not_lt.mpr hshort), if_pos hm]
  · intro h
    obtain ⟨e, he⟩ := hno h
    exact ⟨e, he, hs.buffer⟩

end RoundTrip

/-- The codec at one value. -/
def Messagepack.single {α : Type} [DecidableEq α] (x : α) (bytes : Bytes) : Messagepack α where
  toVec y := if y = x then .ok bytes else .error (.msgpackEncode "unexpected value")
  fromSlice b := if b = bytes then .ok x else .error (.msgpackDecode "unexpected bytes")

theorem Messagepack.toVec_single {α : Type} [DecidableEq α] (x : α) (bytes : Bytes) :
    (Messagepack.single x bytes).toVec x = .ok bytes := if_pos rfl

theorem Messagepack.lawful_single {α : Type} [DecidableEq α] (x : α) {bytes : Bytes} (h : bytes ≠ []) :
    (Messagepack.single x bytes).Lawful := by
  have hvalue {y b} (henc : (Messagepack.single x bytes).toVec y = .ok b) : y = x ∧ b = bytes := by
    simp only [Messagepack.single] at henc
    split at henc
    · exact ⟨‹y = x›, (Except.ok.inj henc).symm⟩
    · cases henc
  refine ⟨?_, ?_⟩
  · intro y b henc
    obtain ⟨rfl, rfl⟩ := hvalue henc
    exact if_pos rfl
  · intro y b henc
    obtain ⟨-, rfl⟩ := hvalue henc
    exact h

/-- A locator of one byte at address 4096, as a map of four fields. -/
def sampleLocator : Bytes :=
  [0x84, 0xa5, 0x6d, 0x61, 0x67, 0x69, 0x63, 0xce, 0x4c, 0x4b, 0x43, 0x56, 0xa7, 0x76, 0x65, 0x72, 0x73, 0x69, 0x6f,
    0x6e, 0xcd, 0x00, 0x01, 0xa7, 0x61, 0x64, 0x64, 0x72, 0x65, 0x73, 0x73, 0xcf, 0x00, 0x00, 0x00, 0x00, 0x00, 0x00,
    0x10, 0x00, 0xa6, 0x6c, 0x65, 0x6e, 0x67, 0x74, 0x68, 0xcf, 0x00, 0x00, 0x00, 0x00, 0x00, 0x00, 0x00, 0x01]

/-- The number 7 is encoded as the byte 7. -/
def sevenCodec : Messagepack UInt8 := .single 7 [7]

def sampleLocatorCodec : Messagepack HandoverLocator := .single (.new 4096 1) sampleLocator

def sampleServices : BootServices := ⟨fun _ => .ok 4096, .ok ()⟩

/-- The machine after the loader has handed over a 7. -/
def sevenHanded : Machine :=
  (installHandover sevenCodec sampleLocatorCodec vckHandover sampleServices 7 ⟨fun _ => 0, fun _ => none⟩).2

/-- What a kernel that reads every variable says about one. -/
def fetchVariable (value : Option Bytes) (size : UInt32) : VariableAnswer :=
  match value with
  | none => ⟨(0xC0000100 : UInt32).toInt32, 0, []⟩
  | some value =>
    if size.toNat < value.length then ⟨statusBufferTooSmall, UInt32.ofNat value.length, []⟩
    else ⟨0, UInt32.ofNat value.length, value⟩

/-- A kernel none of whose calls fails, above the machine. -/
def Machine.kernel (m : Machine) : Kernel := ⟨fun var size => fetchVariable (m.vars var) size, true, true⟩

theorem fetchVariable_tooSmall {value : Option Bytes} {size : UInt32} (hlt : ∀ b ∈ value, b.length < 2 ^ 32)
    (h : (fetchVariable value size).status = statusBufferTooSmall) :
    ∃ b, value = some b ∧ (fetchVariable value size).length.toNat = b.length := by
  cases value with
  | none =>
    have hstatus : (0xC0000100 : UInt32).toInt32 = statusBufferTooSmall := h
    exact absurd hstatus (by decide)
  | some b =>
    have hlen : (UInt32.ofNat b.length).toNat = b.length := UInt32.toNat_ofNat_of_lt' (hlt b rfl)
    refine ⟨b, rfl, ?_⟩
    rw [fetchVariable]
    split <;> exact hlen

theorem fetchVariable_success {value : Option Bytes} {size : UInt32} (hlt : ∀ b ∈ value, b.length < 2 ^ 32)
    (h : 0 ≤ (fetchVariable value size).status) :
    ∃ b, value = some b ∧ (fetchVariable value size).length.toNat = b.length ∧ (fetchVariable value size).value = b := by
  cases value with
  | none =>
    have hstatus : (0 : Int32) ≤ (0xC0000100 : UInt32).toInt32 := h
    exact absurd hstatus (by decide)
  | some b =>
    have hlen : (UInt32.ofNat b.length).toNat = b.length := UInt32.toNat_ofNat_of_lt' (hlt b rfl)
    refine ⟨b, rfl, ?_⟩
    rw [fetchVariable] at h ⊢
    by_cases hsize : size.toNat < b.length
    · rw [if_pos hsize] at h
      have hstatus : (0 : Int32) ≤ statusBufferTooSmall := h
      exact absurd hstatus (by decide)
    · rw [if_neg hsize]
      exact ⟨hlen, rfl⟩

theorem Machine.kernel_reads {m : Machine} (hlt : ∀ var, ∀ b ∈ m.vars var, b.length < 2 ^ 32) : m.kernel.Reads m :=
  ⟨fun {var _} h => fetchVariable_tooSmall (hlt var) h, fun {var _} h => fetchVariable_success (hlt var) h⟩

/-- A machine on which one variable has been set. -/
theorem Machine.kernel_reads_of_update {m : Machine} {var : Variable} {value : Bytes}
    (hvars : m.vars = Function.update (fun _ => none) var (some value)) (hlt : value.length < 2 ^ 32) :
    m.kernel.Reads m := by
  refine kernel_reads ?_
  intro var' b hb
  rw [hvars, Function.update_apply] at hb
  split at hb
  · obtain rfl := Option.some.inj hb
    exact hlt
  · cases hb

theorem Machine.kernel_fetches {m : Machine} {var : Variable} {value : Bytes} (hvar : m.vars var = some value)
    (hne : value ≠ []) (hlt : value.length < 2 ^ 32) : m.kernel.Fetches var := by
  have hlen : (UInt32.ofNat value.length).toNat = value.length := UInt32.toNat_ofNat_of_lt' hlt
  have hprobe : m.kernel.getVariable var 0 = ⟨statusBufferTooSmall, UInt32.ofNat value.length, []⟩ := by
    simp only [kernel, hvar, fetchVariable]
    exact if_pos (List.length_pos_iff.mpr hne)
  refine ⟨by rw [hprobe], rfl, ?_⟩
  rw [hprobe]
  simp only [kernel, hvar, fetchVariable, hlen, Nat.lt_irrefl, if_false]
  decide

theorem handover_read_iff_seven :
    (readHandover sevenCodec sampleLocatorCodec sevenHanded.kernel vckHandover sevenHanded).1 = .ok 7 := by
  have hinst : installHandover sevenCodec sampleLocatorCodec vckHandover sampleServices 7 ⟨fun _ => 0, fun _ => none⟩ =
      (.ok (), sevenHanded) := rfl
  have hC : sevenCodec.Lawful := Messagepack.lawful_single 7 (by decide)
  have hCL : sampleLocatorCodec.Lawful := Messagepack.lawful_single (HandoverLocator.new 4096 1) (by decide)
  have henc : sevenCodec.toVec 7 = .ok [7] := rfl
  have halloc : sampleServices.allocatePool ([7] : Bytes).length = .ok 4096 := rfl
  have hvars : sevenHanded.vars = Function.update (fun _ => none) vckHandover (some sampleLocator) := rfl
  have hreads : sevenHanded.kernel.Reads sevenHanded := Machine.kernel_reads_of_update hvars (by decide)
  have hvar : sevenHanded.vars vckHandover = some sampleLocator := by
    rw [hvars, Function.update_self]
  have hfetch : sevenHanded.kernel.Fetches vckHandover := Machine.kernel_fetches hvar (by decide) (by decide)
  have hread := (handover_read_iff hC hCL henc (by decide) halloc (by decide) hinst ⟨rfl, fun _ _ => rfl⟩ hreads).1.mpr
    ⟨hfetch, rfl, by decide⟩
  exact congrArg Prod.fst hread

end Handover

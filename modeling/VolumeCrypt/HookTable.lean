import VolumeCrypt.FailClosed
import VolumeCrypt.SlotTable
import Mathlib.Logic.Function.Basic

/-!
# The table of Block IO hooks

`lib/loader/src/hook/block_io.rs` saves the routines of a hooked protocol in a table of
eight slots and finds them there by the address of the protocol. Hooks may be installed and
removed in any order, also twice on one protocol. A second hook of a protocol saves the first
one as its original; it does no harm as long as its slot lies behind that of the first.
-/
namespace HookTable

open ByteString VckTypes SectorIo LoaderHook SlotTable
open FailClosed (EfiStatus Firmware HookEntry hookedReadBlocks hookedWriteBlocks)

/-- The address of an `EFI_BLOCK_IO_PROTOCOL` instance. -/
abbrev Protocol := Nat

/-- What a function pointer of a protocol points to. -/
inductive Routine where
  | firmware (F : Firmware)
  | hooked

/-- The function pointers of a protocol instance. -/
structure BlockIoProtocol where
  readBlocks : Routine
  writeBlocks : Routine

/-- An entry with the key and the saved pointers. -/
structure Entry extends HookEntry where
  protocol : Protocol
  originalRead : Routine
  originalWrite : Routine

def maxHooks : Nat := 8

/-- The protocol instances of the firmware and `HOOK_TABLE`. -/
structure State where
  instances : Protocol → BlockIoProtocol
  entries : List (Option Entry)
  length_entries : entries.length = maxHooks

namespace State

/-- The entries that are there, in slot order. -/
def live (s : State) : List Entry := s.entries.reduceOption

def findEntry (s : State) (p : Protocol) : Option Entry := s.live.find? (·.protocol = p)

/-- `BlockIoHook::install`. -/
def install (s : State) (p : Protocol) (engine : Option BlockIoHookEngine) : VckResult State :=
  match h : place ⟨⟨engine⟩, p, (s.instances p).readBlocks, (s.instances p).writeBlocks⟩ s.entries with
  | none => .error (.io "Block IO hook table is full")
  | some entries => .ok ⟨Function.update s.instances p ⟨.hooked, .hooked⟩, entries, (length_place h).trans s.length_entries⟩

/-- `BlockIoHook::uninstall`: the first entry is restored, all entries of the protocol go. -/
def uninstall (s : State) (p : Protocol) : State :=
  match s.findEntry p with
  | none => s
  | some entry =>
    { instances := Function.update s.instances p ⟨entry.originalRead, entry.originalWrite⟩
      entries := clear (·.protocol = p) s.entries
      length_entries := by simp [clear, s.length_entries] }

/-- A call of `ReadBlocks` that nests at most `fuel` routines; `none` when that is not enough. -/
def callRead (s : State) (p : Protocol) (media : Option UInt32) (lba : UInt64) (size : Nat) (d : Device) :
    Nat → Routine → Nat → Option Bytes → Option (EfiStatus × Option Bytes)
  | 0, _, _, _ => none
  | _ + 1, .firmware F, _, buffer => some (F.readBlocks d lba size buffer)
  | fuel + 1, .hooked, call, buffer =>
    match s.findEntry p with
    | none => some (.deviceError, buffer)
    | some entry =>
      (s.callRead p media lba size d fuel entry.originalRead (call + 1) buffer).map fun answer =>
        hookedReadBlocks ⟨fun _ _ _ _ => answer, fun d _ _ _ => (.deviceError, d)⟩ (some entry.toHookEntry) media call
          lba size buffer d

def callWrite (s : State) (p : Protocol) (media : Option UInt32) (lba : UInt64) (d : Device) :
    Nat → Routine → Nat → Nat → Option Bytes → Option (EfiStatus × Device)
  | 0, _, _, _, _ => none
  | _ + 1, .firmware F, _, size, buffer => some (F.writeBlocks d lba size buffer)
  | fuel + 1, .hooked, call, size, buffer =>
    match s.findEntry p with
    | none => some (.deviceError, d)
    | some entry =>
      match media, buffer, entry.engine with
      | some blockSize, some buf, some engine =>
        if size = 0 ∨ blockSize = 0 then s.callWrite p media lba d fuel entry.originalWrite (call + 1) size buffer
        else
          match engine.encryptBeforeWrite call lba blockSize.toNat (buf.take size) with
          | .error _ => some (.deviceError, d)
          | .ok encrypted =>
            s.callWrite p media lba d fuel entry.originalWrite (call + 1) encrypted.length (some encrypted)
      | _, _, _ => s.callWrite p media lba d fuel entry.originalWrite (call + 1) size buffer

end State

/-! ## Runs -/

inductive Op where
  | install (p : Protocol) (engine : Option BlockIoHookEngine)
  | uninstall (p : Protocol)

/-- An install that fails leaves everything as it was. -/
def step (s : State) : Op → State
  | .install p engine =>
    match s.install p engine with
    | .error _ => s
    | .ok s' => s'
  | .uninstall p => s.uninstall p

def run (s : State) (ops : List Op) : State := ops.foldl step s

/-- Before the loader runs no protocol is hooked. -/
def booted (F : Protocol → Firmware) : State :=
  ⟨fun p => ⟨.firmware (F p), .firmware (F p)⟩, List.replicate maxHooks none, List.length_replicate⟩

/-- A hook installed now on `p` would lie below the ones that `p` has. -/
def Overtakes (s : State) (p : Protocol) : Prop :=
  (∃ e ∈ s.live, e.protocol = p) ∧ ∀ e ∈ front s.entries, e.protocol ≠ p

instance (s : State) (p : Protocol) : Decidable (Overtakes s p) := inferInstanceAs (Decidable (_ ∧ _))

/-- No install of the run overtakes an older hook of `p`. -/
def Orderly (p : Protocol) : State → List Op → Prop
  | _, [] => True
  | s, op :: ops => (∀ engine, op = .install p engine → ¬ Overtakes s p) ∧ Orderly p (step s op) ops

/-! ## What the hooks are for -/

/-- The hooks that are in force, in the order of their installation. -/
abbrev Hooks := List (Protocol × Option BlockIoHookEngine)

def apply (hooks : Hooks) : Op → Hooks
  | .install p engine => if hooks.length < maxHooks then hooks ++ [(p, engine)] else hooks
  | .uninstall p => hooks.filter (·.1 ≠ p)

/-- The hook that serves `p` is the oldest. -/
def serving (hooks : Hooks) (p : Protocol) : Option HookEntry := (hooks.find? (·.1 = p)).map fun x => ⟨x.2⟩

/-- `ReadBlocks` of a protocol with at most one hook. -/
def read (F : Firmware) (hook : Option HookEntry) (media : Option UInt32) (call : Nat) (lba : UInt64) (size : Nat)
    (buffer : Option Bytes) (d : Device) : EfiStatus × Option Bytes :=
  match hook with
  | none => F.readBlocks d lba size buffer
  | some hook => hookedReadBlocks F (some hook) media call lba size buffer d

def write (F : Firmware) (hook : Option HookEntry) (media : Option UInt32) (call : Nat) (lba : UInt64) (size : Nat)
    (buffer : Option Bytes) (d : Device) : EfiStatus × Device :=
  match hook with
  | none => F.writeBlocks d lba size buffer
  | some hook => hookedWriteBlocks F (some hook) media call lba size buffer d

/-! ## The table and the hooks in force -/

/-- The table holds exactly the hooks in force. -/
def Tracks (s : State) (hooks : Hooks) : Prop := (s.live.map fun e => (e.protocol, e.engine)).Perm hooks

/-- `p` has the pointers of the firmware, or its first entry has them and its oldest hook. -/
def Sound (F : Firmware) (p : Protocol) (s : State) (hooks : Hooks) : Prop :=
  match serving hooks p with
  | none => s.instances p = ⟨.firmware F, .firmware F⟩ ∧ s.findEntry p = none
  | some hook => s.instances p = ⟨.hooked, .hooked⟩ ∧ s.findEntry p = some ⟨hook, p, .firmware F, .firmware F⟩

/-- The pointers of the firmware are out of reach. -/
def Lost (p : Protocol) (s : State) : Prop :=
  s.instances p = ⟨.hooked, .hooked⟩ ∧
    ∀ e, s.findEntry p = some e → e.originalRead = .hooked ∧ e.originalWrite = .hooked

section Step

variable {F : Firmware} {p q : Protocol} {s : State} {hooks : Hooks} {engine : Option BlockIoHookEngine} {op : Op}

/-- Everything an install can do. -/
theorem step_install (s : State) (q : Protocol) (engine : Option BlockIoHookEngine) :
    (maxHooks ≤ s.live.length ∧ s.live = front s.entries ∧ step s (.install q engine) = s) ∨
    (s.live.length < maxHooks ∧ ∃ rest, s.live = front s.entries ++ rest ∧
      (step s (.install q engine)).live = front s.entries ++
        ⟨⟨engine⟩, q, (s.instances q).readBlocks, (s.instances q).writeBlocks⟩ :: rest ∧
      (step s (.install q engine)).instances = Function.update s.instances q ⟨.hooked, .hooked⟩) := by
  have hiff := place_isSome_iff (a := (⟨⟨engine⟩, q, (s.instances q).readBlocks, (s.instances q).writeBlocks⟩ : Entry))
    (l := s.entries)
  rw [s.length_entries] at hiff
  simp only [step, State.install]
  split
  · rename_i heq
    split at heq
    · rename_i hnone
      left
      rw [hnone] at hiff
      refine ⟨Nat.not_lt.mp fun h => ?_, ?_, rfl⟩
      · cases hiff.mpr h
      · exact (congrArg List.reduceOption (place_eq_none_iff.mp hnone)).trans (reduceOption_map_some _)
    · cases heq
  · rename_i heq
    split at heq
    · cases heq
    · rename_i hsome
      obtain rfl := Except.ok.inj heq
      rw [hsome] at hiff
      right
      obtain ⟨rest, hlive, hnew⟩ := reduceOption_place hsome
      exact ⟨hiff.mp rfl, rest, hlive, hnew, rfl⟩

theorem step_uninstall_live (s : State) (q : Protocol) :
    (step s (.uninstall q)).live = s.live.filter fun e => !decide (e.protocol = q) := by
  simp only [step, State.uninstall]
  split
  · rename_i hnone
    rw [State.findEntry, List.find?_eq_none] at hnone
    refine (List.filter_eq_self.mpr ?_).symm
    intro e he
    simpa using hnone e he
  · exact reduceOption_clear _ _

theorem Tracks.step (h : Tracks s hooks) (op : Op) : Tracks (step s op) (apply hooks op) := by
  have hlen : s.live.length = hooks.length := by
    rw [← h.length_eq, List.length_map]
  cases op with
  | install q engine =>
    rcases step_install s q engine with ⟨hfull, -, hs⟩ | ⟨hroom, rest, hlive, hnew, -⟩
    · rw [hs, apply, if_neg (by omega)]
      exact h
    · rw [apply, if_pos (by omega), Tracks, hnew]
      rw [Tracks, hlive] at h
      simp only [List.map_append, List.map_cons] at h ⊢
      exact List.perm_middle.trans ((List.perm_append_singleton _ _).symm.trans (h.append_right _))
  | uninstall q =>
    have hfilter := List.Perm.filter (fun x => decide (x.1 ≠ q)) h
    rw [List.filter_map] at hfilter
    rw [Tracks, step_uninstall_live, apply]
    simpa [Function.comp_def] using hfilter

/-- What happens to other protocols changes neither pointers nor entry. -/
theorem findEntry_step_of_ne (h : ∀ engine, op ≠ .install p engine) (h' : op ≠ .uninstall p) :
    (HookTable.step s op).findEntry p = s.findEntry p ∧ (HookTable.step s op).instances p = s.instances p := by
  cases op with
  | install q engine =>
    have hne : p ≠ q := by
      rintro rfl
      exact h engine rfl
    rcases step_install s q engine with ⟨-, -, hs⟩ | ⟨-, rest, hlive, hnew, hinst⟩
    · rw [hs]
      exact ⟨rfl, rfl⟩
    · rw [State.findEntry, State.findEntry, hnew, hlive, hinst, Function.update_of_ne hne]
      simp [hne.symm]
  | uninstall q =>
    have hne : p ≠ q := by
      rintro rfl
      exact h' rfl
    constructor
    · rw [State.findEntry, step_uninstall_live, List.find?_filter, State.findEntry]
      congr 1
      funext e
      by_cases he : e.protocol = p <;> simp [he, hne]
    · simp only [HookTable.step, State.uninstall]
      split
      · rfl
      · exact Function.update_of_ne hne _ _

theorem serving_apply_of_ne (h : ∀ engine, op ≠ .install p engine) (h' : op ≠ .uninstall p) :
    serving (apply hooks op) p = serving hooks p := by
  cases op with
  | install q engine =>
    have hne : q ≠ p := by
      rintro rfl
      exact h engine rfl
    rw [apply]
    split
    · simp [serving, hne]
    · rfl
  | uninstall q =>
    have hne : q ≠ p := by
      rintro rfl
      exact h' rfl
    rw [apply, serving, serving, List.find?_filter]
    congr 2
    funext x
    by_cases hx : x.1 = p <;> simp [hx, hne.symm]

/-- A free slot below the entries of a protocol is what it takes to overtake them. -/
theorem Overtakes.room (h : Overtakes s p) : s.live.length < maxHooks := by
  rcases step_install s p none with ⟨-, hfront, -⟩ | ⟨hroom, -⟩
  · obtain ⟨⟨e, he, hp⟩, hall⟩ := h
    rw [hfront] at he
    exact absurd hp (hall e he)
  · exact hroom

theorem serving_uninstall (hooks : Hooks) (p : Protocol) : serving (apply hooks (.uninstall p)) p = none := by
  rw [apply, serving, List.find?_filter, Option.map_eq_none_iff, List.find?_eq_none]
  intro x _
  simp

theorem findEntry_uninstall (s : State) (p : Protocol) : (HookTable.step s (.uninstall p)).findEntry p = none := by
  rw [State.findEntry, step_uninstall_live, List.find?_filter, List.find?_eq_none]
  intro e _
  simp

theorem Sound.uninstall (h : Sound F p s hooks) : (s.uninstall p).instances p = ⟨.firmware F, .firmware F⟩ := by
  rw [Sound] at h
  rw [State.uninstall]
  split at h
  · rw [h.2]
    exact h.1
  · rw [h.2]
    exact Function.update_self ..

theorem Lost.uninstall (h : Lost p s) : (s.uninstall p).instances p = ⟨.hooked, .hooked⟩ := by
  rw [State.uninstall]
  cases he : s.findEntry p with
  | none => exact h.1
  | some e =>
    obtain ⟨hr, hw⟩ := h.2 e he
    simp only [hr, hw]
    exact Function.update_self ..

/-- The first entry of `p` behind an install on `p`. -/
theorem findEntry_install (engine : Option BlockIoHookEngine) (hroom : s.live.length < maxHooks) :
    (HookTable.step s (.install p engine)).instances p = ⟨.hooked, .hooked⟩ ∧
    (HookTable.step s (.install p engine)).findEntry p =
      if Overtakes s p ∨ (s.findEntry p).isNone then
        some ⟨⟨engine⟩, p, (s.instances p).readBlocks, (s.instances p).writeBlocks⟩
      else s.findEntry p := by
  rcases step_install s p engine with ⟨hfull, -, -⟩ | ⟨-, rest, hlive, hnew, hinst⟩
  · omega
  rw [hinst, Function.update_self]
  refine ⟨rfl, ?_⟩
  rw [State.findEntry, State.findEntry, hnew, hlive, List.find?_append, List.find?_append]
  cases hfront : (front s.entries).find? (·.protocol = p) with
  | some e =>
    have hmem := List.mem_of_find?_eq_some hfront
    have hp := List.find?_some hfront
    rw [if_neg]
    · rfl
    · rintro (hover | hnone)
      · exact hover.2 e hmem (by simpa using hp)
      · cases hnone
  | none =>
    rw [List.find?_eq_none] at hfront
    rw [if_pos]
    · simp
    · by_cases hex : ∃ e ∈ s.live, e.protocol = p
      · refine Or.inl ⟨hex, ?_⟩
        intro e he
        simpa using hfront e he
      · right
        rw [Option.none_or, Option.isNone_iff_eq_none, List.find?_eq_none]
        intro e he
        have hmem : e ∈ s.live := by
          rw [hlive]
          exact List.mem_append_right _ he
        simpa using fun hp => hex ⟨e, hmem, hp⟩

theorem serving_install (hroom : hooks.length < maxHooks) :
    serving (apply hooks (.install p engine)) p = some ((serving hooks p).getD ⟨engine⟩) := by
  rw [apply, if_pos hroom, serving, serving, List.find?_append]
  cases hooks.find? (·.1 = p) with
  | none => simp
  | some x => simp

theorem Tracks.length_eq (h : Tracks s hooks) : s.live.length = hooks.length := by
  have hperm := List.Perm.length_eq h
  rwa [List.length_map] at hperm

/-- A step that does not overtake keeps `p` in order. -/
theorem Sound.step (h : Sound F p s hooks) (ht : Tracks s hooks)
    (hno : ∀ engine, op = .install p engine → ¬ Overtakes s p) :
    Sound F p (HookTable.step s op) (apply hooks op) := by
  by_cases hother : (∀ engine, op ≠ .install p engine) ∧ op ≠ .uninstall p
  · obtain ⟨hfind, hinst⟩ := findEntry_step_of_ne (s := s) hother.1 hother.2
    rw [Sound, hfind, hinst, serving_apply_of_ne hother.1 hother.2]
    exact h
  · cases op with
    | uninstall q =>
      obtain rfl : q = p := by simpa using hother
      rw [Sound, serving_uninstall]
      exact ⟨h.uninstall, findEntry_uninstall s q⟩
    | install q engine =>
      obtain rfl : q = p := by simpa using hother
      by_cases hroom : s.live.length < maxHooks
      · obtain ⟨hinst, hfind⟩ := findEntry_install (s := s) (p := q) engine hroom
        rw [Sound, hinst, hfind, serving_install (ht.length_eq ▸ hroom)]
        refine ⟨rfl, ?_⟩
        rw [Sound] at h
        split at h
        · rename_i hserving
          rw [if_pos (Or.inr (by rw [h.2]; rfl)), h.1, hserving]
          rfl
        · rename_i hook hserving
          rw [if_neg, h.2, hserving]
          · rfl
          · rintro (hover | hnone)
            · exact hno engine rfl hover
            · rw [h.2] at hnone
              cases hnone
      · have hs : HookTable.step s (.install q engine) = s := by
          rcases step_install s q engine with ⟨-, -, hs⟩ | ⟨hlt, -⟩
          · exact hs
          · exact absurd hlt hroom
        rw [hs, apply, if_neg (ht.length_eq ▸ hroom)]
        exact h

/-- An install that overtakes saves the hook as its own original. -/
theorem Sound.lost_of_overtakes (h : Sound F p s hooks) (hover : Overtakes s p) (engine : Option BlockIoHookEngine) :
    Lost p (HookTable.step s (.install p engine)) := by
  obtain ⟨hinst, hfind⟩ := findEntry_install engine hover.room
  refine ⟨hinst, ?_⟩
  intro e he
  rw [hfind, if_pos (Or.inl hover)] at he
  obtain rfl := Option.some.inj he
  rw [Sound] at h
  split at h
  · -- a protocol that is overtaken has an entry
    obtain ⟨⟨e, hmem, hp⟩, -⟩ := hover
    have hnone := List.find?_eq_none.mp h.2 e hmem
    simp [hp] at hnone
  · rw [h.1]
    exact ⟨rfl, rfl⟩

/-- What is lost no step brings back. -/
theorem Lost.step (h : Lost p s) (op : Op) : Lost p (HookTable.step s op) := by
  by_cases hother : (∀ engine, op ≠ .install p engine) ∧ op ≠ .uninstall p
  · obtain ⟨hfind, hinst⟩ := findEntry_step_of_ne (s := s) hother.1 hother.2
    rw [Lost, hfind, hinst]
    exact h
  · cases op with
    | uninstall q =>
      obtain rfl : q = p := by simpa using hother
      refine ⟨h.uninstall, ?_⟩
      intro e he
      rw [findEntry_uninstall] at he
      cases he
    | install q engine =>
      obtain rfl : q = p := by simpa using hother
      by_cases hroom : s.live.length < maxHooks
      · obtain ⟨hinst, hfind⟩ := findEntry_install (s := s) (p := q) engine hroom
        refine ⟨hinst, ?_⟩
        intro e he
        rw [hfind] at he
        split at he
        · obtain rfl := Option.some.inj he
          rw [h.1]
          exact ⟨rfl, rfl⟩
        · exact h.2 e he
      · rcases step_install s q engine with ⟨-, -, hs⟩ | ⟨hlt, -⟩
        · rw [hs]
          exact h
        · exact absurd hlt hroom

end Step

/-! ## Calls -/

section Calls

variable {F : Firmware} {p : Protocol} {s : State} {hooks : Hooks} (media : Option UInt32) (lba : UInt64) (d : Device)

theorem Sound.callRead (h : Sound F p s hooks) (size fuel call : Nat) (buffer : Option Bytes) :
    s.callRead p media lba size d (fuel + 2) (s.instances p).readBlocks call buffer =
      some (read F (serving hooks p) media call lba size buffer d) := by
  rw [Sound] at h
  split at h
  · rename_i hserving
    rw [h.1, hserving, State.callRead]
    rfl
  · rename_i hook hserving
    rw [h.1, hserving, State.callRead, h.2]
    rfl

theorem Sound.callWrite (h : Sound F p s hooks) (size fuel call : Nat) (buffer : Option Bytes) :
    s.callWrite p media lba d (fuel + 2) (s.instances p).writeBlocks call size buffer =
      some (write F (serving hooks p) media call lba size buffer d) := by
  rw [Sound] at h
  split at h
  · rename_i hserving
    rw [h.1, hserving, State.callWrite]
    rfl
  · rename_i hook hserving
    rw [h.1, hserving, State.callWrite, h.2]
    obtain ⟨engine⟩ := hook
    rcases media with _ | blockSize <;> rcases buffer with _ | buf <;> rcases engine with _ | engine <;> try rfl
    simp only [write, hookedWriteBlocks, State.callWrite]
    split
    · rfl
    · cases engine.encryptBeforeWrite call lba blockSize.toNat (buf.take size) <;> rfl

/-- Without the firmware's pointer the hook has nothing to call but itself. -/
theorem Lost.callRead (h : Lost p s) (size : Nat) {fuel call : Nat} {buffer : Option Bytes}
    {answer : EfiStatus × Option Bytes}
    (hcall : s.callRead p media lba size d fuel .hooked call buffer = some answer) : answer = (.deviceError, buffer) := by
  induction fuel generalizing call answer with
  | zero => cases hcall
  | succ fuel ih =>
    rw [State.callRead] at hcall
    split at hcall
    · exact (Option.some.inj hcall).symm
    · rename_i entry hentry
      rw [(h.2 entry hentry).1, Option.map_eq_some_iff] at hcall
      obtain ⟨inner, hinner, rfl⟩ := hcall
      rw [ih hinner]
      rfl

theorem Lost.callWrite (h : Lost p s) {size fuel call : Nat} {buffer : Option Bytes} {answer : EfiStatus × Device}
    (hcall : s.callWrite p media lba d fuel .hooked call size buffer = some answer) : answer = (.deviceError, d) := by
  induction fuel generalizing call size buffer with
  | zero => cases hcall
  | succ fuel ih =>
    rw [State.callWrite] at hcall
    split at hcall
    · exact (Option.some.inj hcall).symm
    · rename_i entry hentry
      rw [(h.2 entry hentry).2] at hcall
      split at hcall
      · split at hcall
        · exact ih hcall
        · split at hcall
          · exact (Option.some.inj hcall).symm
          · exact ih hcall
      · exact ih hcall

end Calls

/-! ## Whole runs -/

section Runs

variable {F : Firmware} {p : Protocol} {s : State} {hooks : Hooks} {ops : List Op}

theorem Sound.run (h : Sound F p s hooks) (ht : Tracks s hooks) (horder : Orderly p s ops) :
    Sound F p (HookTable.run s ops) (ops.foldl apply hooks) := by
  induction ops generalizing s hooks with
  | nil => exact h
  | cons op ops ih =>
    obtain ⟨hno, hrest⟩ := horder
    exact ih (h.step ht hno) (ht.step op) hrest

theorem Lost.run (h : Lost p s) (ops : List Op) : Lost p (HookTable.run s ops) := by
  induction ops generalizing s with
  | nil => exact h
  | cons op ops ih => exact ih (h.step op)

theorem Sound.lost_of_not_orderly (h : Sound F p s hooks) (ht : Tracks s hooks) (horder : ¬ Orderly p s ops) :
    Lost p (HookTable.run s ops) := by
  induction ops generalizing s hooks with
  | nil => exact absurd trivial horder
  | cons op ops ih =>
    by_cases hno : ∀ engine, op = .install p engine → ¬ Overtakes s p
    · exact ih (h.step ht hno) (ht.step op) fun hrest => horder ⟨hno, hrest⟩
    · push Not at hno
      obtain ⟨engine, rfl, hover⟩ := hno
      exact (h.lost_of_overtakes hover engine).run ops

theorem sound_booted (F : Protocol → Firmware) (p : Protocol) : Sound (F p) p (booted F) [] := ⟨rfl, rfl⟩

theorem tracks_booted (F : Protocol → Firmware) : Tracks (booted F) [] := List.Perm.refl []

/-- After any installs and removals a protocol reads and writes as its oldest hook says, and a removal gives it
the pointers of the firmware, as long as no install has overtaken its older hooks. After one that has, no call on
the protocol ever succeeds, and a removal leaves the hook in place. Behind a removal there is no entry in any case. -/
theorem hooks_serve (F : Protocol → Firmware) (ops : List Op) (p : Protocol) :
    (Orderly p (booted F) ops →
      (∀ media lba d size fuel call buffer,
        (run (booted F) ops).callRead p media lba size d (fuel + 2) ((run (booted F) ops).instances p).readBlocks call
            buffer = some (read (F p) (serving (ops.foldl apply []) p) media call lba size buffer d) ∧
        (run (booted F) ops).callWrite p media lba d (fuel + 2) ((run (booted F) ops).instances p).writeBlocks call size
            buffer = some (write (F p) (serving (ops.foldl apply []) p) media call lba size buffer d)) ∧
      ((run (booted F) ops).uninstall p).instances p = ⟨.firmware (F p), .firmware (F p)⟩) ∧
    (¬ Orderly p (booted F) ops →
      (∀ media lba d size fuel call buffer,
        (∀ answer, (run (booted F) ops).callRead p media lba size d fuel ((run (booted F) ops).instances p).readBlocks call
            buffer = some answer → answer = (.deviceError, buffer)) ∧
        (∀ answer, (run (booted F) ops).callWrite p media lba d fuel ((run (booted F) ops).instances p).writeBlocks call
            size buffer = some answer → answer = (.deviceError, d))) ∧
      ((run (booted F) ops).uninstall p).instances p = ⟨.hooked, .hooked⟩) ∧
    ((run (booted F) ops).uninstall p).findEntry p = none := by
  refine ⟨?_, ?_, findEntry_uninstall (run (booted F) ops) p⟩
  · intro horder
    have hsound := (sound_booted F p).run (tracks_booted F) horder
    refine ⟨?_, hsound.uninstall⟩
    intro media lba d size fuel call buffer
    exact ⟨hsound.callRead media lba d size fuel call buffer, hsound.callWrite media lba d size fuel call buffer⟩
  · intro horder
    have hlost := (sound_booted F p).lost_of_not_orderly (tracks_booted F) horder
    refine ⟨?_, hlost.uninstall⟩
    intro media lba d size fuel call buffer
    rw [hlost.1]
    exact ⟨fun answer hcall => hlost.callRead media lba d size hcall, fun answer hcall => hlost.callWrite media lba d hcall⟩

/-- The second hook of protocol 2 takes the slot that protocol 1 has given back. -/
example : ¬ Orderly 2 (booted fun _ => ⟨fun _ _ _ buffer => (.success, buffer), fun d _ _ _ => (.success, d)⟩)
    [.install 1 none, .install 2 none, .uninstall 1, .install 2 none] := by
  rintro ⟨-, -, -, h, -⟩
  exact h none rfl (by decide)

end Runs

end HookTable

import VolumeCrypt.JvckRecovery

/-!
# Crash and reopen, any number of times

Runs of `store` and `store_state` in which any call may be cut off behind any number of replica
writes and is then followed by `open`. The offset comes back as the largest of all replicas and the
state as that of the first, so a replica that an earlier crash left behind can speak up later.
-/
namespace CrashCycles

open ByteString VckTypes SectorIo JvckLayout JvckStore JvckReplicas JvckRuns JvckRecovery
open JvckMetadata (Primitives JvckHeader JvckSecrets)

inductive Call where
  | store (offset : EncryptedOffset)
  | storeState (state : VolumeState)
  deriving DecidableEq, Repr

/-- The store whose fields the call seals. -/
def Call.target (s : JvckMetadataStore) : Call → JvckMetadataStore
  | .store offset => { s with offset := offset.sector }
  | .storeState state => { s with state := state.asU16 }

def Call.run (s : JvckMetadataStore) (d : Device) : Call → VckResult Unit × JvckMetadataStore × Device
  | .store offset => s.store d offset
  | .storeState state => s.storeState d state

/-- The device after the call was cut off behind `k` replica writes. -/
def Call.cutOff (k : Nat) (s : JvckMetadataStore) (d : Device) (c : Call) : Device :=
  ((c.target s).writeReplicas k d).2

/-- The pair that the call writes over `p`. -/
def Call.written (p : UInt64 × VolumeState) : Call → UInt64 × VolumeState
  | .store offset => (offset.sector, p.2)
  | .storeState state => (p.1, state)

/-- A call that completes, or one that is cut off and followed by `open`. -/
inductive Op where
  | complete (c : Call)
  | crash (c : Call) (k : Nat)
  deriving DecidableEq, Repr

def step (P : Primitives) (x : JvckMetadataStore × Device) : Op → Option (JvckMetadataStore × Device)
  | .complete c =>
    match c.run x.1 x.2 with
    | (.ok (), s, d) => some (s, d)
    | (.error _, _, _) => none
  | .crash c k =>
    match JvckMetadataStore.openStore P (c.cutOff k x.1 x.2) x.1.vmk with
    | .ok s => some (s, c.cutOff k x.1 x.2)
    | .error _ => none

/-- `(load_offset, load_state)`. -/
def observe (P : Primitives) (x : JvckMetadataStore × Device) : VckResult (UInt64 × VolumeState) := do
  let offset ← x.1.loadOffset P x.2
  let state ← x.1.loadState
  return (offset, state)

/-- Before and after the operation a pair can be observed, and the second is the first or the one written. -/
def Atomic (P : Primitives) (x : JvckMetadataStore × Device) (op : Op) (x' : JvckMetadataStore × Device) : Prop :=
  ∃ p p', observe P x = .ok p ∧ observe P x' = .ok p' ∧
    match op with
    | .complete c => p' = c.written p
    | .crash c _ => p' = p ∨ p' = c.written p

/-- The offsets of the replicas that a call does not reach in `k` writes. -/
def unreached (P : Primitives) (x : JvckMetadataStore × Device) (k : Nat) : List UInt64 :=
  ((x.1.lbas.zipIdx 0).drop k).filterMap fun y => replicaOffset P x.1 x.2 y.2 y.1

/-- A cut-off `store` does not uncover an offset between the one it writes and the one in force. -/
def Covers (P : Primitives) (x : JvckMetadataStore × Device) : Op → Prop
  | .crash (.store offset) k => ∀ m, IsLargest m (unreached P x k) → ¬ (offset.sector < m ∧ m < x.1.offset)
  | _ => True

/-! ## What the replicas hold along a run -/

/-- Every replica is intact, the store's offset is the largest and its state that of the first. -/
structure Tracked (P : Primitives) (L : Layout) (content : Nat → UInt64 × VolumeState)
    (x : JvckMetadataStore × Device) : Prop where
  on : On x.1.toPlacement L x.2
  options : x.1.options = JvckMetadataReader.optionsOf x.1.header
  codec : x.1.codec = jvckCbcCodec P
  healthy : Healthy x.2
  holds : (suiteOf x.1).Holds P L x.2 fun i => some (content i)
  largest : IsLargest x.1.offset ((List.range L.count).map fun i => (content i).1)
  first : (content 0).2 = VolumeState.fromU16 x.1.state

theorem largest_unique {m m' : UInt64} {l : List UInt64} (h : IsLargest m l) (h' : IsLargest m' l) : m = m' :=
  UInt64.le_antisymm (h'.2 m h.1) (h.2 m' h'.1)

theorem survivors_some (content : Nat → UInt64 × VolumeState) (n : Nat) :
    survivors (fun i => some (content i)) n = (List.range n).map fun i => (content i).1 := by
  simp [survivors, List.filterMap_eq_map']

section Steps

variable {P : Primitives} {L : Layout} {content : Nat → UInt64 × VolumeState} {x : JvckMetadataStore × Device}

theorem Tracked.lawful (h : Tracked P L content x) : LawfulCodec P (suiteOf x.1).codec := by
  rw [suiteOf, h.codec]
  exact jvckCbcCodec_lawful P

theorem Tracked.observe (h : Tracked P L content x) (hn : 0 < L.count) :
    observe P x = .ok (x.1.offset, VolumeState.fromU16 x.1.state) := by
  have hne : survivors (fun i => some (content i)) L.count ≠ [] := by
    rw [survivors_some]
    simpa using Nat.ne_of_gt hn
  obtain ⟨m, hm, hlargest⟩ := loadOffset_of_holds (K := suiteOf x.1) h.lawful h.on rfl rfl rfl h.holds hne
  rw [survivors_some] at hlargest
  rw [largest_unique hlargest h.largest] at hm
  simp only [CrashCycles.observe, hm, JvckMetadataStore.loadState]
  rfl

/-- The contents after the first `k` replicas were overwritten with `p`. -/
def patched (k : Nat) (p : UInt64 × VolumeState) (content : Nat → UInt64 × VolumeState) : Nat → UInt64 × VolumeState :=
  fun i => if i < k then p else content i

/-- What the device holds when the call has made `k` of its writes. -/
theorem Tracked.cutOff (h : Tracked P L content x) (c : Call) (k : Nat) :
    (c.target x.1).writeReplicas k x.2 = (.ok (), c.cutOff k x.1 x.2) ∧ Frame L.IsMeta x.2 (c.cutOff k x.1 x.2) ∧
      (suiteOf x.1).Holds P L (c.cutOff k x.1 x.2)
        fun i => some (patched k (c.written (x.1.offset, VolumeState.fromU16 x.1.state)) content i) := by
  have hon : On (c.target x.1).toPlacement L x.2 := by
    cases c <;> exact h.on
  have hsuite : suiteOf (c.target x.1) = suiteOf x.1 := by
    cases c <;> rfl
  have hcodec : (c.target x.1).codec = jvckCbcCodec P := by
    cases c <;> exact h.codec
  have hpair : c.written (x.1.offset, VolumeState.fromU16 x.1.state) =
      ((c.target x.1).offset, VolumeState.fromU16 (c.target x.1).state) := by
    cases c <;> simp [Call.written, Call.target]
  have hw : (c.target x.1).writeReplicas k x.2 = (.ok (), c.cutOff k x.1 x.2) :=
    writeReplicas_cbc hon h.healthy hcodec k
  have hframe : Frame L.IsMeta x.2 (c.cutOff k x.1 x.2) := by
    obtain ⟨hframe, -⟩ := writeReplicas_spec hon hw
    apply hframe.mono
    rintro i ⟨j, _, hj, rfl⟩
    exact ⟨j, hj, rfl⟩
  refine ⟨hw, hframe, ?_⟩
  have hholds := writeReplicas_holds hon (hsuite ▸ h.holds) hw fun i _ => (h.healthy.frame hframe).readFault _
  rw [hsuite] at hholds
  intro i hi
  have hi' := hholds i hi
  simp only [patched, hpair]
  by_cases hik : i < k
  · simp only [if_pos hik] at hi' ⊢
    exact hi'
  · simp only [if_neg hik] at hi' ⊢
    exact hi'

/-- `open` finds every replica and takes the largest offset and the first state. -/
theorem Tracked.reopen (h : Tracked P L content x) (hf : 1 ≤ L.footers) {content' : Nat → UInt64 × VolumeState}
    {d' : Device} (hframe : Frame L.IsMeta x.2 d') (hholds : (suiteOf x.1).Holds P L d' fun i => some (content' i)) :
    ∃ s', JvckMetadataStore.openStore P d' x.1.vmk = .ok s' ∧ Tracked P L content' (s', d') := by
  have hon : On x.1.toPlacement L d' := h.on.frame hframe
  have hL : L.Of d'.sectorSize d'.totalSectors (JvckMetadataReader.optionsOf x.1.header) := by
    rw [← h.options]
    exact hon.layout
  have hcount : 0 < L.count := by
    rw [Layout.count]
    omega
  have hlast : L.metaLba (L.count - 1) = d'.sectors - 1 := by rw [L.metaLba_last hf, hon.total]
  have hintact := hholds (L.count - 1) (by omega)
  simp only [hlast] at hintact
  have hopen := openReader_of_last (K := suiteOf x.1) h.lawful hL hintact
  have hfirst : (List.range L.count).findSome? (fun i => some (content' i)) =
      some ((content' 0).1, (content' 0).2) := by
    obtain ⟨n, hn⟩ : ∃ n, L.count = n + 1 := ⟨L.count - 1, by omega⟩
    rw [hn, List.range_succ_eq_map, List.findSome?_cons]
  obtain ⟨m, hlargest, hstore⟩ := intoStore_of_holds (K := suiteOf x.1) h.lawful (readerOf_on hL) rfl hholds hfirst
  rw [survivors_some] at hlargest
  rw [JvckMetadataStore.openStore, ← h.codec, openWith_eq hopen]
  refine ⟨_, hstore, ⟨readerOf_on hL, rfl, h.codec, h.healthy.frame hframe, hholds, hlargest, ?_⟩⟩
  simp

theorem mem_unreached (h : Tracked P L content x) {k : Nat} {o : UInt64} :
    o ∈ unreached P x k ↔ ∃ i, k ≤ i ∧ i < L.count ∧ (content i).1 = o := by
  have hat {i : Nat} (hi : i < L.count) :
      replicaOffset P x.1 x.2 i (UInt64.ofNat (L.metaLba i)) = some (content i).1 :=
    replicaOffset_of_holds (K := suiteOf x.1) h.lawful h.on rfl rfl rfl h.holds hi
  have hget (i : Nat) : ((List.range L.count).map fun i => (UInt64.ofNat (L.metaLba i), i))[i]? =
      if i < L.count then some (UInt64.ofNat (L.metaLba i), i) else none := by
    by_cases hi : i < L.count
    · simp [hi]
    · simp [hi]
  rw [unreached, zipIdx_lbas h.on, List.mem_filterMap]
  constructor
  · rintro ⟨y, hy, ho⟩
    obtain ⟨j, hj⟩ := List.mem_iff_getElem?.mp hy
    rw [List.getElem?_drop, hget] at hj
    split at hj
    · rename_i hlt
      obtain rfl := Option.some.inj hj
      rw [hat hlt] at ho
      exact ⟨k + j, Nat.le_add_right k j, hlt, Option.some.inj ho⟩
    · cases hj
  · rintro ⟨i, hk, hi, rfl⟩
    refine ⟨(UInt64.ofNat (L.metaLba i), i), List.mem_iff_getElem?.mpr ⟨i - k, ?_⟩, hat hi⟩
    rw [List.getElem?_drop, Nat.add_sub_cancel' hk, hget, if_pos hi]

/-- The pair in force: that of the last completed call or of the last reopen. -/
def inForce (x : JvckMetadataStore × Device) : UInt64 × VolumeState := (x.1.offset, VolumeState.fromU16 x.1.state)

theorem Tracked.complete (h : Tracked P L content x) (hn : 0 < L.count) (c : Call) :
    ∃ x', step P x (.complete c) = some x' ∧ Tracked P L (fun _ => c.written (inForce x)) x' ∧
      inForce x' = c.written (inForce x) := by
  obtain ⟨hw, hframe, hholds⟩ := h.cutOff c x.1.lbas.length
  have hlen : x.1.lbas.length = L.count := h.on.length_lbas
  have hrun : c.run x.1 x.2 = (.ok (), c.target x.1, c.cutOff x.1.lbas.length x.1 x.2) := by
    cases c with
    | store o => exact congrArg (fun w => (w.1, _, w.2)) hw
    | storeState v => exact congrArg (fun w => (w.1, _, w.2)) hw
  have hpair : inForce (c.target x.1, c.cutOff x.1.lbas.length x.1 x.2) = c.written (inForce x) := by
    cases c <;> simp [inForce, Call.target, Call.written]
  refine ⟨_, by simp only [step, hrun], ?_, hpair⟩
  constructor
  · cases c <;> exact h.on.frame hframe
  · cases c <;> exact h.options
  · cases c <;> exact h.codec
  · exact h.healthy.frame hframe
  · have hsuite : suiteOf (c.target x.1) = suiteOf x.1 := by
      cases c <;> rfl
    intro i hi
    have hi' := hholds i hi
    simp only [patched, hlen, if_pos hi] at hi'
    rw [hsuite]
    simp only [hlen]
    exact hi'
  · have hfst := congrArg Prod.fst hpair
    simp only [inForce] at hfst
    refine ⟨?_, ?_⟩
    · rw [List.mem_map]
      exact ⟨0, List.mem_range.mpr hn, hfst.symm⟩
    · intro o ho
      obtain ⟨i, -, rfl⟩ := List.mem_map.mp ho
      rw [hfst]
      exact UInt64.le_refl _
  · exact (congrArg Prod.snd hpair).symm

theorem Tracked.crash (h : Tracked P L content x) (hf : 1 ≤ L.footers) (c : Call) (k : Nat) :
    ∃ x', step P x (.crash c k) = some x' ∧ Tracked P L (patched k (c.written (inForce x)) content) x' := by
  obtain ⟨-, hframe, hholds⟩ := h.cutOff c k
  obtain ⟨s', hopen, htrack⟩ := h.reopen hf hframe hholds
  exact ⟨_, by simp only [step, hopen], htrack⟩

theorem mem_patched {p : UInt64 × VolumeState} {k n : Nat} {o : UInt64} :
    o ∈ (List.range n).map (fun i => (patched k p content i).1) ↔
      (0 < k ∧ 0 < n ∧ o = p.1) ∨ ∃ i, k ≤ i ∧ i < n ∧ (content i).1 = o := by
  simp only [List.mem_map, List.mem_range, patched]
  constructor
  · rintro ⟨i, hi, ho⟩
    split at ho
    · exact .inl ⟨by omega, by omega, ho.symm⟩
    · exact .inr ⟨i, by omega, hi, ho⟩
  · rintro (⟨hk, hn, rfl⟩ | ⟨i, hk, hi, ho⟩)
    · exact ⟨0, hn, by rw [if_pos hk]⟩
    · exact ⟨i, hi, by rw [if_neg (by omega)]; exact ho⟩

/-- After a cut-off `store_state` the largest offset is still the one in force. -/
theorem Tracked.crash_offset_same (h : Tracked P L content x) {x' : JvckMetadataStore × Device} {k : Nat}
    {v : VolumeState} (h' : Tracked P L (patched k (x.1.offset, v) content) x') : x'.1.offset = x.1.offset := by
  obtain ⟨i, hi, ho⟩ := List.mem_map.mp h.largest.1
  rw [List.mem_range] at hi
  apply largest_unique h'.largest
  refine ⟨mem_patched.mpr ?_, ?_⟩
  · by_cases hk : 0 < k
    · exact .inl ⟨hk, by omega, rfl⟩
    · exact .inr ⟨i, by omega, hi, ho⟩
  · intro o hmem
    rcases mem_patched.mp hmem with ⟨-, -, rfl⟩ | ⟨j, -, hj, rfl⟩
    · exact UInt64.le_refl _
    · exact h.largest.2 _ (List.mem_map.mpr ⟨j, List.mem_range.mpr hj, rfl⟩)

/-- After a cut-off `store` the largest offset is the new one or the one in force, unless the unreached
replicas hold one in between. -/
theorem Tracked.crash_offset_iff (h : Tracked P L content x) {x' : JvckMetadataStore × Device} {k : Nat}
    {p : UInt64 × VolumeState} (h' : Tracked P L (patched k p content) x') :
    (x'.1.offset = x.1.offset ∨ x'.1.offset = p.1) ↔
      ∀ m, IsLargest m (unreached P x k) → ¬ (p.1 < m ∧ m < x.1.offset) := by
  have hmem := mem_patched.mp h'.largest.1
  have hup (o : UInt64) (ho : o ∈ unreached P x k) : o ≤ x'.1.offset :=
    h'.largest.2 o (mem_patched.mpr (.inr ((mem_unreached h).mp ho)))
  constructor
  · intro hone m hm hbetween
    have hle := hup m hm.1
    have hge : x'.1.offset = p.1 ∨ x'.1.offset ≤ m := by
      rcases hmem with ⟨-, -, ho⟩ | hin
      · exact .inl ho
      · exact .inr (hm.2 _ ((mem_unreached h).mpr hin))
    simp only [UInt64.le_iff_toNat_le, UInt64.lt_iff_toNat_lt, ← UInt64.toNat_inj] at *
    omega
  · intro hcover
    by_contra hne
    obtain ⟨hold, hnew⟩ := not_or.mp hne
    rcases hmem with ⟨-, -, ho⟩ | hin
    · exact hnew ho
    · have hlargest : IsLargest x'.1.offset (unreached P x k) := ⟨(mem_unreached h).mpr hin, hup⟩
      obtain ⟨i, -, hi, ho⟩ := hin
      have hbelow : x'.1.offset ≤ x.1.offset := by
        rw [← ho]
        exact h.largest.2 _ (List.mem_map.mpr ⟨i, List.mem_range.mpr hi, rfl⟩)
      have habove : p.1 ≤ x'.1.offset := by
        by_cases hk : 0 < k
        · exact h'.largest.2 _ (mem_patched.mpr (.inl ⟨hk, by omega, rfl⟩))
        · exfalso
          obtain ⟨j, hj, hoj⟩ := List.mem_map.mp h.largest.1
          have hle := hup x.1.offset ((mem_unreached h).mpr ⟨j, by omega, List.mem_range.mp hj, hoj⟩)
          exact hold (UInt64.le_antisymm hbelow hle)
      have := hcover _ hlargest
      simp only [UInt64.le_iff_toNat_le, UInt64.lt_iff_toNat_lt, ← UInt64.toNat_inj] at *
      omega

/-- The state that a reopened volume shows: the one written, if any replica was reached. -/
theorem Tracked.crash_state (h : Tracked P L content x) {x' : JvckMetadataStore × Device} {k : Nat}
    {p : UInt64 × VolumeState} (h' : Tracked P L (patched k p content) x') :
    VolumeState.fromU16 x'.1.state = if 0 < k then p.2 else VolumeState.fromU16 x.1.state := by
  rw [← h'.first, patched, ← h.first]
  split <;> rfl

/-- A crash is atomic exactly when the cut-off call covers the offsets it does not reach. -/
theorem Tracked.atomic_iff (h : Tracked P L content x) (hf : 1 ≤ L.footers) {c : Call} {k : Nat}
    {x' : JvckMetadataStore × Device} (h' : Tracked P L (patched k (c.written (inForce x)) content) x') :
    Atomic P x (.crash c k) x' ↔ Covers P x (.crash c k) := by
  have hn : 0 < L.count := by
    rw [Layout.count]
    omega
  have hstate := h.crash_state h'
  have hatomic : Atomic P x (.crash c k) x' ↔ inForce x' = inForce x ∨ inForce x' = c.written (inForce x) := by
    simp only [Atomic, h.observe hn, h'.observe hn]
    constructor
    · rintro ⟨p, p', hp, hp', hone⟩
      obtain rfl := Except.ok.inj hp
      obtain rfl := Except.ok.inj hp'
      exact hone
    · intro hone
      exact ⟨_, _, rfl, rfl, hone⟩
  rw [hatomic]
  cases c with
  | store o =>
    have hsame : VolumeState.fromU16 x'.1.state = VolumeState.fromU16 x.1.state := by
      rw [hstate]
      split <;> rfl
    simp only [Covers, inForce, Call.written, hsame, Prod.mk.injEq, and_true]
    exact h.crash_offset_iff h'
  | storeState v =>
    have hoff := h.crash_offset_same h'
    simp only [Covers, iff_true, inForce, Call.written, hoff, Prod.mk.injEq, true_and]
    rw [hstate]
    by_cases hk : 0 < k
    · exact .inr (if_pos hk)
    · exact .inl (if_neg hk)

end Steps

/-! ## Runs -/

section Runs

variable {P : Primitives} {L : Layout}

/-- The claim about one operation of a run. -/
def AtomicStep (P : Primitives) (x : JvckMetadataStore × Device) (op : Op) : Prop :=
  ∀ x', step P x op = some x' → Atomic P x op x'

/-- Every operation of a run succeeds, keeps the replicas in order and is atomic exactly when it covers. -/
theorem Tracked.step {content : Nat → UInt64 × VolumeState} {x : JvckMetadataStore × Device}
    (h : Tracked P L content x) (hf : 1 ≤ L.footers) (op : Op) :
    ∃ x' content', step P x op = some x' ∧ Tracked P L content' x' ∧ (AtomicStep P x op ↔ Covers P x op) := by
  have hn : 0 < L.count := by
    rw [Layout.count]
    omega
  cases op with
  | complete c =>
    obtain ⟨x', hstep, htrack, hpair⟩ := h.complete hn c
    refine ⟨x', _, hstep, htrack, iff_of_true ?_ trivial⟩
    intro x'' hstep'
    obtain rfl := Option.some.inj (hstep.symm.trans hstep')
    exact ⟨_, _, h.observe hn, htrack.observe hn, hpair⟩
  | crash c k =>
    obtain ⟨x', hstep, htrack⟩ := h.crash hf c k
    refine ⟨x', _, hstep, htrack, ?_⟩
    rw [← h.atomic_iff hf htrack, AtomicStep]
    constructor
    · intro hall
      exact hall x' hstep
    · intro hatomic x'' hstep'
      obtain rfl := Option.some.inj (hstep.symm.trans hstep')
      exact hatomic

/-- Replicas that were all sealed alike. -/
theorem tracked_of_synced {s : JvckMetadataStore} {d : Device} (hsync : Synced L s d) (hd : Healthy d)
    (hcodec : s.codec = jvckCbcCodec P) (hn : 0 < L.count) :
    Tracked P L (fun _ => (s.offset, VolumeState.fromU16 s.state)) (s, d) := by
  refine ⟨hsync.on, hsync.options, hcodec, hd, hsync.holds fun _ _ => hd.readFault _, ⟨?_, ?_⟩, rfl⟩
  · exact List.mem_map.mpr ⟨0, List.mem_range.mpr hn, rfl⟩
  · intro o ho
    obtain ⟨i, -, rfl⟩ := List.mem_map.mp ho
    exact UInt64.le_refl _

/-- From replicas that agree, over any number of crashes and reopens, every run can be carried out, and
each observed pair is the one before or the one being written exactly when no cut-off `store` uncovers an
offset between its own and the one in force. -/
theorem crash_cycles_atomic_iff {s : JvckMetadataStore} {d : Device} (hcodec : s.codec = jvckCbcCodec P)
    (hsync : Synced L s d) (hd : Healthy d) (hf : 1 ≤ L.footers) (ops : List Op) :
    (∃ x, StepRun.run (step P) (s, d) ops = some x) ∧
      (StepRun.Along (step P) (AtomicStep P) (s, d) ops ↔ StepRun.Along (step P) (Covers P) (s, d) ops) := by
  have hn : 0 < L.count := by
    rw [Layout.count]
    omega
  have hgen : ∀ (ops : List Op) {content : Nat → UInt64 × VolumeState} {x : JvckMetadataStore × Device},
      Tracked P L content x → (∃ x', StepRun.run (step P) x ops = some x') ∧
        (StepRun.Along (step P) (AtomicStep P) x ops ↔ StepRun.Along (step P) (Covers P) x ops) := by
    intro ops
    induction ops with
    | nil => exact fun _ => ⟨⟨_, rfl⟩, Iff.rfl⟩
    | cons op ops ih =>
      intro content x h
      obtain ⟨x', content', hstep, htrack, hiff⟩ := h.step hf op
      obtain ⟨⟨x'', hrun⟩, hrest⟩ := ih htrack
      refine ⟨⟨x'', StepRun.run_cons_eq_some.mpr ⟨x', hstep, hrun⟩⟩, ?_⟩
      simp only [StepRun.Along, hstep, Option.some.injEq, forall_eq', hiff, hrest]
  exact hgen ops (tracked_of_synced hsync hd hcodec hn)

end Runs

section Sample

/-- The sample volume at boundary 5, encrypting. -/
def sampleStart : JvckMetadataStore × Device := (sampleStore 5 .encrypt, sampleDevice 5 .encrypt)

/-- Growing boundaries leave nothing to uncover. -/
theorem crash_cycles_atomic_growing :
    StepRun.Along (step JvckMetadata.standard) (AtomicStep JvckMetadata.standard) sampleStart
      [.crash (.store ⟨10, 512⟩) 1] := by
  obtain ⟨hsync, hd⟩ := sampleDevice_synced 5 .encrypt
  refine (crash_cycles_atomic_iff (s := sampleStore 5 .encrypt) rfl hsync hd (by decide) _).2.mpr
    ⟨?_, fun _ _ => trivial⟩
  rintro m - ⟨hlow, hhigh⟩
  have hlow : (10 : UInt64) < m := hlow
  have hhigh : m < (5 : UInt64) := hhigh
  exact absurd (UInt64.lt_trans hlow hhigh) (by decide)

/-- `store(10)` and then `store(3)`, both cut off behind the first of two replicas: the second reopen
shows 5, which is neither 10 nor 3. -/
theorem crash_cycles_mixture :
    Synced twoFooters (sampleStore 5 .encrypt) (sampleDevice 5 .encrypt) ∧
      ∃ x₁ x₂, step JvckMetadata.standard sampleStart (.crash (.store ⟨10, 512⟩) 1) = some x₁ ∧
        step JvckMetadata.standard x₁ (.crash (.store ⟨3, 512⟩) 1) = some x₂ ∧
        observe JvckMetadata.standard x₁ = .ok (10, .encrypt) ∧ observe JvckMetadata.standard x₂ = .ok (5, .encrypt) ∧
        ¬ Atomic JvckMetadata.standard x₁ (.crash (.store ⟨3, 512⟩) 1) x₂ := by
  obtain ⟨hsync, hd⟩ := sampleDevice_synced 5 .encrypt
  have h₀ : Tracked JvckMetadata.standard twoFooters (fun _ => (5, .encrypt)) sampleStart :=
    tracked_of_synced hsync hd rfl (by decide)
  obtain ⟨x₁, hstep₁, h₁⟩ := h₀.crash (by decide) (.store ⟨10, 512⟩) 1
  have hlargest₁ : IsLargest 10 [10, 5] := ⟨by simp, by simp [UInt64.le_iff_toNat_le]⟩
  have hoff₁ : x₁.1.offset = 10 := largest_unique h₁.largest hlargest₁
  have hforce₁ : inForce x₁ = (10, .encrypt) := Prod.ext hoff₁ (h₀.crash_state h₁)
  obtain ⟨x₂, hstep₂, h₂⟩ := h₁.crash (by decide) (.store ⟨3, 512⟩) 1
  rw [hforce₁] at h₂
  have hlargest₂ : IsLargest 5 [3, 5] := ⟨by simp, by simp [UInt64.le_iff_toNat_le]⟩
  have hoff₂ : x₂.1.offset = 5 := largest_unique h₂.largest hlargest₂
  have hforce₂ : inForce x₂ = (5, .encrypt) := Prod.ext hoff₂ (h₁.crash_state h₂)
  have hobs₁ : observe JvckMetadata.standard x₁ = .ok (10, .encrypt) :=
    (h₁.observe (by decide)).trans (congrArg Except.ok hforce₁)
  have hobs₂ : observe JvckMetadata.standard x₂ = .ok (5, .encrypt) :=
    (h₂.observe (by decide)).trans (congrArg Except.ok hforce₂)
  refine ⟨hsync, x₁, x₂, hstep₁, hstep₂, hobs₁, hobs₂, ?_⟩
  rintro ⟨p, p', hp, hp', hone⟩
  obtain rfl := Except.ok.inj (hobs₁.symm.trans hp)
  obtain rfl := Except.ok.inj (hobs₂.symm.trans hp')
  revert hone
  decide

end Sample

end CrashCycles

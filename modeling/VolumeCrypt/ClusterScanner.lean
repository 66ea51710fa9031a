import Mathlib.Data.List.Basic
import Mathlib.Data.Nat.Bitwise
import Mathlib.Algebra.Order.Ring.Int

/-!
# The free cluster scanner

Before a shrink the SDK moves file clusters out of the tail of an NTFS volume. The targets come from
`freeClusterScanner`, which walks the volume bitmap upwards and reads it in chunks of at most 64 KiB.
The file system driver is a parameter: a state and one function for each control code. Requests are
kept with the volume state they were made in, so that a statement can name the bitmap an answer was
read from. LCNs and VCNs are `int64` in the source; all sums here stay below the cluster count of a
volume, so they are integers.
-/
namespace ClusterScanner

variable {σ φ : Type}

/-- A pair of the mapping: the clusters up to `nextVcn`, stored from `lcn` on, or a hole for `-1`. -/
structure RetrievalExtent where
  nextVcn : Int
  lcn : Int
  deriving DecidableEq, Repr

/-- `short` is a success with fewer bytes than the header. -/
inductive BitmapReply where
  | failed
  | short
  | filled (startingLcn bitmapSize : Int) (bits : List UInt8)

/-- The flag is `ERROR_MORE_DATA`. -/
inductive PointersReply where
  | failed
  | short (moreData : Bool)
  | filled (extents : List RetrievalExtent) (moreData : Bool)

/-- The control codes of the relocation, over volume states `σ` and file handles `φ`. -/
structure Kernel (σ φ : Type) where
  getVolumeBitmap : σ → Int → BitmapReply × σ
  getRetrievalPointers : σ → φ → Int → PointersReply × σ
  moveFile : σ → φ → Int → Int → Bool × σ

inductive Request (φ : Type) where
  | bitmap (lcn : Int)
  | pointers (file : φ) (vcn : Int)
  | move (file : φ) (vcn lcn : Int)

/-- The volume, and every request made so far with the state it was made in, latest first. -/
structure World (σ φ : Type) where
  volume : σ
  requests : List (σ × Request φ)

def World.after (w : World σ φ) (r : Request φ) (v : σ) : World σ φ := ⟨v, (w.volume, r) :: w.requests⟩

/-- What the volume holds: a bitmap and the extents of each file. -/
structure Volume (σ φ : Type) where
  totalClusters : Nat
  used : σ → Int → Bool
  extents : σ → φ → List RetrievalExtent

def bitmapBufferSize : Nat := 2 ^ 16

structure FreeClusterScanner where
  thresholdLCN : Int
  nextLCN : Int
  chunkStart : Int
  chunkSize : Int
  bitmap : List UInt8
  deriving DecidableEq, Repr

def newFreeClusterScanner (thresholdLCN : Int) : FreeClusterScanner := ⟨thresholdLCN, 0, -1, 0, []⟩

/-- Divisions round toward zero, and an index outside the bytes counts as allocated. -/
def bitIsSet (bitmap : List UInt8) (index : Int) : Bool :=
  let byteIndex := index.tdiv 8
  let bitIndex := index.tmod 8
  if byteIndex < 0 then true
  else
    match bitmap[byteIndex.toNat]? with
    | none => true
    | some b => b &&& (1 <<< UInt8.ofNat bitIndex.toNat) != 0

def loadBitmap (K : Kernel σ φ) (w : World σ φ) (s : FreeClusterScanner) (startLCN : Int) :
    Bool × World σ φ × FreeClusterScanner :=
  let (reply, v) := K.getVolumeBitmap w.volume startLCN
  let w := w.after (.bitmap startLCN) v
  match reply with
  | .failed => (false, w, s)
  | .short => (true, w, { s with chunkStart := startLCN, chunkSize := 0, bitmap := [] })
  | .filled startingLcn bitmapSize bits =>
    (true, w, { s with chunkStart := startingLcn, chunkSize := min (bits.length * 8) bitmapSize, bitmap := bits })

/-- What the head of the loop of `Next` comes to. -/
inductive Refill where
  | failed | exhausted | ready
  deriving DecidableEq

def refill (K : Kernel σ φ) (w : World σ φ) (s : FreeClusterScanner) : Refill × World σ φ × FreeClusterScanner :=
  if s.chunkStart < 0 ∨ s.nextLCN < s.chunkStart ∨ s.nextLCN ≥ s.chunkStart + s.chunkSize then
    match loadBitmap K w s s.nextLCN with
    | (false, w, s) => (.failed, w, s)
    | (true, w, s) => if s.chunkSize = 0 then (.exhausted, w, s) else (.ready, w, s)
  else (.ready, w, s)

/-- Outcome of `Next`: an error of the control code, exhaustion, or a free cluster. -/
inductive NextResult where
  | failed
  | exhausted
  | found (lcn : Int)
  deriving DecidableEq, Repr

/-- The loop of `Next`. Each turn moves `nextLCN` up by one, so the distance to the threshold bounds it. -/
def scan (K : Kernel σ φ) : Nat → World σ φ → FreeClusterScanner → NextResult × World σ φ × FreeClusterScanner
  | 0, w, s => (.exhausted, w, s)
  | n + 1, w, s =>
    match refill K w s with
    | (.failed, w, s) => (.failed, w, s)
    | (.exhausted, w, s) => (.exhausted, w, s)
    | (.ready, w, s) =>
      let offset := s.nextLCN - s.chunkStart
      if offset ≥ 0 ∧ offset < s.chunkSize ∧ bitIsSet s.bitmap offset = false then
        (.found s.nextLCN, w, { s with nextLCN := s.nextLCN + 1 })
      else scan K n w { s with nextLCN := s.nextLCN + 1 }

def next (K : Kernel σ φ) (w : World σ φ) (s : FreeClusterScanner) : NextResult × World σ φ × FreeClusterScanner :=
  scan K (s.thresholdLCN - s.nextLCN).toNat w s

/-! ## What the driver answers -/

/-- Clusters from an LCN to the end of the volume. -/
def Volume.clustersFrom (V : Volume σ φ) (lcn : Int) : Nat := (V.totalClusters - lcn).toNat

/-- The answer to a request for `lcn`: the bits from some cluster at or below it, as many whole bytes as
the buffer holds behind the header. -/
structure BitmapAnswer (V : Volume σ φ) (v : σ) (lcn start : Int) (bits : List UInt8) : Prop where
  nonneg : 0 ≤ start
  le : start ≤ lcn
  length : bits.length = min ((V.clustersFrom start + 7) / 8) (bitmapBufferSize - 16)
  bit : ∀ (i : Nat) (b : UInt8), i < V.clustersFrom start → bits[i / 8]? = some b →
    b.toNat.testBit (i % 8) = V.used v (start + i)

def AnswersBitmap (K : Kernel σ φ) (V : Volume σ φ) : Prop :=
  ∀ (v : σ) (lcn : Int), 0 ≤ lcn → ∃ start bits,
    (K.getVolumeBitmap v lcn).1 = .filled start (V.clustersFrom start) bits ∧ BitmapAnswer V v lcn start bits

/-- The answer comes as far as the cluster that was asked for. -/
def ReachesRequested (K : Kernel σ φ) (V : Volume σ φ) : Prop :=
  ∀ (v : σ) (lcn start size : Int) (bits : List UInt8), 0 ≤ lcn → lcn < V.totalClusters →
    (K.getVolumeBitmap v lcn).1 = .filled start size bits → lcn < start + 8 * bits.length

/-- Some answer so far covers the cluster and shows it as allocated or as free. -/
def Shown (K : Kernel σ φ) (V : Volume σ φ) (w : World σ φ) (l : Int) (allocated : Bool) : Prop :=
  ∃ v lcn start size bits, (v, Request.bitmap lcn) ∈ w.requests ∧
    (K.getVolumeBitmap v lcn).1 = .filled start size bits ∧
    start ≤ l ∧ l < start + 8 * bits.length ∧ V.used v l = allocated

theorem Shown.mono {K : Kernel σ φ} {V : Volume σ φ} {w w' : World σ φ} {l : Int} {b : Bool} (h : Shown K V w l b)
    (hw : w.requests ⊆ w'.requests) : Shown K V w' l b := by
  obtain ⟨v, lcn, start, size, bits, hmem, hrest⟩ := h
  exact ⟨v, lcn, start, size, bits, hw hmem, hrest⟩

/-! ## One bit of a chunk -/

theorem toNat_one_shiftLeft (i : Fin 8) : (1 <<< UInt8.ofNat i : UInt8).toNat = 2 ^ i.val := by
  revert i
  decide

theorem and_one_shiftLeft_ne_zero (b : UInt8) {i : Nat} (hi : i < 8) :
    (b &&& (1 <<< UInt8.ofNat i) != 0) = b.toNat.testBit i := by
  have hval : (b &&& (1 <<< UInt8.ofNat i)).toNat = (b.toNat.testBit i).toNat * 2 ^ i := by
    rw [UInt8.toNat_and, toNat_one_shiftLeft ⟨i, hi⟩, Nat.and_two_pow]
  have hpos : 0 < 2 ^ i := Nat.two_pow_pos i
  rw [Bool.eq_iff_iff, bne_iff_ne, ne_eq, ← UInt8.toNat_inj, hval]
  cases b.toNat.testBit i with
  | false => simp
  | true => simp

theorem bitIsSet_natCast {bits : List UInt8} {i : Nat} {b : UInt8} (hb : bits[i / 8]? = some b) :
    bitIsSet bits i = b.toNat.testBit (i % 8) := by
  have hdiv : (i : Int).tdiv 8 = ((i / 8 : Nat) : Int) := (Int.ofNat_tdiv i 8).symm
  have hmod : (i : Int).tmod 8 = ((i % 8 : Nat) : Int) := (Int.ofNat_tmod i 8).symm
  have hneg : ¬ ((i / 8 : Nat) : Int) < 0 := by omega
  rw [bitIsSet, hdiv, hmod]
  simp only [hneg, if_false, Int.toNat_natCast, hb]
  exact and_one_shiftLeft_ne_zero b (Nat.mod_lt i (by decide))

theorem BitmapAnswer.bitIsSet_eq {V : Volume σ φ} {v : σ} {lcn start : Int} {bits : List UInt8}
    (h : BitmapAnswer V v lcn start bits) {i : Nat} (hi : i < V.clustersFrom start) (hbits : i < 8 * bits.length) :
    bitIsSet bits i = V.used v (start + i) := by
  have hlt : i / 8 < bits.length := by omega
  have hget : bits[i / 8]? = some bits[i / 8] := List.getElem?_eq_getElem hlt
  rw [bitIsSet_natCast hget]
  exact h.bit i _ hi hget

/-! ## The chunk in hand -/

/-- The chunk is what a request of the log was answered with. -/
structure Chunk (K : Kernel σ φ) (V : Volume σ φ) (w : World σ φ) (s : FreeClusterScanner) : Prop where
  answered : ∃ v lcn, (v, Request.bitmap lcn) ∈ w.requests ∧
    (K.getVolumeBitmap v lcn).1 = .filled s.chunkStart (V.clustersFrom s.chunkStart) s.bitmap ∧
    BitmapAnswer V v lcn s.chunkStart s.bitmap
  size : s.chunkSize = min ((s.bitmap.length : Int) * 8) (V.clustersFrom s.chunkStart)

/-- Nothing is loaded yet, or the chunk comes from the log. -/
structure Valid (K : Kernel σ φ) (V : Volume σ φ) (w : World σ φ) (s : FreeClusterScanner) : Prop where
  nonneg : 0 ≤ s.nextLCN
  chunk : s.chunkStart < 0 ∨ Chunk K V w s

theorem valid_new (K : Kernel σ φ) (V : Volume σ φ) (w : World σ φ) (thresholdLCN : Int) :
    Valid K V w (newFreeClusterScanner thresholdLCN) where
  nonneg := le_refl _
  chunk := Or.inl (show (-1 : Int) < 0 by decide)

section

variable {K : Kernel σ φ} {V : Volume σ φ} {w w' : World σ φ} {s s' : FreeClusterScanner}

theorem Chunk.mono (h : Chunk K V w s) (hw : w.requests ⊆ w'.requests) : Chunk K V w' s := by
  obtain ⟨⟨v, lcn, hmem, hrest⟩, hsize⟩ := h
  exact ⟨⟨v, lcn, hw hmem, hrest⟩, hsize⟩

theorem Valid.mono (h : Valid K V w s) (hw : w.requests ⊆ w'.requests) : Valid K V w' s :=
  ⟨h.nonneg, h.chunk.imp id fun hc => hc.mono hw⟩

theorem Chunk.advance (h : Chunk K V w s) (l : Int) : Chunk K V w { s with nextLCN := l } := ⟨h.answered, h.size⟩

theorem Chunk.lt_total (h : Chunk K V w s) {l : Int} (hlo : s.chunkStart ≤ l) (hhi : l < s.chunkStart + s.chunkSize) :
    l < V.totalClusters := by
  have hsize := h.size
  rw [Volume.clustersFrom] at hsize
  omega

/-- What the scanner's test says of a cluster of the chunk is what the answer shows of it. -/
theorem Chunk.shown (h : Chunk K V w s) {l : Int} (hlo : s.chunkStart ≤ l) (hhi : l < s.chunkStart + s.chunkSize) :
    Shown K V w l (bitIsSet s.bitmap (l - s.chunkStart)) := by
  obtain ⟨⟨v, lcn, hmem, hreply, hans⟩, hsize⟩ := h
  obtain ⟨i, hi⟩ : ∃ i : Nat, l - s.chunkStart = i := ⟨(l - s.chunkStart).toNat, by omega⟩
  have hcount : i < V.clustersFrom s.chunkStart := by omega
  have hbits : i < 8 * s.bitmap.length := by omega
  refine ⟨v, lcn, _, _, _, hmem, hreply, hlo, by omega, ?_⟩
  rw [hi, hans.bitIsSet_eq hcount hbits]
  congr 1
  omega

end

/-! ## One turn of the loop -/

/-- What the head of the loop leaves. -/
structure RefillSpec (K : Kernel σ φ) (V : Volume σ φ) (w : World σ φ) (s : FreeClusterScanner) (r : Refill)
    (w' : World σ φ) (s' : FreeClusterScanner) : Prop where
  threshold : s'.thresholdLCN = s.thresholdLCN
  nextLCN : s'.nextLCN = s.nextLCN
  chunk : Chunk K V w' s'
  covers : r = .ready → s.nextLCN < V.totalClusters →
    s'.chunkStart ≤ s.nextLCN ∧ s.nextLCN < s'.chunkStart + s'.chunkSize
  exhausted : r = .exhausted → V.totalClusters ≤ s.nextLCN
  answered : r ≠ .failed

theorem loadBitmap_spec {K : Kernel σ φ} {V : Volume σ φ} (hb : AnswersBitmap K V) (w : World σ φ)
    (s : FreeClusterScanner) {lcn : Int} (hlcn : 0 ≤ lcn) :
    ∃ w' s', loadBitmap K w s lcn = (true, w', s') ∧ Chunk K V w' s' ∧ s'.thresholdLCN = s.thresholdLCN ∧
      s'.nextLCN = s.nextLCN ∧ s'.chunkStart ≤ lcn ∧
      (K.getVolumeBitmap w.volume lcn).1 = .filled s'.chunkStart (V.clustersFrom s'.chunkStart) s'.bitmap := by
  obtain ⟨start, bits, hreply, hans⟩ := hb w.volume lcn hlcn
  refine ⟨w.after (.bitmap lcn) (K.getVolumeBitmap w.volume lcn).2,
    { s with chunkStart := start, chunkSize := min (bits.length * 8) (V.clustersFrom start), bitmap := bits },
    ?_, ⟨⟨w.volume, lcn, List.mem_cons_self, hreply, hans⟩, rfl⟩, rfl, rfl, hans.le, hreply⟩
  simp only [loadBitmap, hreply]

theorem refill_spec {K : Kernel σ φ} {V : Volume σ φ} (hb : AnswersBitmap K V) (hr : ReachesRequested K V)
    {w w' : World σ φ} {s s' : FreeClusterScanner} {r : Refill} (hv : Valid K V w s)
    (h : refill K w s = (r, w', s')) : RefillSpec K V w s r w' s' := by
  rw [refill] at h
  split at h
  · -- a new chunk
    obtain ⟨w₁, s₁, hload, hchunk, hthr, hnext, hle, hreply⟩ := loadBitmap_spec hb w s hv.nonneg
    have hsize := hchunk.size
    have hreach : s.nextLCN < V.totalClusters → s.nextLCN < s₁.chunkStart + s₁.chunkSize := by
      intro hlt
      have := hr _ _ _ _ _ hv.nonneg hlt hreply
      rw [Volume.clustersFrom] at hsize
      omega
    rw [hload] at h
    dsimp only at h
    split at h <;> cases h
    · refine ⟨hthr, hnext, hchunk, by simp, ?_, by simp⟩
      intro _
      by_contra hlt
      have := hreach (by omega)
      omega
    · exact ⟨hthr, hnext, hchunk, fun _ hlt => ⟨hle, hreach hlt⟩, by simp, by simp⟩
  · -- the chunk in hand covers the cluster
    rename_i hin
    push Not at hin
    cases h
    have hchunk := hv.chunk.resolve_left (by omega)
    exact ⟨rfl, rfl, hchunk, fun _ _ => ⟨hin.2.1, hin.2.2⟩, by simp, by simp⟩

/-- The head of the loop makes one request or none. -/
theorem world_refill {K : Kernel σ φ} {w w' : World σ φ} {s s' : FreeClusterScanner} {r : Refill}
    (h : refill K w s = (r, w', s')) :
    w' = w ∨ w' = w.after (.bitmap s.nextLCN) (K.getVolumeBitmap w.volume s.nextLCN).2 := by
  rw [refill] at h
  split at h
  · right
    rw [loadBitmap] at h
    cases hreply : (K.getVolumeBitmap w.volume s.nextLCN).1 with
    | failed =>
      simp only [hreply] at h
      cases h
      rfl
    | short =>
      simp only [hreply, if_true] at h
      cases h
      rfl
    | filled start size bits =>
      simp only [hreply] at h
      split at h <;> cases h <;> rfl
  · left
    cases h
    rfl

theorem requests_refill {K : Kernel σ φ} {w w' : World σ φ} {s s' : FreeClusterScanner} {r : Refill}
    (h : refill K w s = (r, w', s')) :
    ∃ new, w'.requests = new ++ w.requests ∧ ∀ q ∈ new, ∃ lcn, q.2 = Request.bitmap lcn := by
  rcases world_refill h with rfl | rfl
  · exact ⟨[], rfl, by simp⟩
  · exact ⟨[(w.volume, .bitmap s.nextLCN)], rfl, by simp⟩

/-! ## One call -/

/-- What a call of `Next` leaves. -/
structure NextSpec (K : Kernel σ φ) (V : Volume σ φ) (w : World σ φ) (s : FreeClusterScanner) (r : NextResult)
    (w' : World σ φ) (s' : FreeClusterScanner) : Prop where
  threshold : s'.thresholdLCN = s.thresholdLCN
  requests : ∃ new, w'.requests = new ++ w.requests ∧ ∀ q ∈ new, ∃ lcn, q.2 = Request.bitmap lcn
  valid : Valid K V w' s'
  le : s.nextLCN ≤ s'.nextLCN
  skipped : ∀ l, s.nextLCN ≤ l → l < s'.nextLCN → r ≠ .found l → l < V.totalClusters → Shown K V w' l true
  found : ∀ l, r = .found l → s.nextLCN ≤ l ∧ s'.nextLCN = l + 1 ∧ l < s.thresholdLCN ∧ l < V.totalClusters ∧
    Shown K V w' l false
  exhausted : r = .exhausted → s.thresholdLCN ≤ s'.nextLCN ∨ V.totalClusters ≤ s'.nextLCN
  answered : r ≠ .failed

theorem requests_subset {w w' : World σ φ} {p : σ × Request φ → Prop}
    (h : ∃ new, w'.requests = new ++ w.requests ∧ ∀ q ∈ new, p q) : w.requests ⊆ w'.requests := by
  obtain ⟨new, hnew, _⟩ := h
  rw [hnew]
  exact List.subset_append_right new w.requests

theorem requests_trans {w w₁ w' : World σ φ} {p : σ × Request φ → Prop}
    (h : ∃ new, w₁.requests = new ++ w.requests ∧ ∀ q ∈ new, p q)
    (h' : ∃ new, w'.requests = new ++ w₁.requests ∧ ∀ q ∈ new, p q) :
    ∃ new, w'.requests = new ++ w.requests ∧ ∀ q ∈ new, p q := by
  obtain ⟨new, hnew, hp⟩ := h
  obtain ⟨new', hnew', hp'⟩ := h'
  refine ⟨new' ++ new, by rw [hnew', hnew, List.append_assoc], ?_⟩
  intro q hq
  rcases List.mem_append.mp hq with hq | hq
  · exact hp' q hq
  · exact hp q hq

section

variable {K : Kernel σ φ} {V : Volume σ φ} {w w₁ w' : World σ φ} {s s₁ s' : FreeClusterScanner} {r : NextResult}

/-- The turn that finds a free cluster in the chunk. -/
theorem NextSpec.of_free (hv : Valid K V w s) (hlt : s.nextLCN < s.thresholdLCN)
    (hspec : RefillSpec K V w s .ready w₁ s₁)
    (hreq : ∃ new, w₁.requests = new ++ w.requests ∧ ∀ q ∈ new, ∃ lcn, q.2 = Request.bitmap lcn)
    (hlo : 0 ≤ s₁.nextLCN - s₁.chunkStart) (hhi : s₁.nextLCN - s₁.chunkStart < s₁.chunkSize)
    (hbit : bitIsSet s₁.bitmap (s₁.nextLCN - s₁.chunkStart) = false) :
    NextSpec K V w s (.found s₁.nextLCN) w₁ { s₁ with nextLCN := s₁.nextLCN + 1 } := by
  have hnonneg := hv.nonneg
  have hnext := hspec.nextLCN
  have hshown := hspec.chunk.shown (l := s₁.nextLCN) (by omega) (by omega)
  rw [hbit] at hshown
  refine ⟨hspec.threshold, hreq, ⟨by dsimp only; omega, Or.inr (hspec.chunk.advance _)⟩, by dsimp only; omega,
    ?_, ?_, by simp, by simp⟩
  · intro l hl hl' hne _
    dsimp only at hl'
    exact absurd (by rw [show l = s₁.nextLCN by omega]) hne
  · intro l hl
    cases hl
    exact ⟨by omega, rfl, by omega, hspec.chunk.lt_total (by omega) (by omega), hshown⟩

/-- The turn that goes past a cluster: an allocated one, or one past the end of the volume. -/
theorem NextSpec.of_used (hspec : RefillSpec K V w s .ready w₁ s₁)
    (hreq : ∃ new, w₁.requests = new ++ w.requests ∧ ∀ q ∈ new, ∃ lcn, q.2 = Request.bitmap lcn)
    (hused : ¬ (s₁.nextLCN - s₁.chunkStart ≥ 0 ∧ s₁.nextLCN - s₁.chunkStart < s₁.chunkSize ∧
      bitIsSet s₁.bitmap (s₁.nextLCN - s₁.chunkStart) = false))
    (htail : NextSpec K V w₁ { s₁ with nextLCN := s₁.nextLCN + 1 } r w' s') : NextSpec K V w s r w' s' := by
  have hnext := hspec.nextLCN
  have hle := htail.le
  dsimp only at hle
  refine ⟨htail.threshold.trans hspec.threshold, requests_trans hreq htail.requests, htail.valid, by omega, ?_, ?_,
    ?_, htail.answered⟩
  · intro l hl hl' hne hlt
    rcases eq_or_lt_of_le hl with rfl | hl
    · have hcov := hspec.covers rfl hlt
      have hset : bitIsSet s₁.bitmap (s.nextLCN - s₁.chunkStart) = true := by
        by_contra hbit
        rw [← hnext] at hbit
        exact hused ⟨by omega, by omega, by simpa using hbit⟩
      have hshown := hspec.chunk.shown hcov.1 hcov.2
      rw [hset] at hshown
      exact hshown.mono (requests_subset htail.requests)
    · exact htail.skipped l (by dsimp only; omega) hl' hne hlt
  · intro l hl
    obtain ⟨h₁, h₂, h₃, h₄⟩ := htail.found l hl
    dsimp only at h₁ h₃
    exact ⟨by omega, h₂, by rw [← hspec.threshold]; exact h₃, h₄⟩
  · intro he
    have := htail.exhausted he
    dsimp only at this
    rw [hspec.threshold] at this
    exact this

theorem scan_spec (hb : AnswersBitmap K V) (hr : ReachesRequested K V) (n : Nat)
    (hn : n = (s.thresholdLCN - s.nextLCN).toNat) (hv : Valid K V w s) (h : scan K n w s = (r, w', s')) :
    NextSpec K V w s r w' s' := by
  induction n generalizing w s with
  | zero =>
    cases h
    exact ⟨rfl, ⟨[], rfl, by simp⟩, hv, le_refl _, by omega, by simp, fun _ => Or.inl (by omega), by simp⟩
  | succ n ih =>
    rw [scan] at h
    obtain ⟨r₁, w₁, s₁, hrefill⟩ : ∃ r₁ w₁ s₁, refill K w s = (r₁, w₁, s₁) := ⟨_, _, _, rfl⟩
    have hspec := refill_spec hb hr hv hrefill
    have hreq := requests_refill hrefill
    have hnonneg := hv.nonneg
    have hnext := hspec.nextLCN
    rw [hrefill] at h
    cases r₁ with
    | failed => exact absurd rfl hspec.answered
    | exhausted =>
      cases h
      exact ⟨hspec.threshold, hreq, ⟨by omega, Or.inr hspec.chunk⟩, by omega, by omega, by simp,
        fun _ => Or.inr (by rw [hnext]; exact hspec.exhausted rfl), by simp⟩
    | ready =>
      dsimp only at h
      split at h
      · rename_i hfree
        obtain ⟨hlo, hhi, hbit⟩ := hfree
        cases h
        exact NextSpec.of_free hv (by omega) hspec hreq hlo hhi hbit
      · rename_i hused
        have hvalid : Valid K V w₁ { s₁ with nextLCN := s₁.nextLCN + 1 } :=
          ⟨by dsimp only; omega, Or.inr (hspec.chunk.advance _)⟩
        have hn' : n = (s₁.thresholdLCN - (s₁.nextLCN + 1)).toNat := by
          rw [hspec.threshold]
          omega
        exact NextSpec.of_used hspec hreq hused (ih hn' hvalid h)

theorem next_spec (hb : AnswersBitmap K V) (hr : ReachesRequested K V) (hv : Valid K V w s)
    (h : next K w s = (r, w', s')) : NextSpec K V w s r w' s' :=
  scan_spec hb hr _ rfl hv h

end

/-! ## Successive calls -/

/-- A scanner in use, with the outcomes of its calls so far. -/
structure Calls (σ φ : Type) where
  world : World σ φ
  scanner : FreeClusterScanner
  results : List NextResult

def Calls.new (v : σ) (thresholdLCN : Int) : Calls σ φ := ⟨⟨v, []⟩, newFreeClusterScanner thresholdLCN, []⟩

/-- One more call, made in the volume state `v`. -/
def Calls.call (K : Kernel σ φ) (c : Calls σ φ) (v : σ) : Calls σ φ :=
  match next K ⟨v, c.world.requests⟩ c.scanner with
  | (r, w, s) => ⟨w, s, c.results ++ [r]⟩

/-- Successive calls. Between two of them the volume changes in any way. -/
def Calls.run (K : Kernel σ φ) (c : Calls σ φ) (vs : List σ) : Calls σ φ := vs.foldl (Calls.call K) c

/-- The invariant of the calls: `ls` were returned, and then `k` times nothing. -/
structure Walked (K : Kernel σ φ) (V : Volume σ φ) (thresholdLCN : Int) (c : Calls σ φ) (ls : List Int) (k : Nat) :
    Prop where
  valid : Valid K V c.world c.scanner
  threshold : c.scanner.thresholdLCN = thresholdLCN
  results : c.results = ls.map .found ++ List.replicate k .exhausted
  increasing : ls.Pairwise (· < ·)
  length : ls.length ≤ thresholdLCN.toNat ∧ (ls.length : Int) ≤ c.scanner.nextLCN
  free : ∀ l ∈ ls, 0 ≤ l ∧ l < c.scanner.nextLCN ∧ l < thresholdLCN ∧ l < V.totalClusters ∧ Shown K V c.world l false
  complete : ∀ l, 0 ≤ l → l < c.scanner.nextLCN → l < V.totalClusters → l ∈ ls ∨ Shown K V c.world l true
  ended : 0 < k → thresholdLCN ≤ c.scanner.nextLCN ∨ V.totalClusters ≤ c.scanner.nextLCN

theorem walked_new (K : Kernel σ φ) (V : Volume σ φ) (v : σ) (thresholdLCN : Int) :
    Walked K V thresholdLCN (Calls.new v thresholdLCN) [] 0 where
  valid := valid_new K V _ thresholdLCN
  threshold := rfl
  results := rfl
  increasing := List.Pairwise.nil
  length := ⟨Nat.zero_le _, le_refl _⟩
  free := by simp
  complete := by
    intro l hl hl'
    exact absurd hl' (not_lt.mpr hl)
  ended := by simp

section

variable {K : Kernel σ φ} {V : Volume σ φ} {thresholdLCN : Int} {c : Calls σ φ} {ls : List Int} {k : Nat}

variable {w : World σ φ} {s : FreeClusterScanner} {v : σ}

/-- What was returned stays free, below the threshold and behind the scanner. -/
theorem Walked.free_after {r : NextResult} (h : Walked K V thresholdLCN c ls k)
    (hspec : NextSpec K V ⟨v, c.world.requests⟩ c.scanner r w s) :
    ∀ l ∈ ls, 0 ≤ l ∧ l < s.nextLCN ∧ l < thresholdLCN ∧ l < V.totalClusters ∧ Shown K V w l false := by
  have hle := hspec.le
  intro l hl
  obtain ⟨h₀, h₁, h₂, h₃, h₄⟩ := h.free l hl
  exact ⟨h₀, by omega, h₂, h₃, h₄.mono (requests_subset hspec.requests)⟩

/-- A call that returns nothing. -/
theorem Walked.exhausted (h : Walked K V thresholdLCN c ls k)
    (hspec : NextSpec K V ⟨v, c.world.requests⟩ c.scanner .exhausted w s) :
    Walked K V thresholdLCN ⟨w, s, c.results ++ [.exhausted]⟩ ls (k + 1) := by
  have hgrow : c.world.requests ⊆ w.requests := requests_subset hspec.requests
  have hle := hspec.le
  have hlen := h.length
  refine ⟨hspec.valid, hspec.threshold.trans h.threshold, ?_, h.increasing, ⟨hlen.1, by dsimp only; omega⟩,
    h.free_after hspec, ?_, ?_⟩
  · rw [h.results, List.replicate_succ', List.append_assoc]
  · intro l h₀ h₁ h₂
    rcases lt_or_ge l c.scanner.nextLCN with hl | hl
    · exact (h.complete l h₀ hl h₂).imp id fun hs => hs.mono hgrow
    · exact Or.inr (hspec.skipped l hl h₁ (by simp) h₂)
  · intro _
    rw [← h.threshold]
    exact hspec.exhausted rfl

/-- A call that returns a cluster. It cannot follow one that returned nothing. -/
theorem Walked.found {l : Int} (h : Walked K V thresholdLCN c ls k)
    (hspec : NextSpec K V ⟨v, c.world.requests⟩ c.scanner (.found l) w s) :
    Walked K V thresholdLCN ⟨w, s, c.results ++ [.found l]⟩ (ls ++ [l]) 0 := by
  obtain ⟨hge, hnext, hlt, htotal, hshown⟩ := hspec.found l rfl
  have hgrow : c.world.requests ⊆ w.requests := requests_subset hspec.requests
  have hthr := h.threshold
  have hlen := h.length
  have hk : k = 0 := by
    by_contra hk
    have := h.ended (by omega)
    omega
  refine ⟨hspec.valid, hspec.threshold.trans hthr, ?_, ?_, ?_, ?_, ?_, by simp⟩
  · rw [h.results, hk]
    simp
  · refine List.pairwise_append.mpr ⟨h.increasing, List.pairwise_singleton _ _, ?_⟩
    intro a ha b hb
    have := (h.free a ha).2.1
    rw [List.mem_singleton.mp hb]
    omega
  · rw [List.length_append, List.length_singleton]
    dsimp only
    omega
  · intro a ha
    rcases List.mem_append.mp ha with ha | ha
    · exact h.free_after hspec a ha
    · rw [List.mem_singleton.mp ha]
      have := h.valid.nonneg
      exact ⟨by omega, by dsimp only; omega, by omega, htotal, hshown⟩
  · intro a h₀ h₁ h₂
    dsimp only at h₁
    rcases lt_or_ge a c.scanner.nextLCN with ha | ha
    · rcases h.complete a h₀ ha h₂ with hmem | hs
      · exact Or.inl (List.mem_append_left _ hmem)
      · exact Or.inr (hs.mono hgrow)
    · by_cases hal : a = l
      · exact Or.inl (by simp [hal])
      · exact Or.inr (hspec.skipped a ha h₁ (by simpa using Ne.symm hal) h₂)

theorem Walked.call (hb : AnswersBitmap K V) (hr : ReachesRequested K V) (h : Walked K V thresholdLCN c ls k) (v : σ) :
    ∃ ls' k', Walked K V thresholdLCN (c.call K v) ls' k' := by
  obtain ⟨r, w, s, hnext⟩ : ∃ r w s, next K ⟨v, c.world.requests⟩ c.scanner = (r, w, s) := ⟨_, _, _, rfl⟩
  have hcall : c.call K v = ⟨w, s, c.results ++ [r]⟩ := by rw [Calls.call, hnext]
  have hvalid : Valid K V ⟨v, c.world.requests⟩ c.scanner := h.valid.mono (List.Subset.refl _)
  have hspec := next_spec hb hr hvalid hnext
  rw [hcall]
  cases r with
  | failed => exact absurd rfl hspec.answered
  | exhausted => exact ⟨ls, k + 1, h.exhausted hspec⟩
  | found l => exact ⟨ls ++ [l], 0, h.found hspec⟩

theorem Walked.run (hb : AnswersBitmap K V) (hr : ReachesRequested K V) (h : Walked K V thresholdLCN c ls k)
    (vs : List σ) : ∃ ls' k', Walked K V thresholdLCN (c.run K vs) ls' k' := by
  induction vs generalizing c ls k with
  | nil => exact ⟨ls, k, h⟩
  | cons v vs ih =>
    obtain ⟨ls₁, k₁, h₁⟩ := h.call hb hr v
    exact ih h₁

end

theorem length_results_run (K : Kernel σ φ) (c : Calls σ φ) (vs : List σ) :
    (c.run K vs).results.length = c.results.length + vs.length := by
  induction vs generalizing c with
  | nil => rfl
  | cons v vs ih =>
    have hlen : (c.call K v).results.length = c.results.length + 1 := by simp [Calls.call]
    rw [Calls.run, List.foldl_cons, ← Calls.run, ih, hlen, List.length_cons]
    omega

theorem results_run_singleton (K : Kernel σ φ) (c : Calls σ φ) (v : σ) :
    (c.run K [v]).results = c.results ++ [(next K ⟨v, c.world.requests⟩ c.scanner).1] := rfl

/-- What calls made in the states `vs` return: the free clusters `ls` in increasing order below the
threshold, without leaving one out, and then `k` times nothing. -/
structure ScansFree (K : Kernel σ φ) (V : Volume σ φ) (thresholdLCN : Int) (vs : List σ) (c : Calls σ φ)
    (ls : List Int) (k : Nat) : Prop where
  results : c.results = ls.map .found ++ List.replicate k .exhausted
  increasing : ls.Pairwise (· < ·)
  free : ∀ l ∈ ls, 0 ≤ l ∧ l < thresholdLCN ∧ l < V.totalClusters ∧ Shown K V c.world l false
  complete : ∀ l, 0 ≤ l → l < thresholdLCN → l < V.totalClusters → (0 < k ∨ ∃ l' ∈ ls, l < l') →
    l ∈ ls ∨ Shown K V c.world l true
  exhausts : thresholdLCN.toNat < vs.length → 0 < k

theorem run_scansFree {K : Kernel σ φ} {V : Volume σ φ} (hb : AnswersBitmap K V) (hr : ReachesRequested K V)
    (thresholdLCN : Int) (v : σ) (vs : List σ) :
    ∃ ls k, ScansFree K V thresholdLCN vs ((Calls.new v thresholdLCN).run K vs) ls k := by
  obtain ⟨ls, k, h⟩ := (walked_new K V v thresholdLCN).run hb hr vs
  refine ⟨ls, k, h.results, h.increasing, ?_, ?_, ?_⟩
  · intro l hl
    obtain ⟨h₀, _, hrest⟩ := h.free l hl
    exact ⟨h₀, hrest⟩
  · intro l h₀ h₁ h₂ hpast
    refine h.complete l h₀ ?_ h₂
    rcases hpast with hk | ⟨l', hl', hlt⟩
    · have := h.ended hk
      omega
    · have := (h.free l' hl').2.1
      omega
  · intro hlong
    have hbound := h.length.1
    have hcalls := length_results_run K (Calls.new v thresholdLCN) vs
    rw [h.results, List.length_append, List.length_map, List.length_replicate] at hcalls
    have hnone : (Calls.new v thresholdLCN : Calls σ φ).results.length = 0 := rfl
    omega

end ClusterScanner

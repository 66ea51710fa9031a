import VolumeCrypt.ClusterScanner

/-!
# Moving file clusters out of the tail

`moveTailClustersBeforeThreshold` walks the files of the volume and moves one cluster at a time from
at or above the threshold to the next free cluster below it. One scanner serves all files. Loops
whose end depends on the driver's answers take fuel, and run out of it with `none`.
-/
namespace TailRelocation

open ClusterScanner

variable {σ φ : Type}

inductive MoveError where
  | ioctl
  | noFreeCluster
  | attemptsExhausted
  deriving DecidableEq, Repr

/-- The extents from a VCN on, and whether more follow; `none` for an error. -/
def getRetrievalPointers (K : Kernel σ φ) (w : World σ φ) (file : φ) (startingVCN : Int) :
    Option (List RetrievalExtent × Bool) × World σ φ :=
  let (reply, v) := K.getRetrievalPointers w.volume file startingVCN
  let w := w.after (.pointers file startingVCN) v
  match reply with
  | .failed => (none, w)
  | .short moreData => (some ([], moreData), w)
  | .filled extents moreData => (some (extents, moreData), w)

def moveOneCluster (K : Kernel σ φ) (w : World σ φ) (file : φ) (startingVCN targetLCN : Int) : Bool × World σ φ :=
  let (ok, v) := K.moveFile w.volume file startingVCN targetLCN
  (ok, w.after (.move file startingVCN targetLCN) v)

/-- The loop over a page: the VCN to move, or the VCN the page ends at. -/
def tailVcn (thresholdLCN : Int) : Int → List RetrievalExtent → Int ⊕ Int
  | currentVCN, [] => .inr currentVCN
  | currentVCN, extent :: rest =>
    let extentLength := extent.nextVcn - currentVCN
    if extent.lcn ≥ 0 ∧ extentLength > 0 ∧ extent.lcn + extentLength > thresholdLCN then
      .inl (currentVCN + max 0 (thresholdLCN - extent.lcn))
    else tailVcn thresholdLCN extent.nextVcn rest

/-- The attempts at one cluster, each with the next free target. -/
def attemptMoves (K : Kernel σ φ) (file : φ) (vcnToMove : Int) :
    Nat → World σ φ → FreeClusterScanner → Except MoveError Bool × World σ φ × FreeClusterScanner
  | 0, w, s => (.error .attemptsExhausted, w, s)
  | attempts + 1, w, s =>
    match next K w s with
    | (.failed, w, s) => (.error .ioctl, w, s)
    | (.exhausted, w, s) => (.error .noFreeCluster, w, s)
    | (.found targetLCN, w, s) =>
      match moveOneCluster K w file vcnToMove targetLCN with
      | (true, w) => (.ok true, w, s)
      | (false, w) => attemptMoves K file vcnToMove attempts w s

/-- The loop over the pages of the mapping. -/
def movePages (K : Kernel σ φ) (thresholdLCN : Int) (file : φ) :
    Nat → Int → World σ φ → FreeClusterScanner → Option (Except MoveError Bool × World σ φ × FreeClusterScanner)
  | 0, _, _, _ => none
  | fuel + 1, startingVCN, w, s =>
    match getRetrievalPointers K w file startingVCN with
    | (none, w) => some (.error .ioctl, w, s)
    | (some (extents, moreData), w) =>
      match tailVcn thresholdLCN startingVCN extents with
      | .inl vcnToMove => some (attemptMoves K file vcnToMove 1024 w s)
      | .inr currentVCN =>
        if moreData then movePages K thresholdLCN file fuel currentVCN w s else some (.ok false, w, s)

def moveSingleTailCluster (K : Kernel σ φ) (thresholdLCN : Int) (file : φ) (fuel : Nat) (w : World σ φ)
    (s : FreeClusterScanner) : Option (Except MoveError Bool × World σ φ × FreeClusterScanner) :=
  movePages K thresholdLCN file fuel 0 w s

/-- The loop over one opened file: cluster after cluster, until there is none left or an error. -/
def relocateFile (K : Kernel σ φ) (thresholdLCN : Int) (file : φ) :
    Nat → Bool → World σ φ → FreeClusterScanner → Option (Bool × World σ φ × FreeClusterScanner)
  | 0, _, _, _ => none
  | fuel + 1, movedAny, w, s =>
    match moveSingleTailCluster K thresholdLCN file fuel w s with
    | none => none
    | some (.error _, w, s) => some (movedAny, w, s)
    | some (.ok false, w, s) => some (movedAny, w, s)
    | some (.ok true, w, s) => relocateFile K thresholdLCN file fuel true w s

/-- What the walk hands to its callback: a permission error, another error, the root itself, a path that
cannot be opened, or an open file. -/
inductive WalkEntry (φ : Type) where
  | denied
  | failed
  | root
  | unopened
  | opened (file : φ)

/-- The walk; `none` in the outcome is an error of the walk itself. -/
def walk (K : Kernel σ φ) (thresholdLCN : Int) (fuel : Nat) :
    List (WalkEntry φ) → Bool → World σ φ → FreeClusterScanner →
      Option (Option Bool × World σ φ × FreeClusterScanner)
  | [], movedAny, w, s => some (some movedAny, w, s)
  | .failed :: _, _, w, s => some (none, w, s)
  | .denied :: rest, movedAny, w, s => walk K thresholdLCN fuel rest movedAny w s
  | .root :: rest, movedAny, w, s => walk K thresholdLCN fuel rest movedAny w s
  | .unopened :: rest, movedAny, w, s => walk K thresholdLCN fuel rest movedAny w s
  | .opened file :: rest, movedAny, w, s =>
    match relocateFile K thresholdLCN file fuel movedAny w s with
    | none => none
    | some (movedAny, w, s) => walk K thresholdLCN fuel rest movedAny w s

/-- `entries` is `none` where the volume path has no root to walk. The outcome is whether a cluster was
moved, or `none` for an error. -/
def moveTailClustersBeforeThreshold (K : Kernel σ φ) (entries : Option (List (WalkEntry φ))) (thresholdLCN : Int)
    (fuel : Nat) (w : World σ φ) : Option (Option Bool × World σ φ) :=
  match entries with
  | none => some (none, w)
  | some entries =>
    match walk K thresholdLCN fuel entries false w (newFreeClusterScanner thresholdLCN) with
    | none => none
    | some (outcome, w, _) => some (outcome, w)

/-! ## File mappings -/

/-- Extents follow each other with increasing VCNs. -/
def IsMapping : Int → List RetrievalExtent → Prop
  | _, [] => True
  | vcn, extent :: rest => vcn < extent.nextVcn ∧ IsMapping extent.nextVcn rest

/-- Where a mapping that starts at `start` stores a VCN. -/
def lcnOf : Int → List RetrievalExtent → Int → Option Int
  | _, [], _ => none
  | start, extent :: rest, vcn =>
    if vcn < extent.nextVcn then
      if start ≤ vcn ∧ extent.lcn ≥ 0 then some (extent.lcn + (vcn - start)) else none
    else lcnOf extent.nextVcn rest vcn

/-- The VCN a mapping ends at. -/
def endVcn (start : Int) (extents : List RetrievalExtent) : Int := extents.foldl (fun _ e => e.nextVcn) start

/-- Retrieval pointers describe the extents of the file: from the requested VCN on, in pages of at least one
extent. Only a successful move changes the extents of a file. -/
structure DescribesExtents (K : Kernel σ φ) (V : Volume σ φ) : Prop where
  mapping : ∀ v file, IsMapping 0 (V.extents v file)
  page : ∀ v file vcn, 0 ≤ vcn → (K.getRetrievalPointers v file vcn).1 = .failed ∨
    ∃ extents rest moreData, (K.getRetrievalPointers v file vcn).1 = .filled extents moreData ∧
      (V.extents v file).dropWhile (fun e => e.nextVcn ≤ vcn) = extents ++ rest ∧
      (moreData = false → rest = []) ∧ (moreData = true → extents ≠ [])
  pointers : ∀ v file vcn, V.extents (K.getRetrievalPointers v file vcn).2 = V.extents v
  bitmap : ∀ v lcn, V.extents (K.getVolumeBitmap v lcn).2 = V.extents v
  move : ∀ v file vcn lcn, (K.moveFile v file vcn lcn).1 = false → V.extents (K.moveFile v file vcn lcn).2 = V.extents v

/-- No cluster of the mapping lies at or above the threshold. -/
def BelowThreshold (thresholdLCN start : Int) (extents : List RetrievalExtent) : Prop :=
  ∀ vcn lcn, lcnOf start extents vcn = some lcn → lcn < thresholdLCN

theorem endVcn_append (start : Int) (es fs : List RetrievalExtent) :
    endVcn start (es ++ fs) = endVcn (endVcn start es) fs := by
  rw [endVcn, List.foldl_append]
  rfl

theorem le_endVcn {start : Int} {es : List RetrievalExtent} (h : IsMapping start es) : start ≤ endVcn start es := by
  induction es generalizing start with
  | nil => exact le_refl _
  | cons e es ih => exact le_trans (le_of_lt h.1) (ih h.2)

theorem isMapping_append {start : Int} {es fs : List RetrievalExtent} :
    IsMapping start (es ++ fs) ↔ IsMapping start es ∧ IsMapping (endVcn start es) fs := by
  induction es generalizing start with
  | nil => simp [IsMapping, endVcn]
  | cons e es ih =>
    rw [List.cons_append, IsMapping, ih, IsMapping, and_assoc]
    rfl

/-- Asked for the VCN at which a part of the mapping ends, the driver goes on behind that part. -/
theorem dropWhile_endVcn {start : Int} {es fs : List RetrievalExtent} (h : IsMapping start (es ++ fs)) :
    (es ++ fs).dropWhile (fun e => e.nextVcn ≤ endVcn start es) = fs := by
  induction es generalizing start with
  | nil =>
    cases fs with
    | nil => rfl
    | cons f fs =>
      have : ¬ f.nextVcn ≤ start := not_le.mpr h.1
      simp [endVcn, this]
  | cons e es ih =>
    have hle : e.nextVcn ≤ endVcn e.nextVcn es := le_endVcn (isMapping_append.mp h.2).1
    have hend : endVcn start (e :: es) = endVcn e.nextVcn es := rfl
    rw [hend, List.cons_append, List.dropWhile_cons_of_pos (by simpa using hle)]
    exact ih h.2

theorem lcnOf_lt {start : Int} {es : List RetrievalExtent} (h : IsMapping start es) {vcn lcn : Int}
    (hl : lcnOf start es vcn = some lcn) : start ≤ vcn ∧ vcn < endVcn start es := by
  induction es generalizing start with
  | nil => simp [lcnOf] at hl
  | cons e es ih =>
    have hend : endVcn start (e :: es) = endVcn e.nextVcn es := rfl
    rw [lcnOf] at hl
    rw [hend]
    split at hl
    · split at hl
      · have := le_endVcn h.2
        omega
      · cases hl
    · have := ih h.2 hl
      have := h.1
      omega

theorem lcnOf_append {start : Int} {es fs : List RetrievalExtent} (h : IsMapping start (es ++ fs)) (vcn : Int) :
    lcnOf start (es ++ fs) vcn =
      if vcn < endVcn start es then lcnOf start es vcn else lcnOf (endVcn start es) fs vcn := by
  induction es generalizing start with
  | nil =>
    have hend : endVcn start [] = start := rfl
    rw [hend, List.nil_append, lcnOf]
    split
    · rename_i hlt
      by_contra hne
      obtain ⟨lcn, hlcn⟩ := Option.ne_none_iff_exists'.mp hne
      have := lcnOf_lt h hlcn
      omega
    · rfl
  | cons e es ih =>
    have hend : endVcn start (e :: es) = endVcn e.nextVcn es := rfl
    rw [hend, List.cons_append, lcnOf, lcnOf, ih h.2]
    have hle := le_endVcn (isMapping_append.mp h.2).1
    by_cases hlt : vcn < e.nextVcn
    · have hlt' : vcn < endVcn e.nextVcn es := by omega
      rw [if_pos hlt, if_pos hlt, if_pos hlt']
    · rw [if_neg hlt, if_neg hlt]

theorem BelowThreshold.append {thresholdLCN start : Int} {es fs : List RetrievalExtent}
    (h : IsMapping start (es ++ fs)) (hes : BelowThreshold thresholdLCN start es)
    (hfs : BelowThreshold thresholdLCN (endVcn start es) fs) : BelowThreshold thresholdLCN start (es ++ fs) := by
  intro vcn lcn hl
  rw [lcnOf_append h] at hl
  split at hl
  · exact hes vcn lcn hl
  · exact hfs vcn lcn hl

/-! ## One page -/

/-- A VCN picked from a page is stored at or above the threshold. -/
theorem tailVcn_inl {thresholdLCN start vcn : Int} {es : List RetrievalExtent} (hm : IsMapping start es)
    (h : tailVcn thresholdLCN start es = .inl vcn) : ∃ lcn, lcnOf start es vcn = some lcn ∧ thresholdLCN ≤ lcn := by
  induction es generalizing start with
  | nil => cases h
  | cons e es ih =>
    rw [tailVcn] at h
    split at h
    · rename_i htail
      cases h
      refine ⟨e.lcn + max 0 (thresholdLCN - e.lcn), ?_, by omega⟩
      rw [lcnOf, if_pos (by omega), if_pos (by omega)]
      congr 1
      omega
    · obtain ⟨lcn, hl, hle⟩ := ih hm.2 h
      refine ⟨lcn, ?_, hle⟩
      have := (lcnOf_lt hm.2 hl).1
      rw [lcnOf, if_neg (by omega)]
      exact hl

/-- A page from which none is picked has none at or above it, and the walk goes on at its end. -/
theorem tailVcn_inr {thresholdLCN start vcn : Int} {es : List RetrievalExtent} (hm : IsMapping start es)
    (h : tailVcn thresholdLCN start es = .inr vcn) : vcn = endVcn start es ∧ BelowThreshold thresholdLCN start es := by
  induction es generalizing start with
  | nil =>
    cases h
    exact ⟨rfl, by simp [BelowThreshold, lcnOf]⟩
  | cons e es ih =>
    rw [tailVcn] at h
    split at h
    · cases h
    · rename_i hnot
      obtain ⟨hv, hbelow⟩ := ih hm.2 h
      refine ⟨hv, ?_⟩
      intro v lcn hl
      rw [lcnOf] at hl
      split at hl
      · split at hl
        · have := hm.1
          have := Option.some.inj hl
          omega
        · cases hl
      · exact hbelow v lcn hl

/-! ## Requests -/

/-- A request to move a cluster moves one stored at or above the threshold, to a target below it that the
bitmap showed as free. -/
def TailMove (K : Kernel σ φ) (V : Volume σ φ) (thresholdLCN : Int) (w : World σ φ) (q : σ × Request φ) : Prop :=
  ∀ file vcn lcn, q.2 = .move file vcn lcn →
    (∃ current, lcnOf 0 (V.extents q.1 file) vcn = some current ∧ thresholdLCN ≤ current) ∧
      0 ≤ lcn ∧ lcn < thresholdLCN ∧ lcn < V.totalClusters ∧ Shown K V w lcn false

theorem TailMove.mono {K : Kernel σ φ} {V : Volume σ φ} {thresholdLCN : Int} {w w' : World σ φ} {q : σ × Request φ}
    (h : TailMove K V thresholdLCN w q) (hw : w.requests ⊆ w'.requests) : TailMove K V thresholdLCN w' q := by
  intro file vcn lcn hq
  obtain ⟨hcur, h₀, h₁, h₂, h₃⟩ := h file vcn lcn hq
  exact ⟨hcur, h₀, h₁, h₂, h₃.mono hw⟩

/-- A step of the relocation: the scanner stays usable and goes up, and moves are tail moves. -/
structure Step (K : Kernel σ φ) (V : Volume σ φ) (thresholdLCN : Int) (w : World σ φ) (s : FreeClusterScanner)
    (w' : World σ φ) (s' : FreeClusterScanner) : Prop where
  threshold : s'.thresholdLCN = thresholdLCN
  valid : Valid K V w' s'
  le : s.nextLCN ≤ s'.nextLCN
  requests : ∃ new, w'.requests = new ++ w.requests ∧ ∀ q ∈ new, TailMove K V thresholdLCN w' q

section

variable {K : Kernel σ φ} {V : Volume σ φ} {thresholdLCN : Int} {w w₁ w' : World σ φ} {s s₁ s' : FreeClusterScanner}

theorem Step.refl (hthr : s.thresholdLCN = thresholdLCN) (hv : Valid K V w s) : Step K V thresholdLCN w s w s :=
  ⟨hthr, hv, le_refl _, [], rfl, by simp⟩

theorem Step.trans (h : Step K V thresholdLCN w s w₁ s₁) (h' : Step K V thresholdLCN w₁ s₁ w' s') :
    Step K V thresholdLCN w s w' s' := by
  obtain ⟨new, hnew, hmoves⟩ := h.requests
  have hmono : ∀ q ∈ new, TailMove K V thresholdLCN w' q :=
    fun q hq => (hmoves q hq).mono (requests_subset h'.requests)
  exact ⟨h'.threshold, h'.valid, le_trans h.le h'.le, requests_trans ⟨new, hnew, hmono⟩ h'.requests⟩

/-- A request of another kind than a move. -/
theorem Step.after (hthr : s.thresholdLCN = thresholdLCN) (hv : Valid K V w s) (r : Request φ) (v : σ)
    (hr : ∀ file vcn lcn, r ≠ .move file vcn lcn) : Step K V thresholdLCN w s (w.after r v) s := by
  refine ⟨hthr, hv.mono (List.subset_cons_self _ _), le_refl _, [(w.volume, r)], rfl, ?_⟩
  intro q hq file vcn lcn hmove
  rw [List.mem_singleton.mp hq] at hmove
  exact absurd hmove (hr file vcn lcn)

theorem Step.next {r : NextResult} (hthr : s.thresholdLCN = thresholdLCN) (h : NextSpec K V w s r w' s') :
    Step K V thresholdLCN w s w' s' := by
  obtain ⟨new, hnew, hbitmap⟩ := h.requests
  refine ⟨h.threshold.trans hthr, h.valid, h.le, new, hnew, ?_⟩
  intro q hq file vcn lcn hmove
  obtain ⟨l, hl⟩ := hbitmap q hq
  rw [hl] at hmove
  cases hmove

end

/-! ## Frames -/

theorem extents_refill {K : Kernel σ φ} {V : Volume σ φ} (hd : DescribesExtents K V) {w w' : World σ φ}
    {s s' : FreeClusterScanner} {r : Refill} (h : refill K w s = (r, w', s')) :
    V.extents w'.volume = V.extents w.volume := by
  rcases world_refill h with rfl | rfl
  · rfl
  · exact hd.bitmap w.volume s.nextLCN

theorem extents_scan {K : Kernel σ φ} {V : Volume σ φ} (hd : DescribesExtents K V) (n : Nat) {w w' : World σ φ}
    {s s' : FreeClusterScanner} {r : NextResult} (h : scan K n w s = (r, w', s')) :
    V.extents w'.volume = V.extents w.volume := by
  induction n generalizing w s with
  | zero =>
    cases h
    rfl
  | succ n ih =>
    rw [scan] at h
    obtain ⟨r₁, w₁, s₁, hrefill⟩ : ∃ r₁ w₁ s₁, refill K w s = (r₁, w₁, s₁) := ⟨_, _, _, rfl⟩
    have hframe := extents_refill hd hrefill
    rw [hrefill] at h
    cases r₁ with
    | failed =>
      cases h
      exact hframe
    | exhausted =>
      cases h
      exact hframe
    | ready =>
      dsimp only at h
      split at h
      · cases h
        exact hframe
      · exact (ih h).trans hframe

/-! ## One cluster -/

/-- What `moveSingleTailCluster` leaves behind for a file. -/
structure MovesTail (K : Kernel σ φ) (V : Volume σ φ) (thresholdLCN : Int) (file : φ) (w : World σ φ)
    (s : FreeClusterScanner) (r : Except MoveError Bool) (w' : World σ φ) (s' : FreeClusterScanner) : Prop where
  step : Step K V thresholdLCN w s w' s'
  progress : r = .ok true → s.nextLCN < s'.nextLCN ∧ s'.nextLCN ≤ thresholdLCN
  done : r = .ok false → BelowThreshold thresholdLCN 0 (V.extents w'.volume file)

section

variable {K : Kernel σ φ} {V : Volume σ φ} {thresholdLCN : Int} {file : φ}

/-- The request to move a cluster stored at or above the threshold to what the scanner returned. -/
theorem Step.move {w w₁ : World σ φ} {s s₁ : FreeClusterScanner} {vcn lcn current : Int}
    (hthr : s.thresholdLCN = thresholdLCN) (hv : Valid K V w s) (hspec : NextSpec K V w s (.found lcn) w₁ s₁)
    (hcur : lcnOf 0 (V.extents w₁.volume file) vcn = some current) (hle : thresholdLCN ≤ current) :
    Step K V thresholdLCN w₁ s₁ (moveOneCluster K w₁ file vcn lcn).2 s₁ := by
  obtain ⟨hge, -, hlt, htotal, hshown⟩ := hspec.found lcn rfl
  have hnonneg := hv.nonneg
  refine ⟨hspec.threshold.trans hthr, hspec.valid.mono (List.subset_cons_self _ _), le_refl _,
    [(w₁.volume, .move file vcn lcn)], rfl, ?_⟩
  intro q hq file' vcn' lcn' hq'
  rw [List.mem_singleton.mp hq] at hq' ⊢
  cases hq'
  exact ⟨⟨current, hcur, hle⟩, by omega, by omega, htotal, hshown.mono (List.subset_cons_self _ _)⟩

/-- A move that fails leaves the cluster where it is. -/
theorem extents_moveOneCluster (hd : DescribesExtents K V) {w w' : World σ φ} {vcn lcn : Int}
    (h : moveOneCluster K w file vcn lcn = (false, w')) : V.extents w'.volume = V.extents w.volume := by
  have hok : (K.moveFile w.volume file vcn lcn).1 = false := congrArg Prod.fst h
  have hw : w' = w.after (.move file vcn lcn) (K.moveFile w.volume file vcn lcn).2 := (congrArg Prod.snd h).symm
  rw [hw, World.after, hd.move _ _ _ _ hok]

/-- Attempts at a cluster stored at or above the threshold. -/
theorem attemptMoves_spec (hb : AnswersBitmap K V) (hr : ReachesRequested K V) (hd : DescribesExtents K V)
    (attempts : Nat) {w w' : World σ φ} {s s' : FreeClusterScanner} {r : Except MoveError Bool} {vcn current : Int}
    (hcur : lcnOf 0 (V.extents w.volume file) vcn = some current) (hle : thresholdLCN ≤ current)
    (hthr : s.thresholdLCN = thresholdLCN) (hv : Valid K V w s)
    (h : attemptMoves K file vcn attempts w s = (r, w', s')) : MovesTail K V thresholdLCN file w s r w' s' := by
  induction attempts generalizing w s with
  | zero =>
    cases h
    exact ⟨Step.refl hthr hv, by simp, by simp⟩
  | succ attempts ih =>
    rw [attemptMoves] at h
    obtain ⟨r₁, w₁, s₁, hnext⟩ : ∃ r₁ w₁ s₁, next K w s = (r₁, w₁, s₁) := ⟨_, _, _, rfl⟩
    have hspec := next_spec hb hr hv hnext
    have hstep := Step.next hthr hspec
    rw [hnext] at h
    cases r₁ with
    | failed =>
      cases h
      exact ⟨hstep, by simp, by simp⟩
    | exhausted =>
      cases h
      exact ⟨hstep, by simp, by simp⟩
    | found lcn =>
      obtain ⟨hge, hnext', hlt, -⟩ := hspec.found lcn rfl
      have hcur₁ : lcnOf 0 (V.extents w₁.volume file) vcn = some current := by
        rw [extents_scan hd _ hnext]
        exact hcur
      -- the move request is the one new request besides those of the scanner
      have hmove := Step.move hthr hv hspec hcur₁ hle
      dsimp only at h
      obtain ⟨ok, w₂, hone⟩ : ∃ ok w₂, moveOneCluster K w₁ file vcn lcn = (ok, w₂) := ⟨_, _, rfl⟩
      rw [hone] at h hmove
      have hboth := hstep.trans hmove
      cases ok with
      | true =>
        cases h
        exact ⟨hboth, fun _ => ⟨by omega, by omega⟩, by simp⟩
      | false =>
        have hcur₂ : lcnOf 0 (V.extents w₂.volume file) vcn = some current := by
          rw [extents_moveOneCluster hd hone]
          exact hcur₁
        have hrest := ih hcur₂ hmove.threshold hmove.valid h
        refine ⟨hboth.trans hrest.step, ?_, hrest.done⟩
        intro hr'
        have := hrest.progress hr'
        have := hboth.le
        exact ⟨by omega, by omega⟩

/-- A page asked for where a part of the mapping ends: an error, or the extents that follow. -/
theorem getRetrievalPointers_spec (hd : DescribesExtents K V) {w : World σ φ} {done rest : List RetrievalExtent}
    (hext : V.extents w.volume file = done ++ rest) :
    ∃ answer w', getRetrievalPointers K w file (endVcn 0 done) = (answer, w') ∧
      w' = w.after (.pointers file (endVcn 0 done)) (K.getRetrievalPointers w.volume file (endVcn 0 done)).2 ∧
      V.extents w'.volume = V.extents w.volume ∧
      (answer = none ∨ ∃ extents rest' moreData, answer = some (extents, moreData) ∧ rest = extents ++ rest' ∧
        (moreData = false → rest' = []) ∧ (moreData = true → extents ≠ [])) := by
  have hm : IsMapping 0 (done ++ rest) := hext ▸ hd.mapping w.volume file
  have hnonneg : 0 ≤ endVcn 0 done := le_endVcn (isMapping_append.mp hm).1
  have hframe := hd.pointers w.volume file (endVcn 0 done)
  rw [getRetrievalPointers]
  rcases hd.page w.volume file (endVcn 0 done) hnonneg with hreply | ⟨extents, rest', moreData, hreply, hpage, hmore⟩
  · refine ⟨none, _, ?_, rfl, hframe, Or.inl rfl⟩
    simp only [hreply]
  · refine ⟨some (extents, moreData), _, ?_, rfl, hframe, Or.inr ⟨extents, rest', moreData, rfl, ?_, hmore⟩⟩
    · simp only [hreply]
    · rw [hext, dropWhile_endVcn hm] at hpage
      exact hpage

/-- The loop over the pages, from where a part of the mapping without tail clusters ends. -/
theorem movePages_spec (hb : AnswersBitmap K V) (hr : ReachesRequested K V) (hd : DescribesExtents K V) (fuel : Nat)
    {w w' : World σ φ} {s s' : FreeClusterScanner} {r : Except MoveError Bool} {done rest : List RetrievalExtent}
    (hext : V.extents w.volume file = done ++ rest) (hdone : BelowThreshold thresholdLCN 0 done)
    (hthr : s.thresholdLCN = thresholdLCN) (hv : Valid K V w s)
    (h : movePages K thresholdLCN file fuel (endVcn 0 done) w s = some (r, w', s')) :
    MovesTail K V thresholdLCN file w s r w' s' := by
  induction fuel generalizing w done rest with
  | zero => cases h
  | succ fuel ih =>
    obtain ⟨answer, w₁, hpointers, hw₁, hframe, hanswer⟩ := getRetrievalPointers_spec hd hext
    have hstep : Step K V thresholdLCN w s w₁ s := by
      rw [hw₁]
      exact Step.after hthr hv _ _ (by simp)
    rw [movePages, hpointers] at h
    rcases hanswer with rfl | ⟨extents, rest', moreData, rfl, hrest, hlast, _⟩
    · cases h
      exact ⟨hstep, by simp, by simp⟩
    · have hext₁ : V.extents w₁.volume file = (done ++ extents) ++ rest' := by
        rw [hframe, hext, hrest, List.append_assoc]
      have hm : IsMapping 0 ((done ++ extents) ++ rest') := hext₁ ▸ hd.mapping w₁.volume file
      have hm₁ : IsMapping 0 (done ++ extents) := (isMapping_append.mp hm).1
      have hm₂ : IsMapping (endVcn 0 done) extents := (isMapping_append.mp hm₁).2
      dsimp only at h
      cases hpick : tailVcn thresholdLCN (endVcn 0 done) extents with
      | inl vcn =>
        rw [hpick] at h
        obtain ⟨current, hcur, hle⟩ := tailVcn_inl hm₂ hpick
        -- the same cluster in the mapping of the whole file
        have hcur₁ : lcnOf 0 (V.extents w₁.volume file) vcn = some current := by
          have hin := lcnOf_lt hm₂ hcur
          rw [hext₁, lcnOf_append hm, endVcn_append, if_pos hin.2, lcnOf_append hm₁, if_neg (by omega)]
          exact hcur
        have hmoves := attemptMoves_spec hb hr hd 1024 hcur₁ hle hthr hstep.valid (Option.some.inj h)
        exact ⟨hstep.trans hmoves.step, hmoves.progress, hmoves.done⟩
      | inr vcn =>
        rw [hpick] at h
        obtain ⟨rfl, hbelow⟩ := tailVcn_inr hm₂ hpick
        have hdone₁ := BelowThreshold.append hm₁ hdone hbelow
        dsimp only at h
        split at h
        · rw [← endVcn_append] at h
          have hmoves := ih hext₁ hdone₁ hstep.valid h
          exact ⟨hstep.trans hmoves.step, hmoves.progress, hmoves.done⟩
        · rename_i hmore
          cases h
          refine ⟨hstep, by simp, ?_⟩
          intro _
          rw [hext₁, hlast (by simpa using hmore), List.append_nil]
          exact hdone₁

theorem moveSingleTailCluster_spec (hb : AnswersBitmap K V) (hr : ReachesRequested K V) (hd : DescribesExtents K V)
    {fuel : Nat} {w w' : World σ φ} {s s' : FreeClusterScanner} {r : Except MoveError Bool}
    (hthr : s.thresholdLCN = thresholdLCN) (hv : Valid K V w s)
    (h : moveSingleTailCluster K thresholdLCN file fuel w s = some (r, w', s')) :
    MovesTail K V thresholdLCN file w s r w' s' := by
  have hnil : BelowThreshold thresholdLCN 0 [] := by simp [BelowThreshold, lcnOf]
  exact movePages_spec hb hr hd fuel (List.nil_append _).symm hnil hthr hv h

end

/-! ## Termination -/

/-- From some amount of fuel on the outcome is there, and the same. -/
def Returns {α : Type} (f : Nat → Option α) : Prop := ∃ N r, ∀ n, N ≤ n → f n = some r

section

variable {α β : Type}

theorem Returns.succ {f g : Nat → Option α} (h : ∀ n, f (n + 1) = g n) (hg : Returns g) : Returns f := by
  obtain ⟨N, r, hN⟩ := hg
  refine ⟨N + 1, r, ?_⟩
  intro n hn
  obtain ⟨m, rfl⟩ : ∃ m, n = m + 1 := ⟨n - 1, by omega⟩
  rw [h]
  exact hN m (by omega)

theorem returns_some (r : α) : Returns fun _ => some r := ⟨0, r, fun _ _ => rfl⟩

theorem Returns.bind {f : Nat → Option α} {g : α → Nat → Option β} (hf : Returns f)
    (hg : ∀ n r, f n = some r → Returns (g r)) : Returns fun n => (f n).bind fun r => g r n := by
  obtain ⟨N, r, hN⟩ := hf
  obtain ⟨M, t, hM⟩ := hg N r (hN N (le_refl N))
  refine ⟨max N M, t, ?_⟩
  intro n hn
  dsimp only
  rw [hN n (by omega), Option.bind_some]
  exact hM n (by omega)

end

section

variable {K : Kernel σ φ} {V : Volume σ φ} {thresholdLCN : Int} {file : φ}

/-- Every page but the last has an extent, so the number of extents bounds the pages. -/
theorem movePages_returns (hd : DescribesExtents K V) {w : World σ φ} (s : FreeClusterScanner)
    {done rest : List RetrievalExtent} (hext : V.extents w.volume file = done ++ rest) :
    Returns fun n => movePages K thresholdLCN file n (endVcn 0 done) w s := by
  induction hlen : rest.length using Nat.strong_induction_on generalizing w done rest with
  | _ m ih =>
    obtain ⟨answer, w₁, hpointers, _, hframe, hanswer⟩ := getRetrievalPointers_spec hd hext
    rcases hanswer with rfl | ⟨extents, rest', moreData, rfl, hrest, _, hmore⟩
    · refine Returns.succ ?_ (returns_some (.error .ioctl, w₁, s))
      intro n
      rw [movePages, hpointers]
    · have hext₁ : V.extents w₁.volume file = (done ++ extents) ++ rest' := by
        rw [hframe, hext, hrest, List.append_assoc]
      have hm : IsMapping 0 ((done ++ extents) ++ rest') := hext₁ ▸ hd.mapping w₁.volume file
      have hm₂ : IsMapping (endVcn 0 done) extents := (isMapping_append.mp (isMapping_append.mp hm).1).2
      cases hpick : tailVcn thresholdLCN (endVcn 0 done) extents with
      | inl vcn =>
        refine Returns.succ ?_ (returns_some (attemptMoves K file vcn 1024 w₁ s))
        intro n
        rw [movePages, hpointers]
        simp only [hpick]
      | inr vcn =>
        obtain ⟨hvcn, _⟩ := tailVcn_inr hm₂ hpick
        cases moreData with
        | false =>
          refine Returns.succ ?_ (returns_some (.ok false, w₁, s))
          intro n
          rw [movePages, hpointers]
          simp [hpick]
        | true =>
          have hpos : 0 < extents.length := List.length_pos_iff.mpr (hmore rfl)
          have hshort : rest'.length < m := by
            rw [← hlen, hrest, List.length_append]
            omega
          refine Returns.succ ?_ (ih _ hshort hext₁ rfl)
          intro n
          rw [movePages, hpointers, endVcn_append, ← hvcn]
          simp [hpick]

theorem moveSingleTailCluster_returns (hd : DescribesExtents K V) (w : World σ φ) (s : FreeClusterScanner) :
    Returns fun n => moveSingleTailCluster K thresholdLCN file n w s :=
  movePages_returns hd s (List.nil_append _).symm

theorem relocateFile_succ (fuel : Nat) (movedAny : Bool) (w : World σ φ) (s : FreeClusterScanner) :
    relocateFile K thresholdLCN file (fuel + 1) movedAny w s =
      (moveSingleTailCluster K thresholdLCN file fuel w s).bind fun
        | (.ok true, w', s') => relocateFile K thresholdLCN file fuel true w' s'
        | (_, w', s') => some (movedAny, w', s') := by
  rw [relocateFile]
  cases moveSingleTailCluster K thresholdLCN file fuel w s with
  | none => rfl
  | some result =>
    obtain ⟨r, w', s'⟩ := result
    cases r with
    | error e => rfl
    | ok moved => cases moved <;> rfl

/-- A successful move takes a target from the scanner, which has finitely many below the threshold. -/
theorem relocateFile_returns (hb : AnswersBitmap K V) (hr : ReachesRequested K V) (hd : DescribesExtents K V)
    (movedAny : Bool) {w : World σ φ} {s : FreeClusterScanner} (hthr : s.thresholdLCN = thresholdLCN)
    (hv : Valid K V w s) : Returns fun n => relocateFile K thresholdLCN file n movedAny w s := by
  induction hm : (thresholdLCN - s.nextLCN).toNat using Nat.strong_induction_on generalizing movedAny w s with
  | _ m ih =>
    refine Returns.succ (relocateFile_succ · movedAny w s) ?_
    refine (moveSingleTailCluster_returns hd w s).bind ?_
    rintro n ⟨r, w', s'⟩ hmove
    have hspec := moveSingleTailCluster_spec hb hr hd hthr hv hmove
    match r with
    | .error e => exact returns_some (movedAny, w', s')
    | .ok false => exact returns_some (movedAny, w', s')
    | .ok true =>
      have hprogress := hspec.progress rfl
      exact ih _ (by omega) true hspec.step.threshold hspec.step.valid rfl

theorem relocateFile_spec (hb : AnswersBitmap K V) (hr : ReachesRequested K V) (hd : DescribesExtents K V)
    (fuel : Nat) {movedAny movedAny' : Bool} {w w' : World σ φ} {s s' : FreeClusterScanner}
    (hthr : s.thresholdLCN = thresholdLCN) (hv : Valid K V w s)
    (h : relocateFile K thresholdLCN file fuel movedAny w s = some (movedAny', w', s')) :
    Step K V thresholdLCN w s w' s' := by
  induction fuel generalizing movedAny w s with
  | zero => cases h
  | succ fuel ih =>
    rw [relocateFile_succ, Option.bind_eq_some_iff] at h
    obtain ⟨⟨r, w₁, s₁⟩, hmove, hrest⟩ := h
    have hstep := (moveSingleTailCluster_spec hb hr hd hthr hv hmove).step
    match r with
    | .error e =>
      cases hrest
      exact hstep
    | .ok false =>
      cases hrest
      exact hstep
    | .ok true => exact hstep.trans (ih hstep.threshold hstep.valid hrest)

/-! ## The walk -/

theorem walk_opened (fuel : Nat) (file : φ) (rest : List (WalkEntry φ)) (movedAny : Bool) (w : World σ φ)
    (s : FreeClusterScanner) :
    walk K thresholdLCN fuel (.opened file :: rest) movedAny w s =
      (relocateFile K thresholdLCN file fuel movedAny w s).bind fun (movedAny', w', s') =>
        walk K thresholdLCN fuel rest movedAny' w' s' := by
  rw [walk]
  cases relocateFile K thresholdLCN file fuel movedAny w s <;> rfl

theorem walk_returns (hb : AnswersBitmap K V) (hr : ReachesRequested K V) (hd : DescribesExtents K V)
    (entries : List (WalkEntry φ)) (movedAny : Bool) {w : World σ φ} {s : FreeClusterScanner}
    (hthr : s.thresholdLCN = thresholdLCN) (hv : Valid K V w s) :
    Returns fun n => walk K thresholdLCN n entries movedAny w s := by
  induction entries generalizing movedAny w s with
  | nil => exact returns_some (some movedAny, w, s)
  | cons entry rest ih =>
    cases entry with
    | denied => exact ih movedAny hthr hv
    | failed => exact returns_some (none, w, s)
    | root => exact ih movedAny hthr hv
    | unopened => exact ih movedAny hthr hv
    | opened file =>
      simp only [walk_opened]
      refine (relocateFile_returns hb hr hd movedAny hthr hv).bind ?_
      rintro n ⟨movedAny', w', s'⟩ hfile
      have hstep := relocateFile_spec hb hr hd n hthr hv hfile
      exact ih movedAny' hstep.threshold hstep.valid

theorem walk_spec (hb : AnswersBitmap K V) (hr : ReachesRequested K V) (hd : DescribesExtents K V)
    (fuel : Nat) (entries : List (WalkEntry φ)) {movedAny : Bool} {outcome : Option Bool} {w w' : World σ φ}
    {s s' : FreeClusterScanner} (hthr : s.thresholdLCN = thresholdLCN) (hv : Valid K V w s)
    (h : walk K thresholdLCN fuel entries movedAny w s = some (outcome, w', s')) :
    Step K V thresholdLCN w s w' s' := by
  induction entries generalizing movedAny w s with
  | nil =>
    cases h
    exact Step.refl hthr hv
  | cons entry rest ih =>
    cases entry with
    | denied => exact ih hthr hv h
    | failed =>
      cases h
      exact Step.refl hthr hv
    | root => exact ih hthr hv h
    | unopened => exact ih hthr hv h
    | opened file =>
      rw [walk_opened, Option.bind_eq_some_iff] at h
      obtain ⟨⟨movedAny', w₁, s₁⟩, hfile, hrest⟩ := h
      have hstep := relocateFile_spec hb hr hd fuel hthr hv hfile
      exact hstep.trans (ih hstep.threshold hstep.valid hrest)

theorem moveTailClustersBeforeThreshold_some (fuel : Nat) (entries : List (WalkEntry φ)) (w : World σ φ) :
    moveTailClustersBeforeThreshold K (some entries) thresholdLCN fuel w =
      (walk K thresholdLCN fuel entries false w (newFreeClusterScanner thresholdLCN)).bind fun (outcome, w', _) =>
        some (outcome, w') := by
  rw [moveTailClustersBeforeThreshold]
  cases walk K thresholdLCN fuel entries false w (newFreeClusterScanner thresholdLCN) <;> rfl

theorem moveTailClustersBeforeThreshold_returns (hb : AnswersBitmap K V) (hr : ReachesRequested K V)
    (hd : DescribesExtents K V) (entries : Option (List (WalkEntry φ))) (w : World σ φ) :
    Returns fun n => moveTailClustersBeforeThreshold K entries thresholdLCN n w := by
  cases entries with
  | none => exact returns_some (none, w)
  | some entries =>
    simp only [moveTailClustersBeforeThreshold_some]
    refine (walk_returns hb hr hd entries false rfl (valid_new K V w thresholdLCN)).bind ?_
    rintro n ⟨outcome, w', s'⟩ _
    exact returns_some (outcome, w')

theorem moveTailClustersBeforeThreshold_requests (hb : AnswersBitmap K V) (hr : ReachesRequested K V)
    (hd : DescribesExtents K V) (entries : Option (List (WalkEntry φ))) (fuel : Nat) {w w' : World σ φ}
    {outcome : Option Bool} (h : moveTailClustersBeforeThreshold K entries thresholdLCN fuel w = some (outcome, w')) :
    ∃ new, w'.requests = new ++ w.requests ∧ ∀ q ∈ new, TailMove K V thresholdLCN w' q := by
  cases entries with
  | none =>
    cases h
    exact ⟨[], rfl, by simp⟩
  | some entries =>
    rw [moveTailClustersBeforeThreshold_some, Option.bind_eq_some_iff] at h
    obtain ⟨⟨outcome', w₁, s₁⟩, hwalk, hrest⟩ := h
    cases hrest
    exact (walk_spec hb hr hd fuel entries rfl (valid_new K V w thresholdLCN) hwalk).requests

end

/-! ## The relocation as a whole -/

/-- Where the volume and the scanner come to: from a new scanner, by calls for any files in any order, with
the volume changed by others in between. -/
inductive Reached (K : Kernel σ φ) (thresholdLCN : Int) : World σ φ → FreeClusterScanner → Prop
  | new (v : σ) : Reached K thresholdLCN ⟨v, []⟩ (newFreeClusterScanner thresholdLCN)
  | changed (v : σ) {w : World σ φ} {s : FreeClusterScanner} :
    Reached K thresholdLCN w s → Reached K thresholdLCN ⟨v, w.requests⟩ s
  | moved {file : φ} {fuel : Nat} {r : Except MoveError Bool} {w w' : World σ φ} {s s' : FreeClusterScanner} :
    Reached K thresholdLCN w s → moveSingleTailCluster K thresholdLCN file fuel w s = some (r, w', s') →
      Reached K thresholdLCN w' s'

theorem Reached.valid {K : Kernel σ φ} {V : Volume σ φ} {thresholdLCN : Int} (hb : AnswersBitmap K V)
    (hr : ReachesRequested K V) (hd : DescribesExtents K V) {w : World σ φ} {s : FreeClusterScanner}
    (h : Reached K thresholdLCN w s) : s.thresholdLCN = thresholdLCN ∧ Valid K V w s := by
  induction h with
  | new v => exact ⟨rfl, valid_new K V _ thresholdLCN⟩
  | changed v _ ih => exact ⟨ih.1, ih.2.mono (List.Subset.refl _)⟩
  | moved _ hmove ih =>
    have hstep := (moveSingleTailCluster_spec hb hr hd ih.1 ih.2 hmove).step
    exact ⟨hstep.threshold, hstep.valid⟩

/-- The scanner hands out the free clusters below the threshold in order, a call moves only tail clusters to
such targets and says that none is left only where none is, and the loops return. -/
structure Relocates (K : Kernel σ φ) (V : Volume σ φ) (thresholdLCN : Int) : Prop where
  scans : ∀ (v : σ) (vs : List σ), ∃ ls k, ScansFree K V thresholdLCN vs ((Calls.new v thresholdLCN).run K vs) ls k
  moves : ∀ w s file fuel r w' s', Reached K thresholdLCN w s →
    moveSingleTailCluster K thresholdLCN file fuel w s = some (r, w', s') →
      ∃ new, w'.requests = new ++ w.requests ∧ ∀ q ∈ new, TailMove K V thresholdLCN w' q
  done : ∀ w s file fuel w' s', Reached K thresholdLCN w s →
    moveSingleTailCluster K thresholdLCN file fuel w s = some (.ok false, w', s') →
      BelowThreshold thresholdLCN 0 (V.extents w'.volume file)
  returns : ∀ w s file movedAny, Reached K thresholdLCN w s →
    Returns (fun n => moveSingleTailCluster K thresholdLCN file n w s) ∧
      Returns fun n => relocateFile K thresholdLCN file n movedAny w s
  walks : ∀ entries w, Returns fun n => moveTailClustersBeforeThreshold K entries thresholdLCN n w

theorem relocates (K : Kernel σ φ) (V : Volume σ φ) (thresholdLCN : Int) (hb : AnswersBitmap K V)
    (hr : ReachesRequested K V) (hd : DescribesExtents K V) : Relocates K V thresholdLCN where
  scans := run_scansFree hb hr thresholdLCN
  moves := by
    intro w s file fuel r w' s' hreach hmove
    obtain ⟨hthr, hv⟩ := hreach.valid hb hr hd
    exact (moveSingleTailCluster_spec hb hr hd hthr hv hmove).step.requests
  done := by
    intro w s file fuel w' s' hreach hmove
    obtain ⟨hthr, hv⟩ := hreach.valid hb hr hd
    exact (moveSingleTailCluster_spec hb hr hd hthr hv hmove).done rfl
  returns := by
    intro w s file movedAny hreach
    obtain ⟨hthr, hv⟩ := hreach.valid hb hr hd
    exact ⟨moveSingleTailCluster_returns hd w s, relocateFile_returns hb hr hd movedAny hthr hv⟩
  walks := moveTailClustersBeforeThreshold_returns hb hr hd

/-! ## A small volume -/

/-- Sixteen clusters and one file of two. Its second cluster is at 12, and at 3 once it is moved. -/
def sampleBytes (moved : Bool) : List UInt8 := if moved then [0x0f, 0x00] else [0x07, 0x10]

def sampleVolume : Volume Bool Unit where
  totalClusters := 16
  used moved l := ((sampleBytes moved)[l.toNat / 8]?.map fun b => b.toNat.testBit (l.toNat % 8)).getD true
  extents moved _ := [⟨1, 2⟩, ⟨2, if moved then 3 else 12⟩]

/-- The bitmap answer starts at the byte of the requested cluster. -/
def sampleKernel : Kernel Bool Unit where
  getVolumeBitmap moved lcn :=
    let start := min lcn.toNat 16 / 8
    (.filled (start * 8 : Nat) (16 - start * 8 : Nat) ((sampleBytes moved).drop start), moved)
  getRetrievalPointers moved _ vcn :=
    match (sampleVolume.extents moved ()).dropWhile fun e => e.nextVcn ≤ vcn with
    | [] => (.failed, moved)
    | extents => (.filled extents false, moved)
  moveFile moved _ vcn lcn := if !moved && vcn = 1 && lcn = 3 then (true, true) else (false, moved)

theorem length_sampleBytes (moved : Bool) : (sampleBytes moved).length = 2 := by cases moved <;> rfl

theorem sample_answers : AnswersBitmap sampleKernel sampleVolume := by
  intro moved lcn hlcn
  have hcount : sampleVolume.clustersFrom ((min lcn.toNat 16 / 8 * 8 : Nat) : Int) = 16 - min lcn.toNat 16 / 8 * 8 := by
    have htotal : sampleVolume.totalClusters = 16 := rfl
    rw [Volume.clustersFrom, htotal]
    omega
  refine ⟨(min lcn.toNat 16 / 8 * 8 : Nat), (sampleBytes moved).drop (min lcn.toNat 16 / 8), ?_, ?_⟩
  · rw [hcount]
    rfl
  · refine ⟨by omega, by omega, ?_, ?_⟩
    · rw [List.length_drop, length_sampleBytes, hcount, bitmapBufferSize]
      omega
    · intro i b _ hb
      have hdiv : (min lcn.toNat 16 / 8 * 8 + i) / 8 = min lcn.toNat 16 / 8 + i / 8 := by omega
      have hmod : (min lcn.toNat 16 / 8 * 8 + i) % 8 = i % 8 := by omega
      rw [List.getElem?_drop] at hb
      rw [sampleVolume, ← Nat.cast_add]
      simp only [Int.toNat_natCast, hdiv, hmod, hb, Option.map_some, Option.getD_some]

theorem sample_reaches : ReachesRequested sampleKernel sampleVolume := by
  intro moved lcn start size bits hlcn hlt hreply
  have htotal : lcn < 16 := hlt
  cases hreply
  rw [List.length_drop, length_sampleBytes]
  omega

theorem sample_describes : DescribesExtents sampleKernel sampleVolume where
  mapping moved _ := ⟨by decide, (by decide : (1 : Int) < 2), trivial⟩
  page := by
    intro moved file vcn _
    cases hpage : (sampleVolume.extents moved ()).dropWhile fun e => e.nextVcn ≤ vcn with
    | nil =>
      left
      simp only [sampleKernel, hpage]
    | cons e es =>
      right
      refine ⟨e :: es, [], false, ?_, by rw [List.append_nil], by simp, by simp⟩
      simp only [sampleKernel, hpage]
  pointers := by
    intro moved file vcn
    simp only [sampleKernel]
    split <;> rfl
  bitmap _ _ := rfl
  move := by
    intro moved file vcn lcn hfailed
    simp only [sampleKernel] at hfailed ⊢
    split at hfailed
    · cases hfailed
    · rename_i hno
      rw [if_neg hno]

/-- On the small volume with the threshold in its middle the file ends up below it. -/
theorem sample_relocates :
    Relocates sampleKernel sampleVolume 8 ∧
      (moveTailClustersBeforeThreshold sampleKernel (some [.root, .opened ()]) 8 4 ⟨false, []⟩).map
        (fun outcome => (outcome.1, outcome.2.volume)) = some (some true, true) :=
  ⟨relocates sampleKernel sampleVolume 8 sample_answers sample_reaches sample_describes, by decide⟩

/-! ## An answer that stops in front of the requested cluster -/

/-- One cluster more than an answer from cluster 0 has room for, and only that one free. -/
def fullVolume : Volume Unit Unit where
  totalClusters := 524161
  used _ l := l < 524160
  extents _ _ := []

/-- Every answer starts at cluster 0, which is at or below any request. -/
def fullKernel : Kernel Unit Unit where
  getVolumeBitmap _ _ := (.filled 0 524161 (List.replicate 65520 0xff), ())
  getRetrievalPointers _ _ _ := (.failed, ())
  moveFile _ _ _ _ := (false, ())

theorem testBit_ff {i : Nat} (hi : i < 8) : (0xff : UInt8).toNat.testBit i = true := by
  have key : ∀ i : Fin 8, (0xff : UInt8).toNat.testBit i = true := by decide
  exact key ⟨i, hi⟩

theorem full_answers : AnswersBitmap fullKernel fullVolume := by
  intro _ lcn hlcn
  refine ⟨0, List.replicate 65520 0xff, rfl, le_refl _, hlcn, ?_, ?_⟩
  · rw [List.length_replicate]
    decide
  · intro i b hi hb
    rw [List.getElem?_replicate] at hb
    split at hb
    · cases hb
      rw [testBit_ff (Nat.mod_lt i (by decide))]
      simp only [fullVolume]
      symm
      rw [decide_eq_true_eq]
      omega
    · cases hb

theorem full_describes : DescribesExtents fullKernel fullVolume where
  mapping _ _ := trivial
  page _ _ _ _ := Or.inl rfl
  pointers _ _ _ := rfl
  bitmap _ _ := rfl
  move _ _ _ _ _ := rfl

theorem bitIsSet_full (i : Nat) : bitIsSet (List.replicate 65520 0xff) i = true := by
  have hdiv : (i : Int).tdiv 8 = ((i / 8 : Nat) : Int) := (Int.ofNat_tdiv i 8).symm
  by_cases hi : i / 8 < 65520
  · have hget : (List.replicate 65520 (0xff : UInt8))[i / 8]? = some 0xff := by rw [List.getElem?_replicate, if_pos hi]
    rw [bitIsSet_natCast hget]
    exact testBit_ff (Nat.mod_lt i (by decide))
  · have hget : (List.replicate 65520 (0xff : UInt8))[i / 8]? = none := by rw [List.getElem?_replicate, if_neg hi]
    rw [bitIsSet, hdiv]
    simp only [Int.toNat_natCast, hget]
    split <;> rfl

/-- The chunk every answer brings. -/
def fullScanner (thresholdLCN nextLCN : Int) : FreeClusterScanner :=
  ⟨thresholdLCN, nextLCN, 0, 524160, List.replicate 65520 0xff⟩

theorem refill_full (w : World Unit Unit) (s : FreeClusterScanner)
    (hs : s.chunkStart < 0 ∨ s = fullScanner s.thresholdLCN s.nextLCN) :
    ∃ w', refill fullKernel w s = (.ready, w', fullScanner s.thresholdLCN s.nextLCN) := by
  rw [refill]
  split
  · refine ⟨w.after (.bitmap s.nextLCN) (), ?_⟩
    have hmin : min (((List.replicate 65520 (0xff : UInt8)).length : Int) * 8) 524161 = 524160 := by
      rw [List.length_replicate]
      rfl
    simp only [loadBitmap, fullKernel, hmin]
    rfl
  · rename_i hin
    exact ⟨w, by rw [← hs.resolve_left (by omega)]⟩

/-- The scan meets the requested cluster behind the end of the answer and goes past it. -/
theorem scan_full (n : Nat) (w : World Unit Unit) (s : FreeClusterScanner) (hnext : 0 ≤ s.nextLCN)
    (hs : s.chunkStart < 0 ∨ s = fullScanner s.thresholdLCN s.nextLCN) : (scan fullKernel n w s).1 = .exhausted := by
  induction n generalizing w s with
  | zero => rfl
  | succ n ih =>
    obtain ⟨w', hrefill⟩ := refill_full w s hs
    obtain ⟨i, hi⟩ := Int.eq_ofNat_of_zero_le hnext
    have hset : bitIsSet (fullScanner s.thresholdLCN s.nextLCN).bitmap
        ((fullScanner s.thresholdLCN s.nextLCN).nextLCN - (fullScanner s.thresholdLCN s.nextLCN).chunkStart) = true := by
      change bitIsSet (List.replicate 65520 0xff) (s.nextLCN - 0) = true
      rw [hi, sub_zero]
      exact bitIsSet_full i
    rw [scan, hrefill]
    simp only [hset, Bool.true_eq_false, and_false, if_false]
    exact ih w' _ (by dsimp only [fullScanner]; omega) (Or.inr rfl)

/-- With such answers the free cluster below the threshold is never found: the first call reports exhaustion. -/
theorem free_cluster_skipped :
    AnswersBitmap fullKernel fullVolume ∧ DescribesExtents fullKernel fullVolume ∧
      ((Calls.new () 524161).run fullKernel [()]).results = [.exhausted] ∧
      fullVolume.used () 524160 = false ∧ ¬ Relocates fullKernel fullVolume 524161 := by
  have hresults : ((Calls.new () 524161).run fullKernel [()]).results = [.exhausted] := by
    have hscan : (next fullKernel ⟨(), []⟩ (newFreeClusterScanner 524161)).1 = .exhausted :=
      scan_full _ _ _ (le_refl _) (Or.inl (by rw [newFreeClusterScanner]; decide))
    rw [results_run_singleton, Calls.new, hscan, List.nil_append]
  have hfree : fullVolume.used () 524160 = false := by simp [fullVolume]
  refine ⟨full_answers, full_describes, hresults, hfree, ?_⟩
  intro h
  obtain ⟨ls, k, hscans⟩ := h.scans () [()]
  have hends : [NextResult.exhausted] = ls.map .found ++ List.replicate k .exhausted :=
    hresults.symm.trans hscans.results
  cases ls with
  | cons l ls => simp at hends
  | nil =>
    have hk : 0 < k := by
      have := congrArg List.length hends
      simp at this
      omega
    rcases hscans.complete 524160 (by decide) (by decide) (by decide) (Or.inl hk) with hmem | hshown
    · cases hmem
    · obtain ⟨v, lcn, start, size, bits, _, _, _, _, hused⟩ := hshown
      rw [hfree] at hused
      cases hused

end TailRelocation

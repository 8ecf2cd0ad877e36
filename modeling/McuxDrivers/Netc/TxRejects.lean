import McuxDrivers.Netc.TxReports
import Mathlib.Algebra.Order.BigOperators.Group.List

/-!
# What a rejected frame leaves in a transmit ring

`EP_SendFrame` for any ring number and any buffer array, also for an array of which the frame names no buffer. A run that
reads behind the array has no result.
-/

namespace McuxDrivers.Netc

/-- `netc_frame_struct_t`: the array of the application, and the number of its buffers that belong to the frame. -/
structure TxRequest where
  buffArray : List Buffer
  length : Nat
  length_le : length ≤ buffArray.length
  length_lt : length < 2 ^ 16
  array_lt : buffArray.length < 2 ^ 32 - 1

/-- The loop that sums up the buffer lengths, which counts down before it compares. -/
def sumLengths : List Buffer → Nat → Nat → Option Nat
  | [], _, _ => none
  | txBuff :: buffers, totBdNum, frameLen =>
    let frameLen := (frameLen + txBuff.length.toNat) % 2 ^ 32
    let totBdNum := (totBdNum + (2 ^ 32 - 1)) % 2 ^ 32
    if totBdNum ≠ 0 then sumLengths buffers totBdNum frameLen else some frameLen

namespace TxRing

/-- `EP_SendFrameCommon`. -/
def sendRequestCommon (r : TxRing) (x : TxRequest) (context : Nat) (txDesc0 txDesc1 : TxBd) :
    Option (TxRing × TxStatus) := do
  let first ← x.buffArray.head?
  let result := if first.length.toNat < 16 ∨ x.length = 0 then .txFrameOverLen else .success
  let frameLen ← sumLengths x.buffArray x.length 0
  let totBdNum := if txDesc0.isExtended then x.length + 1 else x.length
  if frameLen > 9600 then some (r, .txFrameOverLen)
  else if totBdNum > r.getIdleTxBDNum then some (r, .busy)
  else
    match fill frameLen context txDesc0 txDesc1 totBdNum 0 x.buffArray r r.producerIndex with
    | .error r' => some (r', .invalidArgument)
    | .ok (r', txDesTemp) =>
      some ({ r' with
          bdBase := Function.update r'.bdBase txDesTemp (r'.bdBase txDesTemp).setFinal
          tbpir := r'.producerIndex }, result)

/-- The part of `EP_SendFrame` behind the check of the ring number. -/
def sendRequest (r : TxRing) (x : TxRequest) (context : Nat) (opt : Option TxOpt) : Option (TxRing × TxStatus) :=
  (r.sendRequestCommon x context (txDesc0 opt) (txDesc1 opt)).map fun (r', result) =>
    if result = .success then ({ r' with accepted := r'.accepted ++ [context] }, result) else (r', result)

end TxRing

/-- The transmit rings of an endpoint. -/
structure TxRings where
  txRingUse : Nat
  txBdRing : Nat → TxRing

/-- `EP_SendFrame`. -/
def TxRings.sendFrame (e : TxRings) (ring : Nat) (x : TxRequest) (context : Nat) (opt : Option TxOpt) :
    Option (TxRings × TxStatus) :=
  if ring ≥ e.txRingUse then some (e, .invalidArgument)
  else ((e.txBdRing ring).sendRequest x context opt).map fun (r, result) =>
    ({ e with txBdRing := Function.update e.txBdRing ring r }, result)

/-- The ring `r'` has the producer index, the descriptors and the producer register of `r`. -/
def TxRing.Keeps (r r' : TxRing) : Prop :=
  r'.producerIndex = r.producerIndex ∧ r'.bdBase = r.bdBase ∧ r'.tbpir = r.tbpir

/-- The call returns, and leaves every ring as it was unless it returns success. -/
def TxRings.SendsOrRejects (e : TxRings) (ring : Nat) (x : TxRequest) (context : Nat) (opt : Option TxOpt) : Prop :=
  ∃ e' result, e.sendFrame ring x context opt = some (e', result) ∧
    (result ≠ .success → ∀ k, (e.txBdRing k).Keeps (e'.txBdRing k))

section Requests

/-- The frame that a request stands for. -/
def TxRequest.Names (x : TxRequest) (frame : Frame) : Prop :=
  frame.buffArray = x.buffArray.take x.length

lemma TxRequest.exists_frame (x : TxRequest) (hpos : 0 < x.length) : ∃ frame, x.Names frame := by
  have hlength : (x.buffArray.take x.length).length = x.length := by
    rw [List.length_take, Nat.min_eq_left x.length_le]
  cases htake : x.buffArray.take x.length with
  | nil =>
    rw [htake, List.length_nil] at hlength
    omega
  | cons first rest =>
    rw [htake, List.length_cons] at hlength
    have hlt := x.length_lt
    exact ⟨{ first := first, rest := rest, length_lt := by omega }, htake.symm⟩

lemma TxRequest.Names.unique {x : TxRequest} {a b : Frame} (ha : x.Names a) (hb : x.Names b) : a = b := by
  have heq : a.first :: a.rest = b.first :: b.rest := ha.trans hb.symm
  cases a
  cases b
  cases heq
  rfl

/-- From a count of 0 on, the loop counts down from the largest one and leaves every array. -/
lemma sumLengths_none (buffers : List Buffer) : ∀ n frameLen, 0 < n → n < 2 ^ 32 → buffers.length < n →
    sumLengths buffers n frameLen = none := by
  induction buffers with
  | nil => exact fun _ _ _ _ _ => rfl
  | cons b buffers ih =>
    intro n frameLen hpos hn hlength
    rw [List.length_cons] at hlength
    have hcount : (n + (2 ^ 32 - 1)) % 2 ^ 32 = n - 1 := by omega
    rw [sumLengths, hcount, if_pos (by omega)]
    exact ih (n - 1) _ (by omega) (by omega) (by omega)

lemma sumLengths_zero (x : TxRequest) (hzero : x.length = 0) : sumLengths x.buffArray x.length 0 = none := by
  have hlt := x.array_lt
  cases harray : x.buffArray with
  | nil => rfl
  | cons b buffers =>
    rw [harray, List.length_cons] at hlt
    rw [hzero, sumLengths]
    exact sumLengths_none buffers _ _ (by omega) (by omega) (by omega)

/-- A count other than 0 sums up the first buffers. -/
lemma sumLengths_take (buffers : List Buffer) : ∀ n frameLen, 0 < n → n ≤ buffers.length → n < 2 ^ 32 →
    frameLen + ((buffers.take n).map fun b => b.length.toNat).sum < 2 ^ 32 →
    sumLengths buffers n frameLen = some (frameLen + ((buffers.take n).map fun b => b.length.toNat).sum) := by
  induction buffers with
  | nil =>
    intro n _ hpos hle
    rw [List.length_nil] at hle
    omega
  | cons b buffers ih =>
    intro n frameLen hpos hle hn hsum
    obtain ⟨n, rfl⟩ : ∃ m, n = m + 1 := ⟨n - 1, by omega⟩
    rw [List.length_cons] at hle
    rw [List.take_succ_cons, List.map_cons, List.sum_cons, ← Nat.add_assoc] at hsum ⊢
    have hcount : (n + 1 + (2 ^ 32 - 1)) % 2 ^ 32 = n := by omega
    rw [sumLengths, hcount, Nat.mod_eq_of_lt (by omega)]
    by_cases hlast : n = 0
    · simp [hlast]
    · rw [if_pos hlast]
      exact ih n _ (by omega) (by omega) (by omega) hsum

lemma sum_lengths_le (buffers : List Buffer) :
    (buffers.map fun b => b.length.toNat).sum ≤ buffers.length * (2 ^ 16 - 1) := by
  have hle : ∀ n ∈ buffers.map fun b => b.length.toNat, n ≤ 2 ^ 16 - 1 := by
    intro n hn
    obtain ⟨b, -, rfl⟩ := List.mem_map.1 hn
    have hlt := b.length.isLt
    omega
  have hsum : (buffers.map fun b => b.length.toNat).sum ≤ (buffers.map fun b => b.length.toNat).length * (2 ^ 16 - 1) :=
    List.sum_le_card_nsmul _ _ hle
  rwa [List.length_map] at hsum

/-- The sum of the lengths of a frame does not wrap. -/
lemma sumLengths_frame (x : TxRequest) (hpos : 0 < x.length) {frame : Frame} (hnames : x.Names frame) :
    sumLengths x.buffArray x.length 0 = some frame.frameLen := by
  have hlt := x.length_lt
  have hbound := sum_lengths_le (x.buffArray.take x.length)
  rw [List.length_take, Nat.min_eq_left x.length_le] at hbound
  have hprod : x.length * (2 ^ 16 - 1) ≤ (2 ^ 16 - 1) * (2 ^ 16 - 1) := Nat.mul_le_mul_right _ (by omega)
  rw [sumLengths_take _ _ _ hpos x.length_le (by omega) (by omega), Nat.zero_add, Frame.frameLen, hnames]

end Requests

/-- No check fails behind the first write. -/
def Frame.Sendable (frame : Frame) : Prop :=
  16 ≤ frame.first.length.toNat ∧ ∀ b ∈ frame.buffArray, b.buffer ≠ 0

namespace TxRing

section SendRequest

variable {frameLen context totBdNum : Nat} {txDesc0 txDesc1 : TxBd}

/-- The loop does not come to the buffers behind those of the frame. -/
lemma fill_append (behind : List Buffer) (buffers : List Buffer) : ∀ (bdIndex : Nat) (r : TxRing) (txDes : Nat),
    totBdNum ≤ bdIndex + buffers.length →
    fill frameLen context txDesc0 txDesc1 totBdNum bdIndex (buffers ++ behind) r txDes =
      fill frameLen context txDesc0 txDesc1 totBdNum bdIndex buffers r txDes := by
  induction buffers with
  | nil =>
    intro bdIndex r txDes htot
    rw [List.length_nil] at htot
    cases behind with
    | nil => rfl
    | cons b behind =>
      have hend : ¬ bdIndex < totBdNum := by omega
      simp only [List.nil_append, fill, if_neg hend]
  | cons b buffers ih =>
    intro bdIndex r txDes htot
    rw [List.length_cons] at htot
    rw [List.cons_append, fill, fill]
    dsimp only
    rw [ih _ _ _ (by omega), ih _ _ _ (by omega), ih _ _ _ (by omega)]

/-- The loop over the buffers of a frame. An extension descriptor takes a round of its own. -/
lemma fill_frame (frameLen context : Nat) (txDesc0 txDesc1 : TxBd) (frame : Frame) (behind : List Buffer) (r : TxRing) (txDes : Nat) :
    fill frameLen context txDesc0 txDesc1 (frame.totBdNum txDesc0.isExtended) 0 (frame.buffArray ++ behind) r txDes =
      fill frameLen context txDesc0 txDesc1 (frame.totBdNum txDesc0.isExtended) 0 frame.buffArray r txDes := by
  have hlength : frame.buffArray.length = frame.rest.length + 1 := rfl
  rw [show frame.buffArray = frame.first :: frame.rest from rfl, List.cons_append, fill, fill, Frame.totBdNum, hlength]
  dsimp only
  by_cases hx : txDesc0.isExtended = true
  · simp only [if_pos hx, if_true]
    rw [fill_append behind frame.rest _ _ _ (by omega)]
  · simp only [if_neg hx, if_true]
    rw [fill_append behind frame.rest _ _ _ (by omega)]

/-- A request for a frame is sent as the frame is. -/
lemma sendRequestCommon_eq (r : TxRing) (x : TxRequest) (hpos : 0 < x.length) {frame : Frame} (hnames : x.Names frame)
    (context : Nat) (txDesc0 txDesc1 : TxBd) :
    r.sendRequestCommon x context txDesc0 txDesc1 = some (r.sendFrameCommon frame context txDesc0 txDesc1) := by
  have harray : x.buffArray = frame.buffArray ++ x.buffArray.drop x.length := by
    rw [hnames, List.take_append_drop]
  have hlength : frame.buffArray.length = x.length := by
    rw [hnames, List.length_take, Nat.min_eq_left x.length_le]
  have hhead : x.buffArray.head? = some frame.first := by
    rw [harray]
    rfl
  have htot : (if txDesc0.isExtended then x.length + 1 else x.length) = frame.totBdNum txDesc0.isExtended := by
    rw [Frame.totBdNum, hlength]
  have hfill := fill_frame frame.frameLen context txDesc0 txDesc1 frame (x.buffArray.drop x.length) r r.producerIndex
  rw [← harray] at hfill
  have hresult : (frame.first.length.toNat < 16 ∨ x.length = 0) ↔ frame.first.length.toNat < 16 :=
    or_iff_left (Nat.ne_of_gt hpos)
  unfold sendRequestCommon sendFrameCommon
  rw [hhead, sumLengths_frame x hpos hnames]
  simp only [Option.bind_eq_bind, Option.bind_some, htot, hfill, hresult]
  generalize fill frame.frameLen context txDesc0 txDesc1 (frame.totBdNum txDesc0.isExtended) 0 frame.buffArray r
    r.producerIndex = result
  by_cases hlen : frame.frameLen > 9600
  · rw [if_pos hlen, if_pos hlen]
  · rw [if_neg hlen, if_neg hlen]
    by_cases hidle : frame.totBdNum txDesc0.isExtended > r.getIdleTxBDNum
    · rw [if_pos hidle, if_pos hidle]
    · rw [if_neg hidle, if_neg hidle]
      cases result with
      | error r' => rfl
      | ok last => rfl

lemma sendRequest_eq (r : TxRing) (x : TxRequest) (hpos : 0 < x.length) {frame : Frame} (hnames : x.Names frame)
    (context : Nat) (opt : Option TxOpt) : r.sendRequest x context opt = some (r.sendFrame frame context opt) := by
  rw [sendRequest, sendRequestCommon_eq r x hpos hnames]
  rfl

lemma sendRequest_zero (r : TxRing) (x : TxRequest) (hzero : x.length = 0) (context : Nat) (opt : Option TxOpt) :
    r.sendRequest x context opt = none := by
  rw [sendRequest, sendRequestCommon, sumLengths_zero x hzero]
  cases x.buffArray.head? <;> rfl

end SendRequest

section Atomic

variable {r : TxRing} {frame : Frame} {txDesc0 txDesc1 : TxBd} {context : Nat}

/-- A frame that is written changes the producer index, also if the call returns an error. -/
lemma sendFrameCommon_moves (h : Indexed r) (hext : txDesc1.opens = false ∧ txDesc1.isFinal = false)
    (hfits : Fits r frame txDesc0.isExtended) (hfirst : frame.first.buffer ≠ 0) :
    (r.sendFrameCommon frame context txDesc0 txDesc1).1.producerIndex ≠ r.producerIndex := by
  obtain ⟨r₁, head, extra, bdIndex, txDes, hfill, -, hlast, hpos, hbd, hroom, heq⟩ :=
    fill_first frame.frameLen context frame hext h (hfits.room h) hfirst
  obtain ⟨r', added, hrest, -, hresult⟩ := fill_rest frame.frameLen context txDesc0 txDesc1 frame.rest hpos hbd
    hfill.indexed hroom hlast
  have hall := hfill.trans hrest
  have hmoves : r'.producerIndex ≠ r.producerIndex := by
    intro hsame
    have hused := hall.used
    have hclean : r'.cleanIndex = r.cleanIndex := by rw [hall.same]
    rw [TxRing.used, hall.len, hclean, hsame, ← TxRing.used, List.cons_append, List.length_cons] at hused
    omega
  rw [sendFrameCommon_fits hfits, heq]
  rcases hresult with ⟨herror, -⟩ | ⟨last, hok, -⟩
  · rw [herror]
    exact hmoves
  · rw [hok]
    exact hmoves

/-- The checks before the first write reject the frame. -/
def RejectsEarly (r : TxRing) (frame : Frame) (isExtEnable : Bool) : Prop :=
  ¬ Fits r frame isExtEnable ∨ frame.first.buffer = 0

lemma sendFrameCommon_unchanged (context : Nat) (txDesc1 : TxBd) (hearly : RejectsEarly r frame txDesc0.isExtended) :
    ∃ result, r.sendFrameCommon frame context txDesc0 txDesc1 = (r, result) := by
  by_cases hfits : Fits r frame txDesc0.isExtended
  · have hnull : frame.first.buffer = 0 := hearly.resolve_left (not_not_intro hfits)
    have hpos : 0 < frame.totBdNum txDesc0.isExtended := by
      rw [Frame.totBdNum, show frame.buffArray.length = frame.rest.length + 1 from rfl]
      split <;> omega
    rw [sendFrameCommon_fits hfits, fill_null frame hnull hpos]
    exact ⟨_, rfl⟩
  · obtain ⟨result, hsend, -⟩ := sendFrameCommon_rejected context txDesc1 hfits
    exact ⟨result, hsend⟩

lemma sendFrameCommon_result (h : Indexed r) (hext : txDesc1.opens = false ∧ txDesc1.isFinal = false)
    (hfits : Fits r frame txDesc0.isExtended) :
    (r.sendFrameCommon frame context txDesc0 txDesc1).2 = .success ↔ frame.Sendable := by
  by_cases hnull : ∃ b ∈ frame.buffArray, b.buffer = 0
  · obtain ⟨r', added, hsend, -⟩ := sendFrameCommon_null context h hext hfits hnull
    obtain ⟨b, hmem, hb⟩ := hnull
    rw [hsend]
    exact iff_of_false (by simp) fun hsendable => hsendable.2 b hmem hb
  · push Not at hnull
    obtain ⟨r', init, last, head, tail, hsend, -⟩ := sendFrameCommon_submits context h hext hfits hnull
    rw [hsend, Frame.Sendable, and_iff_left hnull]
    dsimp only
    split_ifs with hshort
    · exact iff_of_false (by decide) (by omega)
    · exact iff_of_true rfl (by omega)

end Atomic

section Rings

variable {r : TxRing}

lemma sendFrame_keeps_iff (h : Indexed r) (frame : Frame) (context : Nat) (opt : Option TxOpt) :
    ((r.sendFrame frame context opt).2 ≠ .success → Keeps r (r.sendFrame frame context opt).1) ↔
      RejectsEarly r frame (txDesc0 opt).isExtended ∨ frame.Sendable := by
  have hcommon : (r.sendFrame frame context opt).2 = (r.sendFrameCommon frame context (txDesc0 opt) (txDesc1 opt)).2 ∧
      ((r.sendFrame frame context opt).2 ≠ .success → (r.sendFrame frame context opt).1 =
        (r.sendFrameCommon frame context (txDesc0 opt) (txDesc1 opt)).1) := by
    unfold sendFrame
    dsimp only
    split_ifs with hsuccess
    · exact ⟨rfl, fun hne => absurd hsuccess hne⟩
    · exact ⟨rfl, fun _ => rfl⟩
  obtain ⟨hresult, hring⟩ := hcommon
  by_cases hearly : RejectsEarly r frame (txDesc0 opt).isExtended
  · apply iff_of_true _ (.inl hearly)
    intro hne
    obtain ⟨result, hsend⟩ := sendFrameCommon_unchanged context (txDesc1 opt) hearly
    rw [hring hne, hsend]
    exact ⟨rfl, rfl, rfl⟩
  · rw [or_iff_right hearly]
    rw [RejectsEarly, not_or, not_not] at hearly
    rw [← sendFrameCommon_result h (txDesc1_plain opt) hearly.1, ← hresult]
    constructor
    · intro hkeeps
      by_contra hne
      have hproducer := (hkeeps hne).1
      rw [hring hne] at hproducer
      exact sendFrameCommon_moves h (txDesc1_plain opt) hearly.1 hearly.2 hproducer
    · exact fun hsuccess hne => absurd hsuccess hne

lemma Indexed.sendFrame (h : Indexed r) (frame : Frame) (context : Nat) (opt : Option TxOpt) :
    Indexed (r.sendFrame frame context opt).1 := by
  have hcommon : Indexed (r.sendFrameCommon frame context (txDesc0 opt) (txDesc1 opt)).1 := by
    by_cases hfits : Fits r frame (txDesc0 opt).isExtended
    · by_cases hnull : ∃ b ∈ frame.buffArray, b.buffer = 0
      · obtain ⟨r', added, hsend, hfill⟩ := sendFrameCommon_null context h (txDesc1_plain opt) hfits hnull
        rw [hsend]
        exact hfill.indexed
      · push Not at hnull
        obtain ⟨r', init, last, head, tail, hsend, hsubmit, -⟩ :=
          sendFrameCommon_submits context h (txDesc1_plain opt) hfits hnull
        rw [hsend]
        exact hsubmit.indexed
    · obtain ⟨status, hsend, -⟩ := sendFrameCommon_rejected context (txDesc1 opt) hfits
      rw [hsend]
      exact h
  unfold TxRing.sendFrame
  dsimp only
  split_ifs
  · exact ⟨hcommon.len_le, hcommon.producer_lt, hcommon.clean_lt⟩
  · exact hcommon

lemma Indexed.consume (h : Indexed r) (writeback : Option TxBd) : Indexed (r.consume writeback) := by
  unfold TxRing.consume
  dsimp only
  split_ifs
  · exact h
  · exact ⟨h.len_le, h.producer_lt, h.clean_lt⟩

lemma Indexed.getTxConsumer (h : Indexed r) (reads : List (List (Option TxBd))) : Indexed (r.getTxConsumer reads).1 := by
  cases reads with
  | nil => exact h
  | cons frames reads =>
    change Indexed (frames.foldl TxRing.consume r)
    induction frames generalizing r with
    | nil => exact h
    | cons frame frames ih => exact ih (h.consume frame)

lemma Indexed.clean (h : Indexed r) : Indexed r.clean := by
  have hclean := h.clean_lt
  refine ⟨h.len_le, h.producer_lt, ?_⟩
  change increaseIndex r.cleanIndex r.len < r.len
  rw [increaseIndex_eq h.len_le hclean]
  exact Lib.ringNext_lt hclean

lemma Indexed.reclaimLoop {enCallback : Bool} (fuel : Nat) : ∀ (cleanNum : Nat) (found : Option Nat) (r r' : TxRing)
    (reads reads' : List (List (Option TxBd))) (found' : Option Nat), Indexed r →
    TxRing.reclaimLoop enCallback fuel cleanNum found r reads = some (r', reads', found') → Indexed r' := by
  induction fuel with
  | zero =>
    intro _ _ _ _ _ _ _ _ hloop
    cases hloop
  | succ fuel ih =>
    intro cleanNum found r r' reads reads' found' h hloop
    have hnext : ∀ (found : Option Nat) (r : TxRing), Indexed r →
        (if cleanNum - 1 = 0 then
          TxRing.reclaimLoop enCallback fuel (r.getTxConsumer reads).1.dirtyNum found (r.getTxConsumer reads).1
            (r.getTxConsumer reads).2
        else TxRing.reclaimLoop enCallback fuel (cleanNum - 1) found r reads) = some (r', reads', found') →
          Indexed r' := by
      intro found r h hloop
      split at hloop
      · exact ih _ _ _ _ _ _ _ (h.getTxConsumer reads) hloop
      · exact ih _ _ _ _ _ _ _ h hloop
    unfold TxRing.reclaimLoop at hloop
    dsimp only at hloop
    split at hloop
    · cases hloop
      exact h
    · split at hloop
      · exact hnext _ _ h.clean hloop
      · split at hloop
        · cases hloop
          exact h
        · rename_i info _ _
          have hset : Indexed (r.setInfo info) := ⟨h.len_le, h.producer_lt, h.clean_lt⟩
          exact hnext _ _ hset.clean hloop

lemma Indexed.reclaimFrames (fuel : Nat) : ∀ (r r' : TxRing) (reads : List (List (Option TxBd))), Indexed r →
    TxRing.reclaimFrames fuel r reads = some r' → Indexed r' := by
  induction fuel with
  | zero =>
    intro _ _ _ _ hloop
    cases hloop
  | succ fuel ih =>
    intro r r' reads h hloop
    unfold TxRing.reclaimFrames at hloop
    split at hloop
    · cases hloop
    · rename_i hreclaim
      cases hloop
      exact Indexed.reclaimLoop _ _ _ _ _ _ _ _ (h.getTxConsumer reads) hreclaim
    · rename_i hreclaim
      have hmid := Indexed.reclaimLoop _ _ _ _ _ _ _ _ (h.getTxConsumer reads) hreclaim
      apply ih _ _ _ _ hloop
      exact ⟨hmid.len_le, hmid.producer_lt, hmid.clean_lt⟩

/-- Every event keeps the indices in the ring. -/
lemma indexed_step (r : Option TxRing) (ev : TxEvent) (h : ∀ r' ∈ r, Indexed r') :
    ∀ r' ∈ TxRing.step r ev, Indexed r' := by
  cases r with
  | none => cases ev <;> rintro r' ⟨⟩
  | some r =>
    have h : Indexed r := h r rfl
    intro r' hstep
    cases ev with
    | send frame context opt =>
      cases hstep
      exact h.sendFrame frame context opt
    | consume writeback =>
      cases hstep
      exact h.consume writeback
    | reclaim reads => exact Indexed.reclaimFrames _ _ _ _ h hstep

/-- In every run from an empty ring the indices are in the ring. -/
theorem indexed_run {len : Nat} (hpos : 0 < len) (hlen : len ≤ 2 ^ 16) (bdBase : Nat → TxBd)
    (dirtyBase : Nat → TxFrameInfo) (txfie : Bool) (events : List TxEvent) :
    ∀ r ∈ events.foldl TxRing.step (some (TxRing.init len bdBase dirtyBase txfie)), Indexed r := by
  have hinit : ∀ r ∈ some (TxRing.init len bdBase dirtyBase txfie), Indexed r := by
    rintro r ⟨⟩
    exact ⟨hlen, hpos, hpos⟩
  induction events using List.reverseRecOn with
  | nil => exact hinit
  | append_singleton events ev ih =>
    rw [List.foldl_append]
    exact indexed_step _ ev ih

end Rings

end TxRing

/-- A call of `EP_SendFrame` sends the frame, or rejects it without a trace, exactly when the ring number is out of
range, or there is a frame that is rejected before the first write or that nothing is wrong with behind it. -/
theorem TxRings.sendsOrRejects_iff (e : TxRings) (hindexed : ∀ k < e.txRingUse, (e.txBdRing k).Indexed) (ring : Nat)
    (x : TxRequest) (context : Nat) (opt : Option TxOpt) :
    e.SendsOrRejects ring x context opt ↔ e.txRingUse ≤ ring ∨
      ∃ frame, x.Names frame ∧
        ((e.txBdRing ring).RejectsEarly frame (txDesc0 opt).isExtended ∨ frame.Sendable) := by
  unfold SendsOrRejects sendFrame
  by_cases hring : e.txRingUse ≤ ring
  · rw [if_pos hring]
    exact iff_of_true ⟨e, _, rfl, fun _ k => ⟨rfl, rfl, rfl⟩⟩ (.inl hring)
  · rw [if_neg hring, or_iff_right hring]
    by_cases hzero : x.length = 0
    · -- the loop over the lengths leaves the array
      rw [TxRing.sendRequest_zero _ x hzero]
      apply iff_of_false
      · rintro ⟨e', result, hsend, -⟩
        cases hsend
      · rintro ⟨frame, hnames, -⟩
        rw [TxRequest.Names, hzero, List.take_zero] at hnames
        cases hnames
    · have hpos := Nat.pos_of_ne_zero hzero
      obtain ⟨frame, hnames⟩ := x.exists_frame hpos
      have hframe : (∃ frame, x.Names frame ∧
          ((e.txBdRing ring).RejectsEarly frame (txDesc0 opt).isExtended ∨ frame.Sendable)) ↔
          (e.txBdRing ring).RejectsEarly frame (txDesc0 opt).isExtended ∨ frame.Sendable := by
        constructor
        · rintro ⟨frame', hnames', h⟩
          exact hnames'.unique hnames ▸ h
        · exact fun h => ⟨frame, hnames, h⟩
      rw [hframe, ← TxRing.sendFrame_keeps_iff (hindexed ring (by omega)) frame context opt,
        TxRing.sendRequest_eq _ x hpos hnames context opt]
      constructor
      · rintro ⟨e', result, hsend, hkeeps⟩ hne
        cases hsend
        have hkeep := hkeeps hne ring
        dsimp only at hkeep
        rwa [Function.update_self] at hkeep
      · intro hkeep
        refine ⟨_, _, rfl, fun hne k => ?_⟩
        by_cases hk : k = ring
        · subst hk
          dsimp only
          rw [Function.update_self]
          exact hkeep hne
        · dsimp only
          rw [Function.update_of_ne hk]
          exact ⟨rfl, rfl, rfl⟩

section Inputs

lemma ringOfEight_indexed : ringOfEight.Indexed :=
  ⟨by decide, by decide, by decide⟩

/-- An endpoint that uses one ring of eight cleared descriptors. -/
def oneRing : TxRings :=
  { txRingUse := 1, txBdRing := fun _ => ringOfEight }

/-- The request for a whole array. -/
def TxRequest.ofArray (buffers : List Buffer) (h : buffers.length < 2 ^ 16) : TxRequest :=
  { buffArray := buffers
    length := buffers.length
    length_le := le_refl _
    length_lt := h
    array_lt := h.trans (by decide) }

theorem oneRing_sendsOrRejects :
    oneRing.SendsOrRejects 0 (.ofArray [{ buffer := 0x1000, length := 64 }, { buffer := 0x2000, length := 64 }] (by decide))
      7 none :=
  (oneRing.sendsOrRejects_iff (fun _ _ => ringOfEight_indexed) 0 _ 7 none).2
    (.inr ⟨⟨{ buffer := 0x1000, length := 64 }, [{ buffer := 0x2000, length := 64 }], by decide⟩, rfl,
      .inr ⟨by decide, by decide⟩⟩)

/-- The error for a first buffer of 15 bytes comes with a moved producer register. -/
theorem shortBuffer_sent :
    ¬ ∀ (e : TxRings), (∀ k < e.txRingUse, (e.txBdRing k).Indexed) →
      ∀ (ring : Nat) (x : TxRequest) (context : Nat) (opt : Option TxOpt), e.SendsOrRejects ring x context opt := by
  intro h
  obtain ⟨e', result, hsend, hkeeps⟩ := h oneRing (fun _ _ => ringOfEight_indexed) 0
    (.ofArray [{ buffer := 0x1000, length := 15 }] (by decide)) 7 none
  cases hsend
  exact absurd (hkeeps (by decide) 0).2.2 (by decide)

end Inputs

end McuxDrivers.Netc

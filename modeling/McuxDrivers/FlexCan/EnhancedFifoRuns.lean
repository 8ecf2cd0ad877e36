import McuxDrivers.FlexCan.EnhancedFifo
import McuxDrivers.Lib.Runs

/-!
# What the enhanced receive FIFO delivers

The elements that the FIFO has taken in are delivered in their order, each to the next frame of the transfer in progress,
and a transfer is reported once it has got all its frames.
-/

namespace McuxDrivers.FlexCan.EnhancedFifo
open McuxDrivers.Lib

section Copies

variable {hr : Bool}

lemma lengthField_lt (header : BitVec 32) : lengthField header < 16 := by
  unfold lengthField
  rw [BitVec.toNat_and]
  exact Nat.lt_of_le_of_lt Nat.and_le_right (by decide)

lemma payloadWords_le (header : BitVec 32) : payloadWords header ≤ 12 ∨ payloadWords header = 16 := by
  have hlt := lengthField_lt header
  unfold payloadWords dlcLengthDecode
  split_ifs <;> omega

/-- The window behind the header. -/
lemma window_add_two (e : Element) (i : Nat) :
    e.window hr (2 + i) =
      if i < payloadWords e.header then e.payload i
      else if i = payloadWords e.header then e.idhit
      else if hr ∧ i = payloadWords e.header + 1 then e.hrtimestamp
      else e.behind i := by
  rw [Nat.add_comm]
  rfl

lemma copyFrame_eq (e : Element) (frame : FrameWords) (i : Nat) :
    copyFrame hr (e.window hr) frame i =
      if i = 18 then e.window hr (2 + payloadWords e.header)
      else if hr ∧ i = 19 then e.window hr (3 + payloadWords e.header)
      else if 2 + payloadWords e.header ≤ i ∧ i < 18 then 0
      else if i < payloadWords e.header + 3 + hr.toNat then e.window hr i
      else frame i := by
  have hlength := payloadWords_le e.header
  have hhead : e.window hr 0 = e.header := rfl
  have hbit := Bool.toNat_le hr
  unfold copyFrame
  dsimp only
  rw [hhead]
  generalize payloadWords e.header = n at *
  have hfirst : 2 + (n + 3 + hr.toNat - (3 + hr.toNat)) = 2 + n := by omega
  rw [hfirst]
  rcases hlength with hshort | rfl
  · have hnext : 2 + n + 1 = 3 + n := by omega
    have hhit : 2 + n < n + 3 + hr.toNat := by omega
    rw [if_pos (show n + 3 + hr.toNat ≤ 15 + hr.toNat by omega), hnext, if_pos hhit]
    cases hr with
    | false => rfl
    | true =>
      have hstamp : 3 + n < n + 3 + true.toNat := by
        change 3 + n < n + 3 + 1
        omega
      rw [if_pos hstamp]
  · -- the longest frame needs no word moved
    rw [if_neg (show ¬ 16 + 3 + hr.toNat ≤ 15 + hr.toNat by omega), if_neg (show ¬ (2 + 16 ≤ i ∧ i < 18) by omega)]
    by_cases h18 : i = 18
    · rw [h18, if_pos (show 18 < 16 + 3 + hr.toNat by omega), if_pos rfl]
    rw [if_neg h18]
    by_cases h19 : hr = true ∧ i = 19
    · obtain ⟨rfl, rfl⟩ := h19
      rfl
    · rw [if_neg h19]

/-- The copy is the element, whatever the frame held. -/
lemma received_copyFrame (e : Element) (frame : FrameWords) :
    received hr (copyFrame hr (e.window hr) frame) = e.received hr := by
  have hlength := payloadWords_le e.header
  have hstampWord {i : Nat} (hi : i ≠ 19) : ¬ (hr = true ∧ i = 19) := fun h => hi h.2
  have hheader : copyFrame hr (e.window hr) frame 0 = e.header := by
    rw [copyFrame_eq, if_neg (by decide), if_neg (hstampWord (by decide)), if_neg (by omega), if_pos (by omega)]
    rfl
  have hid : copyFrame hr (e.window hr) frame 1 = e.id := by
    rw [copyFrame_eq, if_neg (by decide), if_neg (hstampWord (by decide)), if_neg (by omega), if_pos (by omega)]
    rfl
  have hdata {i : Nat} (hi : i < 16) :
      copyFrame hr (e.window hr) frame (2 + i) = if i < payloadWords e.header then e.payload i else 0 := by
    rw [copyFrame_eq, if_neg (by omega), if_neg (hstampWord (by omega))]
    by_cases hlt : i < payloadWords e.header
    · rw [if_neg (by omega), if_pos (by omega), window_add_two, if_pos hlt, if_pos hlt]
    · rw [if_pos (by omega), if_neg hlt]
  have hidhit : copyFrame hr (e.window hr) frame 18 = e.idhit := by
    rw [copyFrame_eq, if_pos rfl, window_add_two, if_neg (Nat.lt_irrefl _), if_pos rfl]
  have hstamp (h : hr = true) : copyFrame hr (e.window hr) frame 19 = e.hrtimestamp := by
    have hword : 3 + payloadWords e.header = 2 + (payloadWords e.header + 1) := by omega
    rw [copyFrame_eq, if_neg (by decide), if_pos ⟨h, rfl⟩, hword, window_add_two, if_neg (by omega), if_neg (by omega),
      if_pos ⟨h, rfl⟩]
  unfold received Element.received
  rw [hheader, hid, hidhit]
  congr 1
  · funext i
    by_cases hi : i < 16
    · rw [if_pos hi, hdata hi]
    · rw [if_neg hi, if_neg (by omega)]
  · by_cases h : hr = true
    · rw [if_pos h, if_pos h, hstamp h]
    · rw [if_neg h, if_neg h]

end Copies

section Logs

/-- The logs agree: what has left the FIFO and what is in it is what it has taken in, and the transfers have got what was
read. -/
structure Log (hr : Bool) (stored : List Element) (left : List (Element × Bool)) (fifo : List Element)
    (past : List (Bool × Transfer)) (current : Option Transfer) (callbacks : List Status) : Prop where
  stored_eq : stored = left.map Prod.fst ++ fifo
  delivered : (left.filter Prod.snd).map (fun e => e.1.received hr) =
    ((past.map Prod.snd ++ current.toList).flatMap Transfer.reads).map Prod.snd
  places : ∀ tr ∈ past.map Prod.snd ++ current.toList, tr.reads.map Prod.fst = List.range' tr.framefd tr.reads.length
  ended : ∀ p ∈ past, p.2.reads.length ≤ p.2.frameNum ∧ (p.1 = true → p.2.reads.length = p.2.frameNum) ∧
    (p.1 = false → p.2.reads.length < p.2.frameNum ∨ p.2.frameNum = 0)
  reported : callbacks.count .rxFifoIdle = past.countP Prod.fst
  clean : .rxFifoUnderflow ∉ callbacks ∧ .rxFifoDisabled ∉ callbacks

variable {hr : Bool} {stored fifo : List Element} {left : List (Element × Bool)} {past : List (Bool × Transfer)}
  {current : Option Transfer} {callbacks : List Status}

lemma Log.clear (h : Log hr stored left fifo past current callbacks) :
    Log hr stored (left ++ fifo.map (·, false)) [] past current callbacks where
  stored_eq := by
    rw [h.stored_eq, List.map_append, List.map_map, List.append_nil]
    congr 1
    exact (List.map_id fifo).symm
  delivered := by
    have hnone : (fifo.map (·, false)).filter Prod.snd = [] := by
      rw [List.filter_eq_nil_iff]
      intro p hp
      obtain ⟨e, -, rfl⟩ := List.mem_map.mp hp
      exact Bool.false_ne_true
    rw [List.filter_append, hnone, List.append_nil, h.delivered]
  places := h.places
  ended := h.ended
  reported := h.reported
  clean := h.clean

lemma Log.store (h : Log hr stored left fifo past current callbacks) (e : Element) :
    Log hr (stored ++ [e]) left (fifo ++ [e]) past current callbacks where
  stored_eq := by rw [h.stored_eq, List.append_assoc]
  delivered := h.delivered
  places := h.places
  ended := h.ended
  reported := h.reported
  clean := h.clean

lemma Log.start (h : Log hr stored left fifo past none callbacks) (framefd frameNum : Nat) :
    Log hr stored left fifo past (some ⟨framefd, frameNum, []⟩) callbacks where
  stored_eq := h.stored_eq
  delivered := by
    rw [h.delivered]
    simp
  places := by
    intro tr htr
    rcases List.mem_append.mp htr with htr | htr
    · exact h.places tr (List.mem_append_left _ htr)
    · rw [List.mem_singleton.mp htr]
      rfl
  ended := h.ended
  reported := h.reported
  clean := h.clean

/-- The first element goes to the next frame of the transfer. -/
lemma Log.read {e : Element} {tr : Transfer} (h : Log hr stored left (e :: fifo) past (some tr) callbacks) :
    Log hr stored (left ++ [(e, true)]) fifo past
      (some { tr with reads := tr.reads ++ [(tr.framefd + tr.reads.length, e.received hr)] }) callbacks where
  stored_eq := by
    rw [h.stored_eq, List.map_append, List.append_assoc]
    rfl
  delivered := by
    rw [List.filter_append, List.map_append, h.delivered]
    simp
  places := by
    intro tr' htr
    rcases List.mem_append.mp htr with htr | htr
    · exact h.places tr' (List.mem_append_left _ htr)
    · rw [List.mem_singleton.mp htr]
      have hplaces := h.places tr (List.mem_append_right _ (List.mem_singleton.mpr rfl))
      rw [List.map_append, hplaces, List.length_append, List.map_singleton, List.length_singleton, List.range'_1_concat]
  ended := h.ended
  reported := h.reported
  clean := h.clean

lemma Log.close {tr : Transfer} {complete : Bool} (h : Log hr stored left fifo past (some tr) callbacks)
    (hle : tr.reads.length ≤ tr.frameNum) (hfull : complete = true → tr.reads.length = tr.frameNum)
    (hlack : complete = false → tr.reads.length < tr.frameNum ∨ tr.frameNum = 0) :
    Log hr stored left fifo (past ++ [(complete, tr)]) none
      (callbacks ++ if complete then [.rxFifoIdle] else []) where
  stored_eq := h.stored_eq
  delivered := by
    rw [h.delivered]
    simp
  places := by
    intro tr' htr
    apply h.places tr'
    simpa using htr
  ended := by
    intro p hp
    rcases List.mem_append.mp hp with hp | hp
    · exact h.ended p hp
    · rw [List.mem_singleton.mp hp]
      exact ⟨hle, hfull, hlack⟩
  reported := by
    rw [List.count_append, h.reported, List.countP_append]
    cases complete <;> rfl
  clean := by
    have hclean := h.clean
    cases complete <;> simpa using hclean

/-- Reports that are neither of an end nor of an error in the calls. -/
lemma Log.report (h : Log hr stored left fifo past current callbacks) {status : Status}
    (hstatus : status = .rxFifoBusy ∨ status = .rxFifoOverflow) :
    Log hr stored left fifo past current (callbacks ++ [status]) where
  stored_eq := h.stored_eq
  delivered := h.delivered
  places := h.places
  ended := h.ended
  reported := by
    rw [List.count_append, h.reported]
    rcases hstatus with rfl | rfl <;> rfl
  clean := by
    have hclean := h.clean
    rcases hstatus with rfl | rfl <;> simpa using hclean

end Logs

/-- The transfer in progress, or none. -/
inductive Mode (t : System) : Prop
  | idle (current : t.current = none) (state : t.rxFifoState = .idle) (wmiie : t.wmiie = false) (daie : t.daie = false)
    (handling : t.handling = none)
  | running (tr : Transfer) (current : t.current = some tr) (state : t.rxFifoState = .rxFifo)
    (buf : t.rxFifoFDFrameBuf = some (tr.framefd + tr.reads.length))
    (num : tr.reads.length + t.rxFifoFrameNum = tr.frameNum)
    (rounds : ∀ left, t.handling = some left → t.erfen = true ∧ left ≤ t.fifo.length ∧ left ≤ t.rxFifoFrameNum)

structure Kept (hr : Bool) (t : System) : Prop where
  log : Log hr t.stored t.left t.fifo t.past t.current t.callbacks
  faulted : t.faulted = false
  underflow : t.erfufw = false
  flag : t.erfwmi = true → t.wmiie = true → t.erfwm < t.fifo.length
  exclusive : t.wmiie = true → t.daie = false
  disabled : t.erfen = false → t.fifo = []
  mode : Mode t

/-- Outside the handler a transfer in progress waits for frames, or it asks for none. -/
def Waits (t : System) : Prop :=
  t.handling = none → ∀ tr, t.current = some tr → 0 < t.rxFifoFrameNum ∨ tr.frameNum = 0

section Steps

variable {hr : Bool} {empty : FrameWords} {size : Nat} {t : System} {tr : Transfer}

/-- Such a transfer has not got all frames. -/
lemma Kept.lacks (h : Kept hr t) (hwaits : Waits t) (hhandling : t.handling = none) (hcurrent : t.current = some tr) :
    tr.reads.length < tr.frameNum ∨ tr.frameNum = 0 := by
  cases h.mode with
  | idle current state wmiie daie _ => exact absurd (current.symm.trans hcurrent) (by simp)
  | running tr' current state buf num rounds =>
    obtain rfl := Option.some.inj (current.symm.trans hcurrent)
    rcases hwaits hhandling _ current with hpos | hzero
    · left
      omega
    · exact .inr hzero

lemma setEnhancedRxFifoConfig_kept (h : Kept hr t) (hhandling : t.handling = none) (fifoWatermark : Option Nat) :
    Kept hr (t.setEnhancedRxFifoConfig fifoWatermark) where
  log := h.log.clear
  faulted := h.faulted
  underflow := rfl
  flag := fun hflag => absurd hflag Bool.false_ne_true
  exclusive := h.exclusive
  disabled := fun _ => rfl
  mode := by
    cases h.mode with
    | idle current state wmiie daie handling => exact .idle current state wmiie daie handling
    | running tr current state buf num rounds =>
      refine .running tr current state buf num (fun left hleft => ?_)
      rw [System.setEnhancedRxFifoConfig, hhandling] at hleft
      cases hleft

/-- A call starts with a watermark flag that is true of the FIFO, or does not enable its interrupt. -/
lemma receiveNonBlocking_kept (h : Kept hr t) (framefd frameNum : Nat)
    (hfresh : t.erfwmi = true → t.watermark ≤ frameNum → t.erfwm < t.fifo.length) :
    Kept hr (t.receiveNonBlocking framefd frameNum).2 := by
  unfold System.receiveNonBlocking
  split_ifs with hidle
  · cases h.mode with
    | idle current state wmiie daie handling =>
      have hlog := h.log
      rw [current] at hlog
      dsimp only
      rw [wmiie, daie, Bool.false_or, Bool.false_or]
      refine ⟨hlog.start framefd frameNum, h.faulted, h.underflow, ?_, ?_, h.disabled, ?_⟩
      · exact fun hflag henabled => hfresh hflag (of_decide_eq_true henabled)
      · exact fun henabled => decide_eq_false (Nat.not_lt.mpr (of_decide_eq_true henabled))
      · refine .running _ rfl rfl rfl (Nat.zero_add _) (fun left hleft => ?_)
        rw [handling] at hleft
        cases hleft
    | running tr current state buf num rounds => exact absurd (hidle.symm.trans state) (by decide)
  · exact h

lemma store_kept (h : Kept hr t) (e : Element) : Kept hr (t.store size e) := by
  unfold System.store
  split_ifs with hen hroom
  · have hlength : (t.fifo ++ [e]).length = t.fifo.length + 1 := List.length_append
    refine ⟨h.log.store e, h.faulted, h.underflow, ?_, h.exclusive, ?_, ?_⟩
    · intro hflag henabled
      have := h.flag hflag henabled
      dsimp only
      omega
    · exact fun hdisabled => absurd (hen.symm.trans hdisabled) (by decide)
    · cases h.mode with
      | idle current state wmiie daie handling => exact .idle current state wmiie daie handling
      | running tr current state buf num rounds =>
        refine .running tr current state buf num (fun left hleft => ?_)
        obtain ⟨-, hle, hnum⟩ := rounds left hleft
        refine ⟨hen, ?_, hnum⟩
        dsimp only
        omega
  · refine ⟨h.log, h.faulted, h.underflow, h.flag, h.exclusive, h.disabled, ?_⟩
    cases h.mode with
    | idle current state wmiie daie handling => exact .idle current state wmiie daie handling
    | running tr current state buf num rounds => exact .running tr current state buf num rounds
  · exact h

lemma watermark_kept (h : Kept hr t) (habove : t.erfwm < t.fifo.length) : Kept hr { t with erfwmi := true } := by
  refine ⟨h.log, h.faulted, h.underflow, fun _ _ => habove, h.exclusive, h.disabled, ?_⟩
  cases h.mode with
  | idle current state wmiie daie handling => exact .idle current state wmiie daie handling
  | running tr current state buf num rounds => exact .running tr current state buf num rounds

/-- The transfer that has got all its frames. -/
lemma complete_kept (h : Kept hr t) (hen : t.erfen = true) (hhandling : t.handling = none) (hcurrent : t.current = some tr)
    (hnum : tr.reads.length = tr.frameNum) : Kept hr t.complete := by
  have hlog := h.log
  rw [hcurrent] at hlog
  unfold System.complete System.abortReceive
  rw [if_pos hen]
  dsimp only [System.close, System.report]
  rw [hcurrent]
  refine ⟨hlog.close (Nat.le_of_eq hnum) (fun _ => hnum) nofun, h.faulted, h.underflow, ?_, ?_, h.disabled, ?_⟩
  · exact fun _ henabled => absurd henabled Bool.false_ne_true
  · exact fun henabled => absurd henabled Bool.false_ne_true
  · exact .idle rfl rfl rfl rfl hhandling

lemma abort_kept (h : Kept hr t) (hwaits : Waits t) (hen : t.erfen = true) (hhandling : t.handling = none) :
    Kept hr (t.abortReceive.close false) := by
  unfold System.abortReceive
  rw [if_pos hen]
  dsimp only [System.close]
  cases h.mode with
  | idle current state wmiie daie handling =>
    have hlog := h.log
    rw [current] at hlog ⊢
    rw [Option.toList_none, List.map_nil, List.append_nil]
    refine ⟨hlog, h.faulted, h.underflow, ?_, ?_, h.disabled, .idle rfl rfl rfl rfl hhandling⟩
    · exact fun _ henabled => absurd henabled Bool.false_ne_true
    · exact fun henabled => absurd henabled Bool.false_ne_true
  | running tr current state buf num rounds =>
    have hlog := h.log
    have hlacks := h.lacks hwaits hhandling current
    rw [current] at hlog ⊢
    have hclosed : Log hr t.stored t.left t.fifo (t.past ++ [(false, tr)]) none (t.callbacks ++ []) :=
      hlog.close (by omega) (fun hfalse => absurd hfalse Bool.false_ne_true) (fun _ => hlacks)
    rw [List.append_nil] at hclosed
    refine ⟨hclosed, h.faulted, h.underflow, ?_, ?_, h.disabled, .idle rfl rfl rfl rfl hhandling⟩
    · exact fun _ henabled => absurd henabled Bool.false_ne_true
    · exact fun henabled => absurd henabled Bool.false_ne_true

/-- The element is read into the next frame of the transfer. -/
lemma readEnhancedRxFifo_eq (empty : FrameWords) (h : Kept hr t) (hen : t.erfen = true) (hcurrent : t.current = some tr)
    (hbuf : t.rxFifoFDFrameBuf = some (tr.framefd + tr.reads.length)) {e : Element} {rest : List Element}
    (hfifo : t.fifo = e :: rest) :
    ∃ frames, t.readEnhancedRxFifo hr empty = some { t with
      fifo := rest
      frames := frames
      left := t.left ++ [(e, true)]
      current := some { tr with reads := tr.reads ++ [(tr.framefd + tr.reads.length, e.received hr)] } } := by
  unfold System.readEnhancedRxFifo
  rw [if_pos hen, hbuf]
  dsimp only
  rw [hfifo, hcurrent, h.underflow, h.faulted, List.head?_cons, Option.map_some, Option.getD_some, Option.map_some,
    received_copyFrame]
  exact ⟨_, rfl⟩

/-- The state after an element is read, with the flag of the watermark off or its interrupt disabled. -/
lemma read_kept (h : Kept hr t) (hen : t.erfen = true) (hcurrent : t.current = some tr)
    (hstate : t.rxFifoState = .rxFifo) (hnum : tr.reads.length + t.rxFifoFrameNum = tr.frameNum) {e : Element}
    {rest : List Element} (hfifo : t.fifo = e :: rest) (hpos : 0 < t.rxFifoFrameNum) (frames : Nat → FrameWords)
    {erfwmi : Bool} {handling : Option Nat} (hflag : erfwmi = true → t.wmiie = false)
    (hrounds : ∀ left, handling = some left → left ≤ rest.length ∧ left + 1 ≤ t.rxFifoFrameNum) :
    Kept hr { t with
      fifo := rest
      frames := frames
      left := t.left ++ [(e, true)]
      current := some { tr with reads := tr.reads ++ [(tr.framefd + tr.reads.length, e.received hr)] }
      rxFifoFDFrameBuf := some (tr.framefd + tr.reads.length + 1)
      rxFifoFrameNum := t.rxFifoFrameNum - 1
      erfwmi := erfwmi
      handling := handling } := by
  have hlog := h.log
  rw [hcurrent, hfifo] at hlog
  refine ⟨hlog.read, h.faulted, h.underflow, ?_, h.exclusive, ?_, ?_⟩
  · intro hset henabled
    exact absurd (henabled.symm.trans (hflag hset)) (by decide)
  · exact fun hdisabled => absurd (hen.symm.trans hdisabled) (by decide)
  · refine .running _ rfl hstate ?_ ?_ (fun left hleft => ?_)
    · dsimp only
      rw [List.length_append, List.length_singleton, Nat.add_assoc]
    · dsimp only
      rw [List.length_append, List.length_singleton]
      omega
    · obtain ⟨hle, hlt⟩ := hrounds left hleft
      exact ⟨hen, hle, Nat.le_sub_of_add_le hlt⟩

lemma report_kept (h : Kept hr t) {status : Status} (hstatus : status = .rxFifoBusy ∨ status = .rxFifoOverflow) :
    Kept hr (t.report status) := by
  refine ⟨h.log.report hstatus, h.faulted, h.underflow, h.flag, h.exclusive, h.disabled, ?_⟩
  cases h.mode with
  | idle current state wmiie daie handling => exact .idle current state wmiie daie handling
  | running tr current state buf num rounds => exact .running tr current state buf num rounds

/-- Available data is the next element of the transfer, or ends one that asks for no frame. -/
lemma dataAvailable_kept (h : Kept hr t) (hhandling : t.handling = none) (hne : t.fifo ≠ []) (hdaie : t.daie = true) :
    Kept hr (t.dataAvailable hr empty) := by
  have hen : t.erfen = true := by
    by_contra hdisabled
    exact hne (h.disabled (Bool.eq_false_iff.mpr hdisabled))
  have hwmiie : t.wmiie = false := by
    apply Bool.eq_false_iff.mpr
    intro henabled
    exact absurd (hdaie.symm.trans (h.exclusive henabled)) (by decide)
  cases h.mode with
  | idle current state wmiie daie handling => exact absurd (hdaie.symm.trans daie) (by decide)
  | running tr current state buf num rounds =>
    unfold System.dataAvailable
    by_cases hpos : 0 < t.rxFifoFrameNum
    · obtain ⟨e, rest, hfifo⟩ := List.exists_cons_of_ne_nil hne
      obtain ⟨frames, hread⟩ := readEnhancedRxFifo_eq empty h hen current buf hfifo
      have hkept := read_kept h hen current state num hfifo hpos frames (fun _ : t.erfwmi = true => hwmiie)
        (fun left hleft => absurd (hhandling.symm.trans hleft) (by simp))
      rw [if_pos hpos, hread, Option.map_some]
      dsimp only [System.advance]
      rw [buf, Option.map_some]
      split_ifs with hlast
      · refine complete_kept hkept hen hhandling rfl ?_
        dsimp only
        rw [List.length_append, List.length_singleton]
        omega
      · exact report_kept hkept (Or.inl rfl)
    · rw [if_neg hpos]
      dsimp only
      have hzero : t.rxFifoFrameNum = 0 := Nat.eq_zero_of_not_pos hpos
      rw [if_pos hzero]
      exact complete_kept h hen hhandling current (by omega)

/-- A transfer in progress, with other rounds to make. -/
lemma rounds_kept (h : Kept hr t) (hcurrent : t.current = some tr) {handling : Option Nat}
    (hrounds : ∀ left, handling = some left → t.erfen = true ∧ left ≤ t.fifo.length ∧ left ≤ t.rxFifoFrameNum) :
    Kept hr { t with handling := handling } := by
  refine ⟨h.log, h.faulted, h.underflow, h.flag, h.exclusive, h.disabled, ?_⟩
  cases h.mode with
  | idle current state wmiie daie _ => exact absurd (current.symm.trans hcurrent) (by simp)
  | running tr current state buf num _ => exact .running tr current state buf num hrounds

lemma interrupt_kept (h : Kept hr t) (hhandling : t.handling = none) : Kept hr (t.interrupt hr empty) := by
  unfold System.interrupt
  rw [if_neg (fun hflags => absurd (h.underflow.symm.trans hflags.1) (by decide))]
  by_cases hoverflow : t.erfovf = true ∧ t.ovfie = true
  · have hcleared : Kept hr { t with erfovf := false } := by
      refine ⟨h.log, h.faulted, h.underflow, h.flag, h.exclusive, h.disabled, ?_⟩
      cases h.mode with
      | idle current state wmiie daie handling => exact .idle current state wmiie daie handling
      | running tr current state buf num rounds => exact .running tr current state buf num rounds
    rw [if_pos hoverflow]
    exact report_kept hcleared (Or.inr rfl)
  rw [if_neg hoverflow]
  by_cases hwatermark : t.erfwmi = true ∧ t.wmiie = true
  · -- the flag says that the FIFO has as many elements as the loop reads
    have habove := h.flag hwatermark.1 hwatermark.2
    have hen : t.erfen = true := by
      by_contra hdisabled
      rw [h.disabled (Bool.eq_false_iff.mpr hdisabled)] at habove
      exact absurd habove (Nat.not_lt_zero _)
    rw [if_pos hwatermark]
    cases h.mode with
    | idle current state wmiie daie handling => exact absurd (hwatermark.2.symm.trans wmiie) (by decide)
    | running tr current state buf num rounds =>
      apply rounds_kept h current
      intro left hleft
      have hround : left ≤ t.erfwm + 1 ∧ left ≤ t.rxFifoFrameNum := by
        obtain rfl := Option.some.inj hleft
        unfold System.watermark
        split_ifs <;> omega
      exact ⟨hen, by omega, hround.2⟩
  rw [if_neg hwatermark]
  by_cases hdata : t.fifo ≠ [] ∧ t.daie = true
  · rw [if_pos hdata]
    exact dataAvailable_kept h hhandling hdata.1 hdata.2
  · rw [if_neg hdata]
    exact h

lemma afterLoop_kept (h : Kept hr t) (hen : t.erfen = true) (hhandling : t.handling = none)
    (hcurrent : t.current = some tr) : Kept hr t.afterLoop := by
  have hmode := h.mode
  cases hmode with
  | idle current state wmiie daie _ => exact absurd (current.symm.trans hcurrent) (by simp)
  | running tr current state buf num rounds =>
    unfold System.afterLoop
    split_ifs with hlast hfew
    · exact complete_kept h hen hhandling current (by omega)
    · have hswitched : Kept hr { t with wmiie := false, daie := true } := by
        refine ⟨h.log, h.faulted, h.underflow, ?_, ?_, h.disabled, .running tr current state buf num rounds⟩
        · exact fun _ henabled => absurd henabled Bool.false_ne_true
        · exact fun henabled => absurd henabled Bool.false_ne_true
      exact report_kept hswitched (Or.inl rfl)
    · exact report_kept h (Or.inl rfl)

lemma proceed_kept (h : Kept hr t) : Kept hr (t.proceed hr empty) := by
  unfold System.proceed
  cases hhandling : t.handling with
  | none => exact h
  | some left =>
    have hmode := h.mode
    cases hmode with
    | idle current state wmiie daie handling => exact absurd (handling.symm.trans hhandling) (by simp)
    | running tr current state buf num rounds =>
      obtain ⟨hen, hlength, hle⟩ := rounds left hhandling
      cases left with
      | zero =>
        have hdone : Kept hr { t with handling := none } :=
          rounds_kept h current (fun left hleft => absurd hleft (by simp))
        exact afterLoop_kept hdone hen rfl current
      | succ left =>
        obtain ⟨e, rest, hfifo⟩ := List.exists_cons_of_length_pos (Nat.lt_of_lt_of_le (Nat.succ_pos left) hlength)
        obtain ⟨frames, hread⟩ := readEnhancedRxFifo_eq empty h hen current buf hfifo
        dsimp only
        rw [hread]
        dsimp only [System.advance]
        rw [buf, Option.map_some]
        rw [hfifo, List.length_cons] at hlength
        apply read_kept h hen current state num hfifo (by omega) frames
        · exact fun hset => absurd hset Bool.false_ne_true
        · intro left' hleft
          obtain rfl := Option.some.inj hleft
          exact ⟨by omega, hle⟩

lemma dataAvailable_waits (hhandling : t.handling = none) (hwaits : Waits t) : Waits (t.dataAvailable hr empty) := by
  unfold System.dataAvailable
  split
  next t' _ =>
    split
    next => exact fun _ tr hcurrent => nomatch hcurrent
    next hmore => exact fun _ tr _ => .inl (Nat.pos_of_ne_zero hmore)
  next => exact fun _ tr hcurrent => hwaits hhandling tr hcurrent

lemma interrupt_waits (hhandling : t.handling = none) (hwaits : Waits t) : Waits (t.interrupt hr empty) := by
  unfold System.interrupt
  by_cases hunderflow : t.erfufw = true ∧ t.ufwie = true
  · rw [if_pos hunderflow]
    exact hwaits
  rw [if_neg hunderflow]
  by_cases hoverflow : t.erfovf = true ∧ t.ovfie = true
  · rw [if_pos hoverflow]
    exact hwaits
  rw [if_neg hoverflow]
  by_cases hwatermark : t.erfwmi = true ∧ t.wmiie = true
  · rw [if_pos hwatermark]
    exact fun hnone => nomatch hnone
  rw [if_neg hwatermark]
  split
  · exact dataAvailable_waits hhandling hwaits
  · exact hwaits

lemma afterLoop_waits (t : System) : Waits t.afterLoop := by
  unfold System.afterLoop
  split_ifs with hzero
  · exact fun _ tr hcurrent => nomatch hcurrent
  · exact fun _ tr _ => .inl (Nat.pos_of_ne_zero hzero)
  · exact fun _ tr _ => .inl (Nat.pos_of_ne_zero hzero)

lemma proceed_waits (h : Kept hr t) (hwaits : Waits t) : Waits (t.proceed hr empty) := by
  unfold System.proceed
  cases hhandling : t.handling with
  | none => exact hwaits
  | some left =>
    cases left with
    | zero => exact afterLoop_waits _
    | succ left =>
      cases h.mode with
      | idle current state wmiie daie handling => exact absurd (handling.symm.trans hhandling) (by simp)
      | running tr current state buf num rounds =>
        obtain ⟨hen, hlength, -⟩ := rounds _ hhandling
        obtain ⟨e, rest, hfifo⟩ := List.exists_cons_of_length_pos (Nat.lt_of_lt_of_le (Nat.succ_pos left) hlength)
        obtain ⟨frames, hread⟩ := readEnhancedRxFifo_eq empty h hen current buf hfifo
        dsimp only
        rw [hread]
        exact fun hnone => absurd hnone (by simp)

end Steps

/-- The FIFO is not disabled when a transfer is aborted, and a call that waits for the watermark does not start with a flag
from before. -/
def Orderly (t : System) : Event → Prop
  | .abort => t.erfen = true
  | .receive _ frameNum => t.erfwmi = true → t.watermark ≤ frameNum → t.erfwm < t.fifo.length
  | _ => True

section Runs

variable {hr : Bool} {empty : FrameWords} {size : Nat} {t : System}

lemma step_waits (h : Kept hr t) (hwaits : Waits t) (e : Event) : Waits (step hr empty size t e) := by
  cases e with
  | configure fifoWatermark =>
    unfold step
    dsimp only
    split_ifs <;> exact hwaits
  | receive framefd frameNum =>
    unfold step System.receiveNonBlocking
    dsimp only
    split_ifs
    · intro _ tr hcurrent
      obtain rfl := Option.some.inj hcurrent
      exact (Nat.eq_zero_or_pos frameNum).symm
    · exact hwaits
    · exact hwaits
  | abort =>
    unfold step
    dsimp only
    split_ifs
    · intro _ tr hcurrent
      cases hcurrent
    · exact hwaits
  | store e =>
    unfold step System.store
    dsimp only
    split_ifs <;> exact hwaits
  | watermark =>
    unfold step
    dsimp only
    split_ifs <;> exact hwaits
  | interrupt =>
    unfold step
    dsimp only
    split_ifs with hhandling
    · exact interrupt_waits hhandling hwaits
    · exact hwaits
  | proceed => exact proceed_waits h hwaits

lemma step_kept (h : Kept hr t) (hwaits : Waits t) {e : Event} (horderly : Orderly t e) : Kept hr (step hr empty size t e) := by
  cases e with
  | configure fifoWatermark =>
    unfold step
    dsimp only
    split_ifs with hhandling
    · exact setEnhancedRxFifoConfig_kept h hhandling fifoWatermark
    · exact h
  | receive framefd frameNum =>
    unfold step
    dsimp only
    split_ifs
    · exact receiveNonBlocking_kept h framefd frameNum horderly
    · exact h
  | abort =>
    unfold step
    dsimp only
    split_ifs with hhandling
    · exact abort_kept h hwaits horderly hhandling
    · exact h
  | store e => exact store_kept h e
  | watermark =>
    unfold step
    dsimp only
    split_ifs with habove
    · exact watermark_kept h habove
    · exact h
  | interrupt =>
    unfold step
    dsimp only
    split_ifs with hhandling
    · exact interrupt_kept h hhandling
    · exact h
  | proceed => exact proceed_kept h

end Runs

/-- In every orderly run the driver reads no empty FIFO. The elements that the FIFO has taken in and that no reconfiguration
has thrown away are delivered in their order, to the frames of the transfers one after the other; a transfer gets no more
frames than it asks for, each that is reported has got all of them, and no other has: not one that was aborted, nor the one
in progress when the handler has returned. -/
theorem fifo_delivers {hr : Bool} {empty : FrameWords} {size : Nat} {frames : Nat → FrameWords} {events : List Event}
    (hrun : EachStep (step hr empty size) Orderly (System.start frames) events) :
    let t := events.foldl (step hr empty size) (System.start frames)
    let transfers := t.past.map Prod.snd ++ t.current.toList
    t.faulted = false ∧ t.stored = t.left.map Prod.fst ++ t.fifo ∧
      (t.left.filter Prod.snd).map (fun e => e.1.received hr) = (transfers.flatMap Transfer.reads).map Prod.snd ∧
      (∀ tr ∈ transfers, tr.reads.length ≤ tr.frameNum ∧
        tr.reads.map Prod.fst = List.range' tr.framefd tr.reads.length) ∧
      (∀ tr, (true, tr) ∈ t.past → tr.reads.length = tr.frameNum) ∧
      (∀ tr, (false, tr) ∈ t.past → tr.reads.length < tr.frameNum ∨ tr.frameNum = 0) ∧
      (t.handling = none → ∀ tr, t.current = some tr → tr.reads.length < tr.frameNum ∨ tr.frameNum = 0) ∧
      t.callbacks.count .rxFifoIdle = t.past.countP Prod.fst ∧
      .rxFifoUnderflow ∉ t.callbacks ∧ .rxFifoDisabled ∉ t.callbacks := by
  intro t transfers
  have hstart : Kept hr (System.start frames) := by
    refine ⟨⟨rfl, rfl, ?_, ?_, rfl, ?_⟩, rfl, rfl, ?_, ?_, fun _ => rfl, .idle rfl rfl rfl rfl rfl⟩
    · exact fun tr htr => absurd htr List.not_mem_nil
    · exact fun p hp => absurd hp List.not_mem_nil
    · exact ⟨List.not_mem_nil, List.not_mem_nil⟩
    · exact fun _ henabled => absurd henabled Bool.false_ne_true
    · exact fun henabled => absurd henabled Bool.false_ne_true
  have hinvariant : Kept hr t ∧ Waits t := by
    refine hrun.invariant (I := fun t => Kept hr t ∧ Waits t) ?_ events ⟨hstart, fun _ tr hcurrent => nomatch hcurrent⟩
    exact fun t e ⟨hkept, hwaits⟩ horderly => ⟨step_kept hkept hwaits horderly, step_waits hkept hwaits e⟩
  obtain ⟨h, hwaits⟩ := hinvariant
  refine ⟨h.faulted, h.log.stored_eq, h.log.delivered, ?_, ?_, ?_, ?_, h.log.reported, h.log.clean⟩
  · intro tr htr
    refine ⟨?_, h.log.places tr htr⟩
    rcases List.mem_append.mp htr with hpast | hcurrent
    · obtain ⟨p, hp, rfl⟩ := List.mem_map.mp hpast
      exact (h.log.ended p hp).1
    · cases h.mode with
      | idle current state wmiie daie handling =>
        rw [current] at hcurrent
        cases hcurrent
      | running tr' current state buf num rounds =>
        rw [current] at hcurrent
        obtain rfl := List.mem_singleton.mp hcurrent
        omega
  · exact fun tr htr => (h.log.ended _ htr).2.1 rfl
  · exact fun tr htr => (h.log.ended _ htr).2.2 rfl
  · exact fun hhandling tr hcurrent => h.lacks hwaits hhandling hcurrent

/-- An element of four bytes. -/
def shortElement (word : BitVec 32) : Element where
  header := 0x40000
  id := 0x123
  payload := fun _ => word
  idhit := 7
  hrtimestamp := 0
  behind := fun _ => 0

/-- Three frames with a watermark of two: two of them in one loop, the last when it comes. -/
theorem fifo_delivers_three :
    let events := [.configure (some 1), .receive 0 3, .store (shortElement 1), .store (shortElement 2), .watermark,
      .interrupt, .proceed, .proceed, .proceed, .store (shortElement 3), .interrupt]
    (events.foldl (step false (fun _ => 0) 6) (System.start fun _ _ => 0)).faulted = false := by
  intro events
  have hrun : EachStep (step false (fun _ => 0) 6) Orderly (System.start fun _ _ => 0) events :=
    ⟨trivial, fun hflag => absurd hflag Bool.false_ne_true, trivial, trivial, trivial, trivial, trivial, trivial, trivial,
      trivial, trivial, trivial⟩
  exact (fifo_delivers hrun).1

-- a flag of the watermark from before: the second transfer reads two elements where there is one
example : (([.configure (some 1), .receive 0 1, .store (shortElement 1), .store (shortElement 2), .watermark, .interrupt,
    .receive 5 2, .interrupt, .proceed, .proceed] : List Event).foldl (step false (fun _ => 0) 6)
      (System.start fun _ _ => 0)).faulted = true := by
  decide

end McuxDrivers.FlexCan.EnhancedFifo

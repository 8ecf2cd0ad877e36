import McuxDrivers.FlexCan.Transfers
import McuxDrivers.Lib.Runs

/-!
# What the callbacks report

A transfer that sends ends with `kStatus_FLEXCAN_TxIdle` after the bus has seen its frame, unless an earlier transfer was
aborted between the end of its transmission and the interrupt. What is delivered to the application has been received, in
this order and once.
-/

namespace McuxDrivers.FlexCan.Transfers
open McuxDrivers.Lib

section Writes

variable {mem : Nat → BitVec 32} {writes : List Write} {a : Nat}

lemma applyWrites_cons (w : Write) :
    applyWrites mem (w :: writes) = applyWrites (Function.update mem w.1 w.2) writes :=
  rfl

lemma applyWrites_other (h : ∀ w ∈ writes, w.1 ≠ a) : applyWrites mem writes a = mem a := by
  induction writes generalizing mem with
  | nil => rfl
  | cons w writes ih =>
    rw [applyWrites_cons]
    refine (ih (fun v hv => h v (List.mem_cons_of_mem _ hv))).trans ?_
    exact Function.update_of_ne (h w List.mem_cons_self).symm _ _

lemma applyWrites_append (writes' : List Write) :
    applyWrites mem (writes ++ writes') = applyWrites (applyWrites mem writes) writes' :=
  List.foldl_append

lemma applyWrites_written {w : Write} (hnodup : (writes.map Prod.fst).Nodup) (hw : w ∈ writes) :
    applyWrites mem writes w.1 = w.2 := by
  induction writes generalizing mem with
  | nil => exact absurd hw List.not_mem_nil
  | cons v writes ih =>
    rw [List.map_cons, List.nodup_cons] at hnodup
    rw [applyWrites_cons]
    rcases List.mem_cons.mp hw with rfl | hw
    · refine (applyWrites_other (fun v hv heq => hnodup.1 ?_)).trans (Function.update_self _ _ _)
      exact heq ▸ List.mem_map_of_mem hv
    · exact ih hnodup.2 hw

variable {L : CsLayout} {s : MbSize} {mbIdx : Nat} {f : FdFrame}

/-- After the call the buffer asks the controller to send the frame. -/
lemma applyWrites_writeFDTxMb (h : writeFDTxMb L s mbIdx (mem (s.mailboxOffset mbIdx)) f = some writes) :
    L.code.get (applyWrites mem writes (s.mailboxOffset mbIdx)) = txMbDataOrRemote ∧
      shownFrame L s mbIdx (applyWrites mem writes) = f.trim s := by
  unfold writeFDTxMb at h
  split_ifs at h with hcode
  obtain rfl := Option.some.inj h
  rw [applyWrites_cons, applyWrites_append]
  have hcs (mem' : Nat → BitVec 32) : applyWrites mem' [(s.mailboxOffset mbIdx, txCs L f)] (s.mailboxOffset mbIdx) =
      txCs L f := Function.update_self _ _ _
  refine ⟨?_, shownFrame_eq (hcs _) (fun w hw => ?_)⟩
  · rw [hcs]
    exact get_txCs.1
  · rw [applyWrites_other (fun v hv => ?_)]
    · exact applyWrites_written fillWrites_nodup hw
    · rw [List.mem_singleton.mp hv]
      exact (mem_fillWrites hw).1.ne

lemma writeFDTxMb_inMailbox {cs : BitVec 32} (h : writeFDTxMb L s mbIdx cs f = some writes) :
    ∀ w ∈ writes, s.InMailbox mbIdx w.1 := by
  unfold writeFDTxMb at h
  split_ifs at h with hcode
  obtain rfl := Option.some.inj h
  intro w hw
  rcases List.mem_cons.mp hw with rfl | hw
  · exact inMailbox_offset mbIdx
  · rcases List.mem_append.mp hw with hw | hw
    · exact (mem_fillWrites hw).2
    · rw [List.mem_singleton.mp hw]
      exact inMailbox_offset mbIdx

/-- A buffer that is not in use accepts a frame. -/
lemma writeFDTxMb_isSome (h : Inactive L s mbIdx mem) (f : FdFrame) :
    ∃ writes, writeFDTxMb L s mbIdx (mem (s.mailboxOffset mbIdx)) f = some writes := by
  unfold writeFDTxMb
  rw [if_pos (mt inUse_iff.mp h)]
  exact ⟨_, rfl⟩

lemma inactive_setFDTxMbConfig (enable : Bool) :
    Inactive L s mbIdx (applyWrites mem (setFDTxMbConfig L s mbIdx enable)) := by
  have hharmless : Harmless L s mbIdx (setFDTxMbConfig L s mbIdx enable) := setFDTxMbConfig_harmless enable
  have hoff : applyWrites mem (setFDTxMbConfig L s mbIdx enable) (s.mailboxOffset mbIdx) =
      if enable then L.code.put txMbInactive else 0 :=
    (applyWrites_other (fun w hw => (mem_cleanWrites hw).1.ne')).trans (Function.update_self _ _ _)
  unfold Inactive
  rw [hoff]
  exact (hharmless _ List.mem_cons_self).2 rfl

end Writes

/-- The buffer holds a frame that can be read. -/
def Readable (L : CsLayout) (s : MbSize) (mbIdx : Nat) (mem : Nat → BitVec 32) : Prop :=
  L.code.get (mem (s.mailboxOffset mbIdx)) = rxMbFull ∨ L.code.get (mem (s.mailboxOffset mbIdx)) = rxMbOverrun

/-- The handler has still to clear the flag of the buffer. -/
def System.Mine (t : System) (mbIdx : Nat) : Prop :=
  ∃ status, t.handling = some (mbIdx, status)

section Invariants

variable (L : CsLayout) (s : MbSize) (mbIdx : Nat) (mem : Nat → BitVec 32) (b : Box) (mine : Prop)

/-- A buffer for sending. -/
inductive TxBox : Prop
  | idle (state : b.mbState = .idle) (mask : b.imask = false) (inactive : Inactive L s mbIdx mem)
    (flag : b.iflag = true → mine) (reported : b.sent = b.reported.map (FdFrame.trim s))
  | active (f : FdFrame) (state : b.mbState = .txData) (sending : b.sending = some f)
    (active : L.code.get (mem (s.mailboxOffset mbIdx)) = txMbDataOrRemote)
    (shown : shownFrame L s mbIdx mem = f.trim s) (flag : b.iflag = false) (notMine : ¬ mine)
    (reported : b.sent = b.reported.map (FdFrame.trim s))
  | done (f : FdFrame) (state : b.mbState = .txData) (sending : b.sending = some f) (inactive : Inactive L s mbIdx mem)
    (flag : b.iflag = true) (notMine : ¬ mine) (reported : b.sent = (b.reported ++ [f]).map (FdFrame.trim s))

/-- A buffer for reception: the call in progress has a buffer of the application that is not filled yet, and the flag of
the message buffer says that its frame is not delivered yet. -/
structure RxBox : Prop where
  state : b.mbState = .idle ∨ b.mbState = .rxData
  idle : b.mbState = .idle → (b.delivered.map Prod.fst).Sublist b.requested
  request : b.mbState = .rxData → ∃ before buffer, b.requested = before ++ [buffer] ∧ b.mbFDFrameBuf = some buffer ∧
    (b.delivered.map Prod.fst).Sublist before
  frames : (b.delivered.map Prod.snd).Sublist b.received
  fresh : b.iflag = true → ¬ mine → Readable L s mbIdx mem →
    ∃ before, b.received = before ++ [shownFrame L s mbIdx mem] ∧ (b.delivered.map Prod.snd).Sublist before

end Invariants

/-- Nothing of the message buffer has changed. -/
structure Same (s : MbSize) (t t' : System) (j : Nat) : Prop where
  mem : ∀ a, s.InMailbox j a → t'.mem a = t.mem a
  box : t'.box j = t.box j
  mine : t'.Mine j ↔ t.Mine j

section Elsewhere

variable {L : CsLayout} {s : MbSize} {t t' t'' : System} {i j : Nat}

lemma Same.refl (t : System) (j : Nat) : Same s t t j :=
  ⟨fun _ _ => rfl, rfl, Iff.rfl⟩

lemma Same.trans (h : Same s t t' j) (h' : Same s t' t'' j) : Same s t t'' j :=
  ⟨fun a ha => (h'.mem a ha).trans (h.mem a ha), h'.box.trans h.box, h'.mine.trans h.mine⟩

lemma same_update (hj : j ≠ i) (b : Box) : Same s t (t.update i b) j :=
  ⟨fun _ _ => rfl, Function.update_of_ne hj _ _, Iff.rfl⟩

/-- Writes to another message buffer. -/
lemma same_writes (hj : j ≠ i) {writes : List Write} (h : ∀ w ∈ writes, s.InMailbox i w.1) :
    Same s t { t with mem := applyWrites t.mem writes } j := by
  refine ⟨fun a ha => applyWrites_other (fun w hw heq => ?_), rfl, Iff.rfl⟩
  exact hj (inMailbox_unique ha (heq ▸ h w hw))

lemma same_abortSend (hj : j ≠ i) : Same s t (t.abortSend L s i) j :=
  (same_writes hj (fun w hw => (setFDTxMbConfig_harmless true w hw).1)).trans (same_update hj _)

lemma same_abortReceive (hj : j ≠ i) : Same s t (t.abortReceive i) j :=
  same_update hj _

lemma same_sendNonBlocking (hj : j ≠ i) (f : FdFrame) : Same s t (t.sendNonBlocking L s i f).2 j := by
  unfold System.sendNonBlocking
  dsimp only
  split_ifs
  · cases hwrite : writeFDTxMb L s i (t.mem (s.mailboxOffset i)) f with
    | none => exact same_update hj _
    | some writes => exact (same_writes hj (writeFDTxMb_inMailbox hwrite)).trans (same_update hj _)
  · exact Same.refl t j

lemma same_receiveNonBlocking (hj : j ≠ i) (buffer : Nat) : Same s t (t.receiveNonBlocking i buffer).2 j := by
  unfold System.receiveNonBlocking
  dsimp only
  split_ifs
  · exact same_update hj _
  · exact Same.refl t j

lemma same_handleRxData (hj : j ≠ i) : Same s t (t.handleRxData L s i).2 j := by
  unfold System.handleRxData
  dsimp only
  split
  · exact (same_update hj _).trans (same_abortReceive hj)
  · exact same_abortReceive hj

lemma same_subHandlerForMB (hj : j ≠ i) : Same s t (t.subHandlerForMB L s i).2 j := by
  unfold System.subHandlerForMB
  dsimp only
  cases (t.box i).mbState with
  | rxData => exact same_handleRxData hj
  | rxRemote => exact same_abortReceive hj
  | txData => exact (same_update hj _).trans (same_abortSend hj)
  | txRemote => exact same_update hj _
  | idle => exact Same.refl t j

lemma same_acknowledge (h : ¬ t.Mine j) : Same s t t.acknowledge j := by
  unfold System.acknowledge
  cases hhandling : t.handling with
  | none => exact Same.refl t j
  | some r =>
    obtain ⟨result, status⟩ := r
    have hj : j ≠ result := by
      rintro rfl
      exact h ⟨status, hhandling⟩
    refine ⟨fun _ _ => rfl, Function.update_of_ne hj _ _, ?_⟩
    constructor
    · rintro ⟨status', heq⟩
      cases heq
    · intro hmine
      exact absurd hmine h

variable {b : Box} {mine mine' : Prop} {mem mem' : Nat → BitVec 32}

lemma inactive_congr (hmem : ∀ a, s.InMailbox i a → mem' a = mem a) (h : Inactive L s i mem) : Inactive L s i mem' := by
  unfold Inactive
  rwa [hmem _ (inMailbox_offset i)]

lemma shownFrame_congr (hmem : ∀ a, s.InMailbox i a → mem' a = mem a) :
    shownFrame L s i mem' = shownFrame L s i mem := by
  unfold shownFrame
  dsimp only
  rw [hmem _ (inMailbox_offset i), hmem (s.mailboxOffset i + 1) ⟨by omega, by omega⟩]
  congr 1
  funext cnt
  split_ifs with hcnt
  · exact hmem _ ⟨by omega, by omega⟩
  · rfl

lemma TxBox.congr (h : TxBox L s i mem b mine) (hmem : ∀ a, s.InMailbox i a → mem' a = mem a) (hmine : mine' ↔ mine) :
    TxBox L s i mem' b mine' := by
  cases h with
  | idle state mask inactive flag reported =>
    exact .idle state mask (inactive_congr hmem inactive) (fun hf => hmine.mpr (flag hf)) reported
  | active f state sending active shown flag notMine reported =>
    refine .active f state sending ?_ ((shownFrame_congr hmem).trans shown) flag (mt hmine.mp notMine) reported
    rwa [hmem _ (inMailbox_offset i)]
  | done f state sending inactive flag notMine reported =>
    exact .done f state sending (inactive_congr hmem inactive) flag (mt hmine.mp notMine) reported

lemma RxBox.congr (h : RxBox L s i mem b mine) (hmem : ∀ a, s.InMailbox i a → mem' a = mem a) (hmine : mine' ↔ mine) :
    RxBox L s i mem' b mine' where
  state := h.state
  idle := h.idle
  request := h.request
  frames := h.frames
  fresh hflag hnot hread := by
    rw [shownFrame_congr hmem]
    refine h.fresh hflag (mt hmine.mpr hnot) ?_
    unfold Readable at hread
    rwa [hmem _ (inMailbox_offset i)] at hread

end Elsewhere

section Choice

variable {flag : Nat → Bool} {mbCount : Nat}

lemma lowestBit_some {count j result : Nat} (h : System.lowestBit flag count j = some result) : flag result = true := by
  induction count generalizing j with
  | zero => cases h
  | succ count ih =>
    unfold System.lowestBit at h
    split_ifs at h with hflag
    · rwa [← Option.some.inj h]
    · exact ih h

/-- The handler chooses a message buffer whose flag is set and enabled. -/
lemma chooseResult_some {k result : Nat} (h : System.chooseResult flag mbCount k = some result) :
    flag result = true := by
  induction k with
  | zero => cases h
  | succ k ih =>
    unfold System.chooseResult at h
    cases hlow : System.lowestBit flag (System.wordBits mbCount k) (32 * k) with
    | none =>
      rw [hlow] at h
      exact ih h
    | some r =>
      rw [hlow] at h
      rw [← Option.some.inj h]
      exact lowestBit_some hlow

end Choice

section Target

variable {L : CsLayout} {s : MbSize} {mbCount : Nat} {tx : Nat → Bool} {t : System} {i j : Nat}

/-- The message buffer that an event is about. -/
def target (mbCount : Nat) (t : System) : Event → Option Nat
  | .send i _ => some i
  | .receive i _ => some i
  | .abortSend i => some i
  | .abortReceive i => some i
  | .listen i _ => some i
  | .interrupt => System.chooseResult (fun j => (t.box j).imask && (t.box j).iflag) mbCount ((mbCount - 1) / 32 + 1)
  | .acknowledge => t.handling.map Prod.fst
  | .transmit i _ => some i
  | .store i _ => some i

lemma same_handleIRQ (h : t.handling = none) (hj : target mbCount t .interrupt ≠ some j) :
    Same s t (t.handleIRQ L s mbCount) j := by
  unfold System.handleIRQ
  dsimp only [target] at hj
  cases hchoice : System.chooseResult (fun j => (t.box j).imask && (t.box j).iflag) mbCount ((mbCount - 1) / 32 + 1) with
  | none => exact ⟨fun _ _ => rfl, rfl, Iff.rfl⟩
  | some result =>
    rw [hchoice] at hj
    have hne : j ≠ result := fun heq => hj (congrArg some heq.symm)
    have hsame : Same s t (t.subHandlerForMB L s result).2 j := same_subHandlerForMB hne
    refine ⟨hsame.mem, hsame.box, ?_⟩
    constructor
    · rintro ⟨status, heq⟩
      exact absurd (congrArg Prod.fst (Option.some.inj heq)).symm hne
    · rintro ⟨status, heq⟩
      rw [h] at heq
      cases heq

/-- An event changes the message buffer that it is about, and no other. -/
lemma step_same {e : Event} (hj : target mbCount t e ≠ some j) : Same s t (step L s mbCount tx t e) j := by
  have hne {i : Nat} (h : some i ≠ some j) : j ≠ i := fun heq => h (congrArg some heq.symm)
  cases e with
  | send i f =>
    unfold step
    dsimp only
    split_ifs
    · exact same_sendNonBlocking (hne hj) f
    · exact Same.refl t j
  | receive i buffer =>
    unfold step
    dsimp only
    split_ifs
    · exact same_receiveNonBlocking (hne hj) buffer
    · exact Same.refl t j
  | abortSend i =>
    unfold step
    dsimp only
    split_ifs
    · exact same_abortSend (hne hj)
    · exact Same.refl t j
  | abortReceive i =>
    unfold step
    dsimp only
    split_ifs
    · exact same_abortReceive (hne hj)
    · exact Same.refl t j
  | listen i config =>
    unfold step
    dsimp only
    split_ifs
    · exact same_writes (hne hj) (fun w hw => setFDRxMbConfig_inMailbox hw)
    · exact Same.refl t j
  | interrupt =>
    unfold step
    dsimp only
    split_ifs with h
    · exact same_handleIRQ h hj
    · exact Same.refl t j
  | acknowledge =>
    apply same_acknowledge
    rintro ⟨status, h⟩
    exact hj (congrArg (Option.map Prod.fst) h)
  | transmit i cs =>
    unfold step
    dsimp only
    split_ifs
    · refine ⟨fun a ha => ?_, Function.update_of_ne (hne hj) _ _, Iff.rfl⟩
      exact mem_update_other cs (inMailbox_offset i) j (hne hj) a ha
    · exact Same.refl t j
  | store i content =>
    unfold step
    dsimp only
    split_ifs
    · refine ⟨fun a ha => ?_, Function.update_of_ne (hne hj) _ _, Iff.rfl⟩
      exact if_neg (fun hi => hne hj (inMailbox_unique ha hi))
    · exact Same.refl t j

end Target

section Sending

variable {L : CsLayout} {s : MbSize} {mbCount : Nat} {tx : Nat → Bool} {t : System} {i : Nat}

/-- What is known of a message buffer for sending. -/
abbrev System.TxKept (L : CsLayout) (s : MbSize) (t : System) (i : Nat) : Prop :=
  TxBox L s i t.mem (t.box i) (t.Mine i)

lemma not_mine (h : t.handling = none) : ¬ t.Mine i := by
  rintro ⟨status, heq⟩
  rw [h] at heq
  cases heq

lemma sendNonBlocking_kept (h : t.TxKept L s i) (hhandling : t.handling = none) (f : FdFrame) :
    (t.sendNonBlocking L s i f).2.TxKept L s i := by
  cases h with
  | idle state mask inactive flag reported =>
    obtain ⟨writes, hwrites⟩ := writeFDTxMb_isSome inactive f
    obtain ⟨hcode, hshown⟩ := applyWrites_writeFDTxMb hwrites
    have hflag : (t.box i).iflag = false := Bool.eq_false_iff.mpr (fun hset => not_mine hhandling (flag hset))
    unfold System.sendNonBlocking
    dsimp only
    rw [if_pos state, hwrites]
    refine .active f ?_ ?_ hcode hshown ?_ (not_mine hhandling) ?_
    all_goals
      dsimp only [System.update]
      rw [Function.update_self]
    · exact hflag
    · exact reported
  | active f' state sending active shown flag notMine reported =>
    unfold System.sendNonBlocking
    dsimp only
    rw [if_neg (by rw [state]; decide)]
    exact .active f' state sending active shown flag notMine reported
  | done f' state sending inactive flag notMine reported =>
    unfold System.sendNonBlocking
    dsimp only
    rw [if_neg (by rw [state]; decide)]
    exact .done f' state sending inactive flag notMine reported

/-- An abort, when all that the bus has seen is reported. -/
lemma abortSend_idle {reported : List FdFrame} (hreported : (t.box i).sent = reported.map (FdFrame.trim s))
    (heq : (t.box i).reported = reported) {mine : Prop} (hflag : (t.box i).iflag = true → mine) :
    TxBox L s i (t.abortSend L s i).mem ((t.abortSend L s i).box i) mine := by
  have hbox : (t.abortSend L s i).box i = { t.box i with
      imask := false
      timestamp := (L.timestamp.get (t.mem (s.mailboxOffset i))).setWidth 16
      mbState := .idle
      sending := none } := Function.update_self _ _ _
  rw [hbox]
  refine .idle rfl rfl (inactive_setFDTxMbConfig true) hflag ?_
  rw [hreported, heq]

lemma abortSend_kept (h : t.TxKept L s i) (hcond : (t.box i).iflag = false) :
    (t.abortSend L s i).TxKept L s i := by
  have hflag : (t.box i).iflag = true → (t.abortSend L s i).Mine i := by
    rw [hcond]
    exact fun hset => absurd hset Bool.false_ne_true
  cases h with
  | idle state mask inactive flag reported => exact abortSend_idle reported rfl hflag
  | active f state sending active shown flag notMine reported => exact abortSend_idle reported rfl hflag
  | done f state sending inactive flag notMine reported => exact absurd (flag.symm.trans hcond) (by decide)

lemma subHandlerForMB_txData (h : (t.box i).mbState = .txData) :
    t.subHandlerForMB L s i = (.txIdle, (t.update i { t.box i with
      reported := (t.box i).reported ++ (t.box i).sending.toList }).abortSend L s i) := by
  unfold System.subHandlerForMB
  dsimp only
  rw [h]

/-- The interrupt of a message buffer for sending reports its frame. -/
lemma handleIRQ_txKept (h : t.TxKept L s i) (htarget : target mbCount t .interrupt = some i) :
    (t.handleIRQ L s mbCount).TxKept L s i := by
  dsimp only [target] at htarget
  obtain ⟨hmask, hset⟩ := Bool.and_eq_true_iff.mp (chooseResult_some htarget)
  unfold System.handleIRQ
  rw [htarget]
  dsimp only
  cases h with
  | idle state mask inactive flag reported => exact absurd (mask.symm.trans hmask) (by decide)
  | active f state sending active shown flag notMine reported => exact absurd (flag.symm.trans hset) (by decide)
  | done f state sending inactive flag notMine reported =>
    rw [subHandlerForMB_txData state]
    apply abortSend_idle
    · dsimp only [System.update]
      rw [Function.update_self]
      exact reported
    · dsimp only [System.update]
      rw [Function.update_self, sending]
      rfl
    · exact fun _ => ⟨_, rfl⟩

lemma acknowledge_txKept (h : t.TxKept L s i) (htarget : target mbCount t .acknowledge = some i) :
    t.acknowledge.TxKept L s i := by
  obtain ⟨⟨result, status⟩, hhandling, rfl⟩ := Option.map_eq_some_iff.mp htarget
  have hmine : t.Mine result := ⟨status, hhandling⟩
  unfold System.acknowledge
  rw [hhandling]
  cases h with
  | idle state mask inactive flag reported =>
    refine .idle ?_ ?_ inactive ?_ ?_
    all_goals
      dsimp only [System.update]
      rw [Function.update_self]
    · exact state
    · exact mask
    · exact fun hset => absurd hset Bool.false_ne_true
    · exact reported
  | active f state sending active shown flag notMine reported => exact absurd hmine notMine
  | done f state sending inactive flag notMine reported => exact absurd hmine notMine

lemma transmit_txKept (h : t.TxKept L s i) {cs : BitVec 32}
    (hactive : L.code.get (t.mem (s.mailboxOffset i)) = txMbDataOrRemote) (hcs : L.code.get cs = txMbInactive) :
    ({ t with mem := Function.update t.mem (s.mailboxOffset i) cs }.update i
      { t.box i with iflag := true, sent := (t.box i).sent ++ [shownFrame L s i t.mem] }).TxKept L s i := by
  cases h with
  | idle state mask inactive flag reported => exact absurd hactive inactive
  | active f state sending active shown flag notMine reported =>
    refine .done f ?_ ?_ ?_ ?_ notMine ?_
    · dsimp only [System.update]
      rw [Function.update_self]
      exact state
    · dsimp only [System.update]
      rw [Function.update_self]
      exact sending
    · unfold Inactive
      dsimp only [System.update]
      rw [Function.update_self, hcs]
      decide
    · dsimp only [System.update]
      rw [Function.update_self]
    · dsimp only [System.update]
      rw [Function.update_self, reported, shown, List.map_append]
      rfl
  | done f state sending inactive flag notMine reported => exact absurd hactive inactive

/-- No transfer is aborted between the end of its transmission and the interrupt. -/
def AbortsBefore (t : System) : Event → Prop
  | .abortSend i => (t.box i).iflag = false
  | _ => True

lemma txKept_step (htx : tx i = true) (h : t.TxKept L s i) {e : Event} (hcond : AbortsBefore t e) :
    (step L s mbCount tx t e).TxKept L s i := by
  by_cases htarget : target mbCount t e = some i
  · cases e with
    | send j f =>
      obtain rfl := Option.some.inj htarget
      unfold step
      dsimp only
      split_ifs with hguard
      · exact sendNonBlocking_kept h hguard.2 f
      · exact h
    | receive j buffer =>
      obtain rfl := Option.some.inj htarget
      unfold step
      dsimp only
      rw [if_neg (fun hguard => hguard.1 htx)]
      exact h
    | abortSend j =>
      obtain rfl := Option.some.inj htarget
      unfold step
      dsimp only
      split_ifs with hguard
      · exact abortSend_kept h hcond
      · exact h
    | abortReceive j =>
      obtain rfl := Option.some.inj htarget
      unfold step
      dsimp only
      rw [if_neg (fun hguard => hguard.1 htx)]
      exact h
    | listen j config =>
      obtain rfl := Option.some.inj htarget
      unfold step
      dsimp only
      rw [if_neg (fun hguard => hguard.1 htx)]
      exact h
    | interrupt =>
      unfold step
      dsimp only
      split_ifs with hguard
      · exact handleIRQ_txKept h htarget
      · exact h
    | acknowledge => exact acknowledge_txKept h htarget
    | transmit j cs =>
      obtain rfl := Option.some.inj htarget
      unfold step
      dsimp only
      split_ifs with hguard
      · exact transmit_txKept h hguard.2.1 hguard.2.2
      · exact h
    | store j content =>
      obtain rfl := Option.some.inj htarget
      unfold step
      dsimp only
      rw [if_neg (fun hguard => hguard.1 htx)]
      exact h
  · have hsame : Same s t (step L s mbCount tx t e) i := step_same htarget
    unfold System.TxKept
    rw [hsame.box]
    exact h.congr hsame.mem hsame.mine

/-- In every run without an abort between a transmission and its interrupt, the frames reported as sent are those that the
bus has seen, in this order and each once; the bus is ahead by one frame at most, whose flag is set. -/
theorem reported_prefix_sent {mem : Nat → BitVec 32} (hmem : ∀ mbIdx, tx mbIdx = true → Inactive L s mbIdx mem)
    {events : List Event} (hrun : EachStep (step L s mbCount tx) AbortsBefore (System.start mem) events)
    (htx : tx i = true) :
    let b := (events.foldl (step L s mbCount tx) (System.start mem)).box i
    b.sent = b.reported.map (FdFrame.trim s) ∨
      b.iflag = true ∧ ∃ f, b.sending = some f ∧ b.sent = (b.reported ++ [f]).map (FdFrame.trim s) := by
  intro b
  have hstart : (System.start mem).TxKept L s i :=
    .idle rfl rfl (hmem i htx) (fun hset => absurd hset Bool.false_ne_true) rfl
  have hkept := hrun.invariant (I := fun t => t.TxKept L s i) (fun t e h hcond => txKept_step htx h hcond) events hstart
  cases hkept with
  | idle state mask inactive flag reported => exact Or.inl reported
  | active f state sending active shown flag notMine reported => exact Or.inl reported
  | done f state sending inactive flag notMine reported => exact Or.inr ⟨flag, f, sending, reported⟩

theorem reported_prefix_sent_transfer :
    let f : FdFrame := ⟨0x123#29, false, 8#4, true, true, fun cnt => BitVec.ofNat 32 cnt⟩
    let events := [.send 7 f, .transmit 7 (fieldPlaces.code.put txMbInactive), .interrupt, .acknowledge]
    let b := (events.foldl (step fieldPlaces .bytes64 14 (fun _ => true)) (System.start (fun _ => 0))).box 7
    b.sent = b.reported.map (FdFrame.trim .bytes64) ∨
      b.iflag = true ∧ ∃ f, b.sending = some f ∧ b.sent = (b.reported ++ [f]).map (FdFrame.trim .bytes64) :=
  have hmem : ∀ mbIdx, true = true → Inactive fieldPlaces .bytes64 mbIdx (fun _ => 0) :=
    fun _ _ => show fieldPlaces.code.get 0 ≠ txMbDataOrRemote by decide
  reported_prefix_sent hmem ⟨trivial, trivial, trivial, trivial, trivial⟩ rfl

end Sending

section Receiving

variable {L : CsLayout} {s : MbSize} {mbCount : Nat} {tx : Nat → Bool} {t : System} {i : Nat}

/-- What is known of a message buffer for reception. -/
abbrev System.RxKept (L : CsLayout) (s : MbSize) (t : System) (i : Nat) : Prop :=
  RxBox L s i t.mem (t.box i) (t.Mine i)

lemma idle_ne_rxData : MbState.idle ≠ .rxData := by
  decide

/-- The buffers that are filled belong to accepted calls. -/
lemma RxBox.buffers {mem : Nat → BitVec 32} {b : Box} {mine : Prop} (h : RxBox L s i mem b mine) :
    (b.delivered.map Prod.fst).Sublist b.requested := by
  rcases h.state with hidle | hbusy
  · exact h.idle hidle
  · obtain ⟨before, buffer, hrequested, -, hsub⟩ := h.request hbusy
    rw [hrequested]
    exact hsub.trans (List.sublist_append_left before [buffer])

lemma receiveNonBlocking_kept (h : t.RxKept L s i) (buffer : Nat) :
    (t.receiveNonBlocking i buffer).2.RxKept L s i := by
  unfold System.receiveNonBlocking
  dsimp only
  split_ifs with hidle
  · unfold System.RxKept
    dsimp only [System.update]
    rw [Function.update_self]
    exact
      { state := Or.inr rfl
        idle := fun hstate => absurd hstate idle_ne_rxData.symm
        request := fun _ => ⟨(t.box i).requested, buffer, rfl, rfl, h.idle hidle⟩
        frames := h.frames
        fresh := h.fresh }
  · exact h

/-- A buffer that is idle again, with what is known of its frames. -/
lemma abortReceive_rxBox {mine : Prop} (hbuffers : ((t.box i).delivered.map Prod.fst).Sublist (t.box i).requested)
    (hframes : ((t.box i).delivered.map Prod.snd).Sublist (t.box i).received)
    (hfresh : (t.box i).iflag = true → ¬ mine → Readable L s i t.mem →
      ∃ before, (t.box i).received = before ++ [shownFrame L s i t.mem] ∧
        ((t.box i).delivered.map Prod.snd).Sublist before) :
    RxBox L s i (t.abortReceive i).mem ((t.abortReceive i).box i) mine := by
  have hbox : (t.abortReceive i).box i = { t.box i with imask := false, mbFDFrameBuf := none, mbState := .idle } :=
    Function.update_self _ _ _
  rw [hbox]
  exact
    { state := Or.inl rfl
      idle := fun _ => hbuffers
      request := fun hstate => absurd hstate idle_ne_rxData
      frames := hframes
      fresh := hfresh }

lemma abortReceive_kept (h : t.RxKept L s i) : (t.abortReceive i).RxKept L s i :=
  abortReceive_rxBox h.buffers h.frames h.fresh

/-- A buffer that has just been configured holds no frame. -/
lemma not_readable_setFDRxMbConfig {mem : Nat → BitVec 32} (config : Option (BitVec 29 × Bool)) :
    ¬ Readable L s i (applyWrites mem (setFDRxMbConfig L s i config)) := by
  have hclean {mem : Nat → BitVec 32} :
      applyWrites mem (cleanWrites s i) (s.mailboxOffset i) = mem (s.mailboxOffset i) :=
    applyWrites_other (fun w hw => (mem_cleanWrites hw).1.ne')
  unfold Readable setFDRxMbConfig
  rw [applyWrites_cons, applyWrites_append]
  cases config with
  | none =>
    dsimp only
    have hoff : L.code.get (applyWrites (applyWrites (Function.update mem (s.mailboxOffset i) 0) (cleanWrites s i)) []
        (s.mailboxOffset i)) = 0#32 := by
      refine Eq.trans (congrArg _ (hclean.trans (Function.update_self _ _ _))) ?_
      exact BitField.get_zero
    rw [hoff]
    decide
  | some config =>
    obtain ⟨id, extended⟩ := config
    dsimp only
    rw [applyWrites_cons, applyWrites_cons]
    have hide : (if extended then L.ide.mask else 0#32) = L.ide.put (bit extended) := by
      cases extended with
      | false => simp [bit]
      | true => simp [bit, BitField.put_one L.ide_width]
    have hdisjoint := L.disjoint
    simp only [List.pairwise_cons, List.mem_cons, List.not_mem_nil, or_false, forall_eq_or_imp] at hdisjoint
    have hcode : L.code.get ((if extended then L.ide.mask else 0#32) ||| L.code.put rxMbEmpty) = rxMbEmpty := by
      rw [hide, BitField.get_or, BitField.get_put_of_disjoint hdisjoint.1.2.2.2.1,
        BitField.get_put_self (by rw [L.code_width]; decide)]
      simp
    have hoff {mem : Nat → BitVec 32} (a x : BitVec 32) (b : Nat) :
        applyWrites (Function.update (Function.update mem b a) (s.mailboxOffset i) x) [] (s.mailboxOffset i) = x :=
      Function.update_self _ _ _
    rw [hoff, hcode]
    decide

lemma listen_kept (h : t.RxKept L s i) (config : Option (BitVec 29 × Bool)) :
    ({ t with mem := applyWrites t.mem (setFDRxMbConfig L s i config) } : System).RxKept L s i :=
  { state := h.state
    idle := h.idle
    request := h.request
    frames := h.frames
    fresh := fun _ _ hread => absurd hread (not_readable_setFDRxMbConfig config) }

lemma store_kept (h : t.RxKept L s i) (content : Nat → BitVec 32) :
    ({ t with mem := fun a => if s.InMailbox i a then content a else t.mem a }.update i
      { t.box i with
        iflag := true, received := (t.box i).received ++ [shownFrame L s i content] } : System).RxKept L s i := by
  have hcontent : ∀ a, s.InMailbox i a → (if s.InMailbox i a then content a else t.mem a) = content a :=
    fun a ha => if_pos ha
  unfold System.RxKept
  dsimp only [System.update]
  rw [Function.update_self]
  exact
    { state := h.state
      idle := h.idle
      request := h.request
      frames := h.frames.trans (List.sublist_append_left _ _)
      fresh := fun _ _ _ => ⟨(t.box i).received, by rw [shownFrame_congr hcontent], h.frames⟩ }

/-- A frame that can be read is read. -/
lemma readFDRxMb_of_readable {mem : Nat → BitVec 32} (h : Readable L s i mem) :
    ∃ status stamp, readFDRxMb L s i mem = (status, some (shownFrame L s i mem, stamp)) := by
  unfold Readable at h
  unfold readFDRxMb
  dsimp only
  rw [if_pos h]
  exact ⟨_, _, rfl⟩

lemma readFDRxMb_of_not_readable {mem : Nat → BitVec 32} (h : ¬ Readable L s i mem) :
    readFDRxMb L s i mem = (.fail, none) := by
  unfold Readable at h
  unfold readFDRxMb
  dsimp only
  rw [if_neg h]

/-- The handler fills the buffer of the call with the frame that the message buffer has received last. -/
lemma handleRxData_rxBox (h : t.RxKept L s i) (hnot : ¬ t.Mine i) (hbusy : (t.box i).mbState = .rxData)
    (hset : (t.box i).iflag = true) :
    RxBox L s i (t.handleRxData L s i).2.mem ((t.handleRxData L s i).2.box i) True := by
  obtain ⟨before, buffer, hrequested, hbuffer, hsub⟩ := h.request hbusy
  have hvacuous {P : Prop} : ¬ True → P := fun hfalse => absurd trivial hfalse
  unfold System.handleRxData
  dsimp only
  by_cases hread : Readable L s i t.mem
  · obtain ⟨status, stamp, heq⟩ := readFDRxMb_of_readable hread
    obtain ⟨earlier, hreceived, hframes⟩ := h.fresh hset hnot hread
    rw [heq, hbuffer]
    dsimp only
    apply abortReceive_rxBox
    all_goals
      dsimp only [System.update]
      rw [Function.update_self]
    · rw [hrequested, List.map_append]
      exact hsub.append (List.Sublist.refl _)
    · rw [hreceived, List.map_append]
      exact hframes.append (List.Sublist.refl _)
    · exact fun _ => hvacuous
  · rw [readFDRxMb_of_not_readable hread]
    exact abortReceive_rxBox h.buffers h.frames (fun _ => hvacuous)

lemma subHandlerForMB_rxBox (h : t.RxKept L s i) (hnot : ¬ t.Mine i) (hset : (t.box i).iflag = true) :
    RxBox L s i (t.subHandlerForMB L s i).2.mem ((t.subHandlerForMB L s i).2.box i) True := by
  unfold System.subHandlerForMB
  dsimp only
  rcases h.state with hidle | hbusy
  · rw [hidle]
    exact
      { state := h.state
        idle := h.idle
        request := h.request
        frames := h.frames
        fresh := fun _ hfalse => absurd trivial hfalse }
  · rw [hbusy]
    exact handleRxData_rxBox h hnot hbusy hset

lemma handleIRQ_rxKept (h : t.RxKept L s i) (hhandling : t.handling = none)
    (htarget : target mbCount t .interrupt = some i) : (t.handleIRQ L s mbCount).RxKept L s i := by
  dsimp only [target] at htarget
  have hset := (Bool.and_eq_true_iff.mp (chooseResult_some htarget)).2
  unfold System.handleIRQ
  rw [htarget]
  dsimp only
  refine (subHandlerForMB_rxBox h (not_mine hhandling) hset).congr (fun _ _ => rfl) ?_
  exact ⟨fun _ => trivial, fun _ => ⟨_, rfl⟩⟩

lemma acknowledge_rxKept (h : t.RxKept L s i) (htarget : target mbCount t .acknowledge = some i) :
    t.acknowledge.RxKept L s i := by
  obtain ⟨⟨result, status⟩, hhandling, rfl⟩ := Option.map_eq_some_iff.mp htarget
  unfold System.RxKept System.acknowledge
  rw [hhandling]
  dsimp only [System.update]
  rw [Function.update_self]
  exact
    { state := h.state
      idle := h.idle
      request := h.request
      frames := h.frames
      fresh := fun hset => absurd hset Bool.false_ne_true }

lemma rxKept_step (htx : tx i = false) (h : t.RxKept L s i) (e : Event) :
    (step L s mbCount tx t e).RxKept L s i := by
  have hnot : ¬ tx i = true := Bool.eq_false_iff.mp htx
  by_cases htarget : target mbCount t e = some i
  · cases e with
    | send j f =>
      obtain rfl := Option.some.inj htarget
      unfold step
      dsimp only
      rw [if_neg (fun hguard => hnot hguard.1)]
      exact h
    | receive j buffer =>
      obtain rfl := Option.some.inj htarget
      unfold step
      dsimp only
      split_ifs
      · exact receiveNonBlocking_kept h buffer
      · exact h
    | abortSend j =>
      obtain rfl := Option.some.inj htarget
      unfold step
      dsimp only
      rw [if_neg (fun hguard => hnot hguard.1)]
      exact h
    | abortReceive j =>
      obtain rfl := Option.some.inj htarget
      unfold step
      dsimp only
      split_ifs
      · exact abortReceive_kept h
      · exact h
    | listen j config =>
      obtain rfl := Option.some.inj htarget
      unfold step
      dsimp only
      split_ifs
      · exact listen_kept h config
      · exact h
    | interrupt =>
      unfold step
      dsimp only
      split_ifs with hguard
      · exact handleIRQ_rxKept h hguard htarget
      · exact h
    | acknowledge => exact acknowledge_rxKept h htarget
    | transmit j cs =>
      obtain rfl := Option.some.inj htarget
      unfold step
      dsimp only
      rw [if_neg (fun hguard => hnot hguard.1)]
      exact h
    | store j content =>
      obtain rfl := Option.some.inj htarget
      unfold step
      dsimp only
      split_ifs
      · exact store_kept h content
      · exact h
  · have hsame : Same s t (step L s mbCount tx t e) i := step_same htarget
    unfold System.RxKept
    rw [hsame.box]
    exact h.congr hsame.mem hsame.mine

/-- In every run the frames that a message buffer delivers are frames that it has received, in this order and none twice,
and each fills the buffer of an accepted call of its own. -/
theorem delivered_sublist_received (mem : Nat → BitVec 32) (events : List Event) (htx : tx i = false) :
    let b := (events.foldl (step L s mbCount tx) (System.start mem)).box i
    (b.delivered.map Prod.snd).Sublist b.received ∧ (b.delivered.map Prod.fst).Sublist b.requested := by
  intro b
  have hstart : (System.start mem).RxKept L s i :=
    { state := Or.inl rfl
      idle := fun _ => List.Sublist.refl _
      request := fun hstate => absurd hstate idle_ne_rxData
      frames := List.Sublist.refl _
      fresh := fun hset => absurd hset Bool.false_ne_true }
  have hrun := eachStep_true (step L s mbCount tx) (System.start mem) events
  have h := hrun.invariant (I := fun t => t.RxKept L s i) (fun t e h _ => rxKept_step htx h e) events hstart
  exact ⟨h.frames, h.buffers⟩

theorem delivered_sublist_received_box :
    let content := Function.update (fun _ => 7#32) (MbSize.bytes64.mailboxOffset 3) (fieldPlaces.code.put rxMbFull)
    let events := [.listen 3 (some (0x123, true)), .receive 3 0, .store 3 content, .interrupt, .store 3 content,
      .acknowledge]
    let b := (events.foldl (step fieldPlaces .bytes64 14 (fun _ => false)) (System.start (fun _ => 0))).box 3
    (b.delivered.map Prod.snd).Sublist b.received ∧ (b.delivered.map Prod.fst).Sublist b.requested :=
  delivered_sublist_received (fun _ => 0) _ rfl

end Receiving

end McuxDrivers.FlexCan.Transfers

import McuxDrivers.FlexCan.Mailbox

/-!
# The frames that the bus sees

Calls for different message buffers may interrupt each other after every write, and the controller may act in between: it
sends what a buffer shows whose code says so, and stores what it receives in the buffers for reception. `Phase` says how far
the call for a buffer has come.
-/

namespace McuxDrivers.FlexCan
open McuxDrivers.Lib

/-- The memory, the writes that the call for a buffer has still to make, the frames that `FLEXCAN_WriteFDTxMb` has
accepted for it and the frames that the bus has seen from it. -/
structure Node where
  mem : Nat → BitVec 32
  pending : Nat → List Write
  accepted : Nat → List FdFrame
  sent : Nat → List FdFrame

inductive Event where
  | write (mbIdx : Nat) (f : FdFrame)
  | clear (mbIdx : Nat) (enable : Bool)
  | listen (mbIdx : Nat) (config : Option (BitVec 29 × Bool))
  /-- The next write of the call for the buffer. -/
  | store (mbIdx : Nat)
  /-- The controller has sent the frame and changes the control word. -/
  | transmit (mbIdx : Nat) (cs : BitVec 32)
  | receive (mbIdx : Nat) (content : Nat → BitVec 32)

section Steps

variable (L : CsLayout) (s : MbSize) (tx : Nat → Bool)

/-- A step; `tx` says which buffers are used for sending. -/
def step (n : Node) : Event → Node
  | .write mbIdx f =>
    if tx mbIdx ∧ n.pending mbIdx = [] then
      match writeFDTxMb L s mbIdx (n.mem (s.mailboxOffset mbIdx)) f with
      | some writes => { n with
          pending := Function.update n.pending mbIdx writes
          accepted := Function.update n.accepted mbIdx (n.accepted mbIdx ++ [f]) }
      | none => n
    else n
  | .clear mbIdx enable =>
    if tx mbIdx ∧ n.pending mbIdx = [] then
      { n with pending := Function.update n.pending mbIdx (setFDTxMbConfig L s mbIdx enable) }
    else n
  | .listen mbIdx config =>
    if ¬ tx mbIdx ∧ n.pending mbIdx = [] then
      { n with pending := Function.update n.pending mbIdx (setFDRxMbConfig L s mbIdx config) }
    else n
  | .store mbIdx =>
    match n.pending mbIdx with
    | [] => n
    | w :: rest => { n with
        mem := Function.update n.mem w.1 w.2
        pending := Function.update n.pending mbIdx rest }
  | .transmit mbIdx cs =>
    if tx mbIdx ∧ L.code.get (n.mem (s.mailboxOffset mbIdx)) = txMbDataOrRemote ∧
        L.code.get cs ≠ txMbDataOrRemote then
      { n with
        mem := Function.update n.mem (s.mailboxOffset mbIdx) cs
        sent := Function.update n.sent mbIdx (n.sent mbIdx ++ [shownFrame L s mbIdx n.mem]) }
    else n
  | .receive mbIdx content =>
    if ¬ tx mbIdx then
      { n with mem := fun a => if s.InMailbox mbIdx a then content a else n.mem a }
    else n

end Steps

/-- Before the first call. -/
def Node.start (mem : Nat → BitVec 32) : Node :=
  { mem := mem, pending := fun _ => [], accepted := fun _ => [], sent := fun _ => [] }

section Contents

variable {L : CsLayout} {s : MbSize} {mbIdx : Nat} {f : FdFrame} {mem : Nat → BitVec 32} {w : Write}

lemma mem_fillWrites (hw : w ∈ fillWrites s mbIdx f) : s.mailboxOffset mbIdx < w.1 ∧ s.InMailbox mbIdx w.1 := by
  unfold MbSize.InMailbox
  rcases List.mem_cons.mp hw with rfl | hw
  · dsimp only
    omega
  · obtain ⟨cnt, hcnt, rfl⟩ := List.mem_map.mp hw
    have hlt := List.mem_range.mp hcnt
    dsimp only
    omega

lemma mem_cleanWrites (hw : w ∈ cleanWrites s mbIdx) : s.mailboxOffset mbIdx < w.1 ∧ s.InMailbox mbIdx w.1 := by
  unfold MbSize.InMailbox
  rcases List.mem_cons.mp hw with rfl | hw
  · dsimp only
    omega
  · obtain ⟨cnt, hcnt, rfl⟩ := List.mem_map.mp hw
    have hlt := List.mem_range.mp hcnt
    dsimp only
    omega

/-- No word is written twice by the writes behind the control word. -/
lemma fillWrites_nodup : ((fillWrites s mbIdx f).map Prod.fst).Nodup := by
  rw [fillWrites, List.map_cons, List.map_map, List.nodup_cons]
  constructor
  · intro hmem
    obtain ⟨cnt, -, heq⟩ := List.mem_map.mp hmem
    dsimp only [Function.comp_apply] at heq
    omega
  · apply List.Nodup.map
    · intro i j hij
      dsimp only [Function.comp_apply] at hij
      omega
    · exact List.nodup_range

/-- A buffer that holds the words of a frame shows its part that fits. -/
lemma shownFrame_eq (hcs : mem (s.mailboxOffset mbIdx) = txCs L f) (hfill : ∀ w ∈ fillWrites s mbIdx f, mem w.1 = w.2) :
    shownFrame L s mbIdx mem = f.trim s := by
  obtain ⟨-, hdlc, hide, hedl, hbrs⟩ := get_txCs (L := L) (f := f)
  have hid : mem (s.mailboxOffset mbIdx + 1) = f.id.setWidth 32 := hfill _ List.mem_cons_self
  have hdata (cnt : Nat) (hcnt : cnt < s.payloadDword) : mem (s.mailboxOffset mbIdx + 2 + cnt) = f.dataWord cnt :=
    hfill _ (List.mem_cons_of_mem _ (List.mem_map.mpr ⟨cnt, List.mem_range.mpr hcnt, rfl⟩))
  unfold shownFrame FdFrame.trim
  dsimp only
  rw [hcs, hid, hdlc]
  congr 1
  · simp
  · exact flag_eq hide
  · simp
  · exact flag_eq hedl
  · exact flag_eq hbrs
  · funext cnt
    split_ifs with hcnt
    · exact hdata cnt hcnt
    · rfl

end Contents

section Invariant

variable (L : CsLayout) (s : MbSize) (mbIdx : Nat)

/-- The code does not ask the controller to send. -/
def Inactive (mem : Nat → BitVec 32) : Prop :=
  L.code.get (mem (s.mailboxOffset mbIdx)) ≠ txMbDataOrRemote

/-- The writes lie in the buffer and do not ask the controller to send. -/
def Harmless (writes : List Write) : Prop :=
  ∀ w ∈ writes, s.InMailbox mbIdx w.1 ∧ (w.1 = s.mailboxOffset mbIdx → L.code.get w.2 ≠ txMbDataOrRemote)

/-- How far the call for a buffer for sending has come. -/
inductive Phase (mem : Nat → BitVec 32) (pending : List Write) (accepted sent : List FdFrame) : Prop
  | idle (inactive : Inactive L s mbIdx mem) (harmless : Harmless L s mbIdx pending)
    (sublist : sent.Sublist (accepted.map (FdFrame.trim s)))
  | starting (before : List FdFrame) (f : FdFrame) (cs : BitVec 32) (inactive : Inactive L s mbIdx mem)
    (code : L.code.get cs ≠ txMbDataOrRemote) (accepted_eq : accepted = before ++ [f])
    (sublist : sent.Sublist (before.map (FdFrame.trim s)))
    (pending_eq : pending =
      (s.mailboxOffset mbIdx, cs) :: (fillWrites s mbIdx f ++ [(s.mailboxOffset mbIdx, txCs L f)]))
  | filling (before : List FdFrame) (f : FdFrame) (done rest : List Write) (inactive : Inactive L s mbIdx mem)
    (accepted_eq : accepted = before ++ [f]) (sublist : sent.Sublist (before.map (FdFrame.trim s)))
    (fill : fillWrites s mbIdx f = done ++ rest) (written : ∀ w ∈ done, mem w.1 = w.2)
    (pending_eq : pending = rest ++ [(s.mailboxOffset mbIdx, txCs L f)])
  | ready (before : List FdFrame) (f : FdFrame)
    (active : L.code.get (mem (s.mailboxOffset mbIdx)) = txMbDataOrRemote) (accepted_eq : accepted = before ++ [f])
    (sublist : sent.Sublist (before.map (FdFrame.trim s))) (shown : shownFrame L s mbIdx mem = f.trim s)
    (pending_eq : pending = [] ∨ ∃ enable, pending = setFDTxMbConfig L s mbIdx enable)

end Invariant

section Keep

variable {L : CsLayout} {s : MbSize} {mbIdx : Nat} {mem mem' : Nat → BitVec 32} {pending : List Write}
  {accepted sent : List FdFrame}

/-- The phase depends on the words of the buffer only. -/
lemma Phase.congr (h : Phase L s mbIdx mem pending accepted sent) (hmem : ∀ a, s.InMailbox mbIdx a → mem' a = mem a) :
    Phase L s mbIdx mem' pending accepted sent := by
  have hoff : mem' (s.mailboxOffset mbIdx) = mem (s.mailboxOffset mbIdx) :=
    hmem _ ⟨le_rfl, by omega⟩
  cases h with
  | idle inactive harmless sublist =>
    exact .idle (by unfold Inactive; rwa [hoff]) harmless sublist
  | starting before f cs inactive code accepted_eq sublist pending_eq =>
    exact .starting before f cs (by unfold Inactive; rwa [hoff]) code accepted_eq sublist pending_eq
  | filling before f done rest inactive accepted_eq sublist fill written pending_eq =>
    refine .filling before f done rest (by unfold Inactive; rwa [hoff]) accepted_eq sublist fill (fun w hw => ?_) pending_eq
    rw [← written w hw]
    apply hmem
    apply And.right
    apply mem_fillWrites (f := f)
    rw [fill]
    exact List.mem_append_left _ hw
  | ready before f active accepted_eq sublist shown pending_eq =>
    refine .ready before f (by rwa [hoff]) accepted_eq sublist ?_ pending_eq
    rw [← shown]
    unfold shownFrame
    dsimp only
    rw [hoff, hmem (s.mailboxOffset mbIdx + 1) ⟨by omega, by omega⟩]
    congr 1
    funext cnt
    split_ifs with hcnt
    · exact hmem _ ⟨by omega, by omega⟩
    · rfl

lemma setFDTxMbConfig_harmless (enable : Bool) : Harmless L s mbIdx (setFDTxMbConfig L s mbIdx enable) := by
  intro w hw
  rcases List.mem_cons.mp hw with rfl | hw
  · refine ⟨⟨le_rfl, by dsimp only; omega⟩, fun _ => ?_⟩
    cases enable with
    | false =>
      rw [if_neg (by decide), show (0 : BitVec 32) = 0#32 from rfl, BitField.get_zero]
      decide
    | true =>
      rw [if_pos rfl, BitField.get_put_self (by rw [L.code_width]; decide)]
      decide
  · obtain ⟨hlt, hin⟩ := mem_cleanWrites hw
    exact ⟨hin, fun heq => absurd heq hlt.ne'⟩

/-- A call that writes a frame is accepted in every phase without pending writes, unless the buffer is in use. -/
lemma Phase.write {f : FdFrame} {writes : List Write} (h : Phase L s mbIdx mem [] accepted sent)
    (hwrite : writeFDTxMb L s mbIdx (mem (s.mailboxOffset mbIdx)) f = some writes) :
    Phase L s mbIdx mem writes (accepted ++ [f]) sent := by
  unfold writeFDTxMb at hwrite
  split_ifs at hwrite with hcode
  obtain rfl := Option.some.inj hwrite
  have hinactive : Inactive L s mbIdx mem := mt inUse_iff.mpr hcode
  have hsublist : sent.Sublist (accepted.map (FdFrame.trim s)) := by
    cases h with
    | idle inactive harmless sublist => exact sublist
    | starting before f' cs inactive code accepted_eq sublist pending_eq => cases pending_eq
    | filling before f' done rest inactive accepted_eq sublist fill written pending_eq =>
      exact absurd pending_eq.symm (by simp)
    | ready before f' active accepted_eq sublist shown pending_eq => exact absurd active hinactive
  refine .starting accepted f _ hinactive ?_ rfl hsublist rfl
  rw [get_inactive]
  decide

lemma Phase.clear (h : Phase L s mbIdx mem [] accepted sent) (enable : Bool) :
    Phase L s mbIdx mem (setFDTxMbConfig L s mbIdx enable) accepted sent := by
  cases h with
  | idle inactive harmless sublist => exact .idle inactive (setFDTxMbConfig_harmless enable) sublist
  | starting before f cs inactive code accepted_eq sublist pending_eq => cases pending_eq
  | filling before f done rest inactive accepted_eq sublist fill written pending_eq =>
    exact absurd pending_eq.symm (by simp)
  | ready before f active accepted_eq sublist shown pending_eq =>
    exact .ready before f active accepted_eq sublist shown (Or.inr ⟨enable, rfl⟩)

/-- What has been sent stays a part of what has been accepted. -/
lemma sublist_append {f : FdFrame} {before : List FdFrame} (h : sent.Sublist (before.map (FdFrame.trim s))) :
    sent.Sublist ((before ++ [f]).map (FdFrame.trim s)) := by
  rw [List.map_append]
  exact h.trans (List.sublist_append_left _ _)

/-- One write of the call. -/
lemma Phase.store {w : Write} {rest : List Write} (h : Phase L s mbIdx mem (w :: rest) accepted sent) :
    Phase L s mbIdx (Function.update mem w.1 w.2) rest accepted sent ∧ s.InMailbox mbIdx w.1 := by
  have hself : s.InMailbox mbIdx (s.mailboxOffset mbIdx) := ⟨le_rfl, by omega⟩
  cases h with
  | idle inactive harmless sublist =>
    obtain ⟨hin, hcode⟩ := harmless w List.mem_cons_self
    refine ⟨.idle ?_ (fun w' hw' => harmless w' (List.mem_cons_of_mem _ hw')) sublist, hin⟩
    unfold Inactive
    by_cases heq : w.1 = s.mailboxOffset mbIdx
    · rw [heq, Function.update_self]
      exact hcode heq
    · rwa [Function.update_of_ne (Ne.symm heq)]
  | starting before f cs inactive code accepted_eq sublist pending_eq =>
    obtain ⟨rfl, rfl⟩ := List.cons.inj pending_eq
    refine ⟨.filling before f [] _ ?_ accepted_eq sublist rfl (by simp) rfl, hself⟩
    unfold Inactive
    rwa [Function.update_self]
  | filling before f done rest' inactive accepted_eq sublist fill written pending_eq =>
    cases rest' with
    | nil =>
      -- the control word is the last that is written
      obtain ⟨rfl, rfl⟩ := List.cons.inj pending_eq
      rw [List.append_nil] at fill
      refine ⟨.ready before f ?_ accepted_eq sublist ?_ (Or.inl rfl), hself⟩
      · rw [Function.update_self]
        exact get_txCs.1
      · refine shownFrame_eq (Function.update_self _ _ _) (fun w hw => ?_)
        rw [Function.update_of_ne (mem_fillWrites hw).1.ne']
        exact written w (fill ▸ hw)
    | cons w' rest' =>
      obtain ⟨rfl, rfl⟩ := List.cons.inj pending_eq
      have hmem : w ∈ fillWrites s mbIdx f := by
        rw [fill]
        exact List.mem_append_right _ List.mem_cons_self
      obtain ⟨hlt, hin⟩ := mem_fillWrites hmem
      refine ⟨.filling before f (done ++ [w]) rest' ?_ accepted_eq sublist (by simp [fill]) (fun v hv => ?_) rfl, hin⟩
      · unfold Inactive
        rwa [Function.update_of_ne hlt.ne]
      · rcases List.mem_append.mp hv with hv | hv
        · have hnodup : ((fillWrites s mbIdx f).map Prod.fst).Nodup := fillWrites_nodup
          rw [fill, List.map_append, List.map_cons, List.nodup_append] at hnodup
          have hne : v.1 ≠ w.1 := hnodup.2.2 _ (List.mem_map_of_mem hv) _ List.mem_cons_self
          rw [Function.update_of_ne hne]
          exact written v hv
        · rw [List.mem_singleton.mp hv, Function.update_self]
  | ready before f active accepted_eq sublist shown pending_eq =>
    obtain hnil | ⟨enable, hclear⟩ := pending_eq
    · cases hnil
    · have hharmless : Harmless L s mbIdx (setFDTxMbConfig L s mbIdx enable) := setFDTxMbConfig_harmless enable
      rw [← hclear] at hharmless
      have hw : w.1 = s.mailboxOffset mbIdx := congrArg Prod.fst (List.cons.inj hclear).1
      refine ⟨.idle ?_ (fun w' hw' => hharmless w' (List.mem_cons_of_mem _ hw')) ?_, hw ▸ hself⟩
      · unfold Inactive
        rw [hw, Function.update_self]
        exact (hharmless w List.mem_cons_self).2 hw
      · rw [accepted_eq]
        exact sublist_append sublist

/-- The bus sees the frame that was accepted last, and only once. -/
lemma Phase.transmit {cs : BitVec 32} (h : Phase L s mbIdx mem pending accepted sent)
    (hactive : L.code.get (mem (s.mailboxOffset mbIdx)) = txMbDataOrRemote) (hcs : L.code.get cs ≠ txMbDataOrRemote) :
    Phase L s mbIdx (Function.update mem (s.mailboxOffset mbIdx) cs) pending accepted
      (sent ++ [shownFrame L s mbIdx mem]) := by
  cases h with
  | idle inactive harmless sublist => exact absurd hactive inactive
  | starting before f cs' inactive code accepted_eq sublist pending_eq => exact absurd hactive inactive
  | filling before f done rest inactive accepted_eq sublist fill written pending_eq => exact absurd hactive inactive
  | ready before f active accepted_eq sublist shown pending_eq =>
    refine .idle ?_ ?_ ?_
    · unfold Inactive
      rwa [Function.update_self]
    · obtain rfl | ⟨enable, rfl⟩ := pending_eq
      · intro w hw
        exact absurd hw List.not_mem_nil
      · exact setFDTxMbConfig_harmless enable
    · rw [accepted_eq, shown, List.map_append, List.map_singleton]
      exact sublist.append_right _

end Keep

section Runs

variable (L : CsLayout) (s : MbSize) (tx : Nat → Bool)

/-- What every step keeps. -/
structure Kept (n : Node) : Prop where
  sending : ∀ mbIdx, tx mbIdx = true →
    Phase L s mbIdx n.mem (n.pending mbIdx) (n.accepted mbIdx) (n.sent mbIdx)
  receiving : ∀ mbIdx, tx mbIdx = false → n.sent mbIdx = [] ∧ ∀ w ∈ n.pending mbIdx, s.InMailbox mbIdx w.1

variable {L s tx} {n : Node}

lemma setFDRxMbConfig_inMailbox {mbIdx : Nat} {config : Option (BitVec 29 × Bool)} {w : Write}
    (hw : w ∈ setFDRxMbConfig L s mbIdx config) : s.InMailbox mbIdx w.1 := by
  unfold setFDRxMbConfig at hw
  rcases List.mem_cons.mp hw with rfl | hw
  · exact ⟨le_rfl, by dsimp only; omega⟩
  · rcases List.mem_append.mp hw with hw | hw
    · exact (mem_cleanWrites hw).2
    · unfold MbSize.InMailbox
      cases config with
      | none => exact absurd hw List.not_mem_nil
      | some c =>
        rcases List.mem_cons.mp hw with rfl | hw
        · dsimp only
          omega
        · rw [List.mem_singleton.mp hw]
          dsimp only
          omega

/-- A step of the call for one buffer, or of the controller on it, leaves the other buffers. -/
lemma Kept.of_buffer {n' : Node} {i : Nat} (h : Kept L s tx n)
    (hmem : ∀ j, j ≠ i → ∀ a, s.InMailbox j a → n'.mem a = n.mem a)
    (hpending : ∀ j, j ≠ i → n'.pending j = n.pending j) (haccepted : ∀ j, j ≠ i → n'.accepted j = n.accepted j)
    (hsent : ∀ j, j ≠ i → n'.sent j = n.sent j)
    (hsending : tx i = true → Phase L s i n'.mem (n'.pending i) (n'.accepted i) (n'.sent i))
    (hreceiving : tx i = false → n'.sent i = [] ∧ ∀ w ∈ n'.pending i, s.InMailbox i w.1) : Kept L s tx n' where
  sending j hj := by
    by_cases hji : j = i
    · subst hji
      exact hsending hj
    · rw [hpending j hji, haccepted j hji, hsent j hji]
      exact (h.sending j hj).congr (hmem j hji)
  receiving j hj := by
    by_cases hji : j = i
    · subst hji
      exact hreceiving hj
    · rw [hpending j hji, hsent j hji]
      exact h.receiving j hj

lemma update_other {α : Type} (g : Nat → α) {i : Nat} (x : α) (j : Nat) (hj : j ≠ i) :
    Function.update g i x j = g j :=
  Function.update_of_ne hj x g

lemma mem_update_other {mem : Nat → BitVec 32} {i a : Nat} (x : BitVec 32) (ha : s.InMailbox i a) (j : Nat)
    (hj : j ≠ i) (a' : Nat) (ha' : s.InMailbox j a') : Function.update mem a x a' = mem a' := by
  apply Function.update_of_ne
  rintro rfl
  exact hj (inMailbox_unique ha' ha)

lemma inMailbox_offset (i : Nat) : s.InMailbox i (s.mailboxOffset i) :=
  ⟨le_rfl, by omega⟩

/-- Every step keeps what is known of all buffers. -/
lemma Kept.step (h : Kept L s tx n) (e : Event) : Kept L s tx (step L s tx n e) := by
  cases e with
  | write i f =>
    unfold FlexCan.step
    dsimp only
    split_ifs with hguard
    · obtain ⟨htx, hnil⟩ := hguard
      cases hwrite : writeFDTxMb L s i (n.mem (s.mailboxOffset i)) f with
      | none => exact h
      | some writes =>
        refine h.of_buffer (i := i) (fun _ _ _ _ => rfl) (update_other _ _) (update_other _ _) (fun _ _ => rfl) ?_ ?_
        · intro _
          dsimp only
          rw [Function.update_self, Function.update_self]
          have hphase := h.sending i htx
          rw [hnil] at hphase
          exact hphase.write hwrite
        · intro hrx
          exact absurd (htx.symm.trans hrx) (by decide)
    · exact h
  | clear i enable =>
    unfold FlexCan.step
    dsimp only
    split_ifs with hguard
    · obtain ⟨htx, hnil⟩ := hguard
      refine h.of_buffer (i := i) (fun _ _ _ _ => rfl) (update_other _ _) (fun _ _ => rfl) (fun _ _ => rfl) ?_ ?_
      · intro _
        dsimp only
        rw [Function.update_self]
        have hphase := h.sending i htx
        rw [hnil] at hphase
        exact hphase.clear enable
      · intro hrx
        exact absurd (htx.symm.trans hrx) (by decide)
    · exact h
  | listen i config =>
    unfold FlexCan.step
    dsimp only
    split_ifs with hguard
    · refine h.of_buffer (i := i) (fun _ _ _ _ => rfl) (update_other _ _) (fun _ _ => rfl) (fun _ _ => rfl) ?_ ?_
      · intro htx
        exact absurd htx hguard.1
      · intro hrx
        dsimp only
        rw [Function.update_self]
        exact ⟨(h.receiving i hrx).1, fun w hw => setFDRxMbConfig_inMailbox hw⟩
    · exact h
  | store i =>
    unfold FlexCan.step
    dsimp only
    cases hpending : n.pending i with
    | nil => exact h
    | cons w rest =>
      dsimp only
      by_cases htx : tx i = true
      · have hphase := h.sending i htx
        rw [hpending] at hphase
        obtain ⟨hnext, hin⟩ := hphase.store
        refine h.of_buffer (i := i) (mem_update_other _ hin) (update_other _ _) (fun _ _ => rfl) (fun _ _ => rfl) ?_ ?_
        · intro _
          dsimp only
          rw [Function.update_self]
          exact hnext
        · intro hrx
          exact absurd (htx.symm.trans hrx) (by decide)
      · obtain ⟨hsent, hall⟩ := h.receiving i (Bool.eq_false_iff.mpr htx)
        rw [hpending] at hall
        refine h.of_buffer (i := i) (mem_update_other _ (hall w List.mem_cons_self)) (update_other _ _) (fun _ _ => rfl)
          (fun _ _ => rfl) ?_ ?_
        · intro htx'
          exact absurd htx' htx
        · intro _
          dsimp only
          rw [Function.update_self]
          exact ⟨hsent, fun w' hw' => hall w' (List.mem_cons_of_mem _ hw')⟩
  | transmit i cs =>
    unfold FlexCan.step
    dsimp only
    split_ifs with hguard
    · obtain ⟨htx, hactive, hcs⟩ := hguard
      refine h.of_buffer (i := i) (mem_update_other _ (inMailbox_offset i)) (fun _ _ => rfl) (fun _ _ => rfl)
        (update_other _ _) ?_ ?_
      · intro _
        dsimp only
        rw [Function.update_self]
        exact (h.sending i htx).transmit hactive hcs
      · intro hrx
        exact absurd (htx.symm.trans hrx) (by decide)
    · exact h
  | receive i content =>
    unfold FlexCan.step
    dsimp only
    split_ifs with hguard
    · exact h
    · refine h.of_buffer (i := i) (fun j hj a ha => if_neg (fun hi => hj (inMailbox_unique ha hi))) (fun _ _ => rfl)
        (fun _ _ => rfl) (fun _ _ => rfl) ?_ ?_
      · intro htx
        exact absurd htx hguard
      · intro hrx
        exact h.receiving i hrx

lemma kept_start {mem : Nat → BitVec 32} (hmem : ∀ mbIdx, tx mbIdx = true → Inactive L s mbIdx mem) :
    Kept L s tx (Node.start mem) where
  sending i hi := .idle (hmem i hi) (fun _ hw => absurd hw List.not_mem_nil) List.Sublist.slnil
  receiving _ _ := ⟨rfl, fun _ hw => absurd hw List.not_mem_nil⟩

lemma Kept.run (h : Kept L s tx n) (events : List Event) : Kept L s tx (events.foldl (FlexCan.step L s tx) n) := by
  induction events generalizing n with
  | nil => exact h
  | cons e events ih => exact ih (h.step e)

/-- In every run the bus sees whole frames only, in the order in which they were accepted and each at most once; a buffer
that asks to be sent shows the frame accepted last, which the bus has not seen. -/
theorem sent_sublist_accepted {mem : Nat → BitVec 32} (hmem : ∀ mbIdx, tx mbIdx = true → Inactive L s mbIdx mem)
    (events : List Event) (mbIdx : Nat) :
    let n := events.foldl (FlexCan.step L s tx) (Node.start mem)
    (n.sent mbIdx).Sublist ((n.accepted mbIdx).map (FdFrame.trim s)) ∧
      (tx mbIdx = true → L.code.get (n.mem (s.mailboxOffset mbIdx)) = txMbDataOrRemote →
        ∃ before f, n.accepted mbIdx = before ++ [f] ∧ shownFrame L s mbIdx n.mem = f.trim s ∧
          (n.sent mbIdx).Sublist (before.map (FdFrame.trim s))) := by
  intro n
  have hkept : Kept L s tx n := (kept_start hmem).run events
  constructor
  · by_cases htx : tx mbIdx = true
    · cases hkept.sending mbIdx htx with
      | idle inactive harmless sublist => exact sublist
      | starting before f cs inactive code accepted_eq sublist pending_eq =>
        rw [accepted_eq]
        exact sublist_append sublist
      | filling before f done rest inactive accepted_eq sublist fill written pending_eq =>
        rw [accepted_eq]
        exact sublist_append sublist
      | ready before f active accepted_eq sublist shown pending_eq =>
        rw [accepted_eq]
        exact sublist_append sublist
    · rw [(hkept.receiving mbIdx (Bool.eq_false_iff.mpr htx)).1]
      exact List.nil_sublist _
  · intro htx hactive
    cases hkept.sending mbIdx htx with
    | idle inactive harmless sublist => exact absurd hactive inactive
    | starting before f cs inactive code accepted_eq sublist pending_eq => exact absurd hactive inactive
    | filling before f done rest inactive accepted_eq sublist fill written pending_eq => exact absurd hactive inactive
    | ready before f active accepted_eq sublist shown pending_eq => exact ⟨before, f, accepted_eq, shown, sublist⟩

end Runs

/-- One placement of the fields. -/
def fieldPlaces : CsLayout where
  code := ⟨24, 4, by decide⟩
  timestamp := ⟨0, 16, by decide⟩
  dlc := ⟨16, 4, by decide⟩
  srr := ⟨22, 1, by decide⟩
  ide := ⟨21, 1, by decide⟩
  edl := ⟨31, 1, by decide⟩
  brs := ⟨30, 1, by decide⟩
  code_width := rfl
  timestamp_width := rfl
  dlc_width := rfl
  srr_width := rfl
  ide_width := rfl
  edl_width := rfl
  brs_width := rfl
  disjoint := by decide

/-- A frame of 64 bytes in the eighth buffer, sent by the controller while the next call clears the buffer. -/
theorem sent_sublist_accepted_cleared :
    let f : FdFrame := { id := 5, extended := true, length := 15, edl := true, brs := false, dataWord := fun cnt => BitVec.ofNat 32 cnt }
    let events := Event.write 7 f :: List.replicate 19 (.store 7) ++ [.clear 7 true, .transmit 7 0, .store 7]
    let n := events.foldl (FlexCan.step fieldPlaces .bytes64 (fun _ => true)) (Node.start (fun _ => 0))
    (n.sent 7).Sublist ((n.accepted 7).map (FdFrame.trim .bytes64)) :=
  have hmem : ∀ mbIdx, true = true → Inactive fieldPlaces .bytes64 mbIdx (fun _ => 0) :=
    fun _ _ => show fieldPlaces.code.get 0 ≠ txMbDataOrRemote by decide
  (sent_sublist_accepted hmem _ 7).1

end McuxDrivers.FlexCan

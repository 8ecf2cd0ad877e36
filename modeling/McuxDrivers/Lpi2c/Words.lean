import McuxDrivers.Lpi2c.Controller

/-!
# The words of a transfer

What the words of the command FIFO ask for, and the stream that a transfer stands for.
-/

namespace McuxDrivers.Lpi2c

/-- The bytes that a word asks for. -/
def asks (w : Word) : Nat :=
  if cmd w = 1 then (w.setWidth 8).toNat + 1 else 0

def requested (ws : List Word) : Nat :=
  (ws.map asks).sum

/-- A word that neither reads nor stops. -/
def Plain (w : Word) : Prop :=
  cmd w ≠ 1 ∧ cmd w ≠ 2

lemma Plain.asks {w : Word} (h : Plain w) : asks w = 0 :=
  if_neg h.1

lemma plain_byte (b : Byte) : Plain (b.setWidth 16) := by
  have hcmd : cmd (b.setWidth 16) = 0 := by
    ext i hi
    simp only [cmd, BitVec.getElem_extractLsb', BitVec.getLsbD_setWidth]
    simp
  rw [Plain, hcmd]
  decide

lemma plain_startCommand (t : Transfer) (direction : Direction) : Plain (startCommand t direction) := by
  have hbit : (cmd (startCommand t direction)).getLsbD 2 = true := by
    simp [cmd, startCommand, kStartCmd]
  constructor
  · intro h
    rw [h] at hbit
    exact absurd hbit (by decide)
  · intro h
    rw [h] at hbit
    exact absurd hbit (by decide)

lemma cmd_rxCommand (x : Nat) : cmd (rxCommand x) = 1 := by
  have hlow : ((BitVec.ofNat 8 x).setWidth 16).extractLsb' 8 3 = 0#3 := (by
    ext i hi
    simp only [BitVec.getElem_extractLsb', BitVec.getLsbD_setWidth, BitVec.getElem_zero]
    simp)
  rw [cmd, rxCommand, BitVec.extractLsb'_or, hlow]
  decide

lemma asks_rxCommand {x : Nat} (h : x < 256) : asks (rxCommand x) = x + 1 := by
  have hlow : (rxCommand x).setWidth 8 = BitVec.ofNat 8 x := by
    rw [rxCommand, BitVec.setWidth_or]
    ext i hi
    simp [kRxDataCmd]
  rw [asks, if_pos (cmd_rxCommand x), hlow, BitVec.toNat_ofNat, Nat.mod_eq_of_lt h]

lemma requested_append (l l' : List Word) : requested (l ++ l') = requested l + requested l' := by
  rw [requested, List.map_append, List.sum_append]
  rfl

lemma requested_cons (w : Word) (l : List Word) : requested (w :: l) = asks w + requested l := by
  rw [requested, List.map_cons, List.sum_cons]
  rfl

lemma requested_plain {l : List Word} (h : ∀ w ∈ l, Plain w) : requested l = 0 := by
  induction l with
  | nil => rfl
  | cons w l ih =>
    rw [requested_cons, (h w List.mem_cons_self).asks, ih (fun w' hw' => h w' (List.mem_cons_of_mem _ hw'))]

lemma plain_subaddressBytes (subaddress : BitVec 32) (n : Nat) : ∀ w ∈ subaddressBytes subaddress n, Plain w := by
  induction n with
  | zero => exact fun w hw => absurd hw List.not_mem_nil
  | succ n ih =>
    intro w hw
    rcases List.mem_cons.mp hw with rfl | hw
    · exact plain_byte _
    · exact ih w hw

lemma length_subaddressBytes (subaddress : BitVec 32) (n : Nat) : (subaddressBytes subaddress n).length = n := by
  induction n with
  | zero => rfl
  | succ n ih => rw [subaddressBytes, List.length_cons, ih]

lemma plain_repeatedStart (t : Transfer) : ∀ w ∈ repeatedStart t, Plain w := by
  intro w hw
  rw [repeatedStart] at hw
  split at hw
  · rw [List.mem_singleton.mp hw]
    exact plain_startCommand t .read
  · exact absurd hw List.not_mem_nil

lemma cmd_rxCommands (rounds n : Nat) : ∀ w ∈ rxCommands rounds n, cmd w = 1 := by
  induction rounds generalizing n with
  | zero => exact fun w hw => absurd hw List.not_mem_nil
  | succ rounds ih =>
    intro w hw
    rw [rxCommands] at hw
    split at hw
    · exact absurd hw List.not_mem_nil
    · split at hw
      · rcases List.mem_cons.mp hw with rfl | hw
        · exact cmd_rxCommand _
        · exact ih _ w hw
      · rw [List.mem_singleton.mp hw]
        exact cmd_rxCommand _

/-- The read commands ask for all the bytes. -/
lemma requested_rxCommands {rounds n : Nat} (h : n ≤ rounds) : requested (rxCommands rounds n) = n := by
  induction rounds generalizing n with
  | zero => rw [Nat.le_zero.mp h]; rfl
  | succ rounds ih =>
    rw [rxCommands]
    split
    next hzero => rw [hzero]; rfl
    next hpos =>
      split
      next hmany =>
        rw [requested_cons, asks_rxCommand (by decide), ih (by omega)]
        omega
      next hfew =>
        rw [requested_cons, asks_rxCommand (by omega)]
        show n - 1 + 1 + 0 = n
        omega

lemma length_rxCommands {rounds n : Nat} (h : n ≤ rounds) : (rxCommands rounds n).length = (n + 255) / 256 := by
  induction rounds generalizing n with
  | zero => rw [Nat.le_zero.mp h]; rfl
  | succ rounds ih =>
    rw [rxCommands]
    split
    next hzero => rw [hzero]; rfl
    next hpos =>
      split
      next hmany =>
        rw [List.length_cons, ih (by omega)]
        omega
      next hfew =>
        rw [List.length_singleton]
        omega

/-- The data of a transfer: the bytes themselves, or what asks for them. -/
def dataWords (t : Transfer) (memory : Nat → Byte) : List Word :=
  match t.direction with
  | .write => (List.range t.dataSize.toNat).map fun i => (memory i).setWidth 16
  | .read => rxCommands t.dataSize.toNat t.dataSize.toNat

/-- Start, subaddress and repeated start. -/
def addressWords (t : Transfer) : List Word :=
  if t.noStart then []
  else startCommand t (startDirection t) :: subaddressBytes t.subaddress t.subaddressSize ++ repeatedStart t

def stopWords (t : Transfer) : List Word :=
  if t.noStop then [] else [kStopCmd]

/-- The words that the transfer stands for. -/
def stream (t : Transfer) (memory : Nat → Byte) : List Word :=
  addressWords t ++ dataWords t memory ++ stopWords t

lemma plain_addressWords (t : Transfer) : ∀ w ∈ addressWords t, Plain w := by
  intro w hw
  rw [addressWords] at hw
  split at hw
  · exact absurd hw List.not_mem_nil
  · rcases List.mem_append.mp hw with hw | hw
    · rcases List.mem_cons.mp hw with rfl | hw
      · exact plain_startCommand t _
      · exact plain_subaddressBytes _ _ w hw
    · exact plain_repeatedStart t w hw

lemma plain_memory (memory : Nat → Byte) (n : Nat) : ∀ w ∈ (List.range n).map fun i => (memory i).setWidth 16, Plain w := by
  intro w hw
  obtain ⟨i, -, rfl⟩ := List.mem_map.mp hw
  exact plain_byte _

lemma requested_addressWords (t : Transfer) : requested (addressWords t) = 0 :=
  requested_plain (plain_addressWords t)

end McuxDrivers.Lpi2c

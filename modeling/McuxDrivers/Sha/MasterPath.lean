import McuxDrivers.Sha.Streaming

/-!
# The AHB master path of `SHA_Update`

For a message in SRAMX or SRAM0 the engine fetches the blocks itself. The address check lets messages
before SRAMX through, the number of blocks is not cut to the field's 11 bits, and behind a partly filled
buffer the blocks need not begin at a word.
-/

namespace McuxDrivers.Sha
open McuxDrivers.Lib

/-- What an engine reads from an address in `MEMADDR`, given the bytes that lie there: the bytes
themselves if the address is on a x4 boundary. -/
structure Fetch where
  read : Nat → List UInt8 → List UInt8
  aligned : ∀ address bytes, address % 4 = 0 → read address bytes = bytes

/-- How many bytes of the message the buffer takes. -/
def toCopy (blksz : Nat) : Nat :=
  if blksz ≠ 0 then shaBlockSize - blksz else 0

/-- `sha_process_message_data_master` for a message at `addr`, with what the engine reads. -/
def shaProcessMessageDataMasterAt (fetch : Fetch) (addr : Nat) (e : Engine) (ctx : Ctx) (message : List UInt8) :
    Engine × Ctx :=
  let memaddr := (addr + toCopy ctx.blksz + shaBlockSize) % 2 ^ 32
  let (e, ctx, message) := fillBuffer e ctx message
  if message.length ≥ shaBlockSize then
    let e := shaOneBlock e message
    let message := message.drop shaBlockSize
    let blkNum := message.length / 64
    let e := memctrlMaster { e with memaddr := fetch.read memaddr message } blkNum
    (e, keepTail ctx (message.drop (blkNum * 64)))
  else (e, keepTail ctx message)

/-- An engine that reads the bytes at every address. -/
def exactFetch : Fetch :=
  ⟨fun _ bytes => bytes, fun _ _ _ => rfl⟩

/-- With such an engine it is the function without addresses. -/
theorem shaProcessMessageDataMasterAt_exactFetch (addr : Nat) (e : Engine) (ctx : Ctx) (message : List UInt8) :
    shaProcessMessageDataMasterAt exactFetch addr e ctx message = shaProcessMessageDataMaster e ctx message := rfl

/-- The number of blocks that `MEMCTRL` asks for. -/
def masterBlocks (blksz messageSize : Nat) : Nat :=
  (messageSize - toCopy blksz) / 64 - 1

/-- SRAMX lies before SRAM0, and both in the address space. -/
structure Placed (map : MemMap) : Prop where
  before : map.sramxBase + map.sramxSize ≤ map.sram0Base
  fits : map.sram0Base + map.sram0Size < 2 ^ 32

/-- The whole message lies in SRAMX or in SRAM0. -/
def Inside (map : MemMap) (addr messageSize : Nat) : Prop :=
  (map.sramxBase ≤ addr ∧ addr + messageSize ≤ map.sramxBase + map.sramxSize) ∨
    (map.sram0Base ≤ addr ∧ addr + messageSize ≤ map.sram0Base + map.sram0Size)

/-- The engine may fetch the message, and whatever engine it is, the path does what the copy path does. -/
structure MasterAgrees (map : MemMap) (addr : Nat) (e : Engine) (ctx : Ctx) (message : List UInt8) : Prop where
  inside : Inside map addr message.length
  aligned : addr % 4 = 0
  log : ∀ fetch, (shaProcessMessageDataMasterAt fetch addr e ctx message).1.log = (shaProcessMessageData e ctx message).1.log
  ctx : ∀ fetch, (shaProcessMessageDataMasterAt fetch addr e ctx message).2 = (shaProcessMessageData e ctx message).2

/-- The message does not start before SRAMX or wrap around, and the blocks for the engine fit in the
count and begin at a word. -/
structure Handled (map : MemMap) (addr blksz messageSize : Nat) : Prop where
  start : map.sramxBase ≤ addr
  noWrap : addr + messageSize < 2 ^ 32
  count : masterBlocks blksz messageSize < 2 ^ 11
  word : masterBlocks blksz messageSize = 0 ∨ blksz % 4 = 0

section Regions

variable {map : MemMap} {addr messageSize : Nat}

lemma shaCheckMemoryBoundry_success (h : shaCheckMemoryBoundry map addr messageSize = .success) :
    addr % 4 = 0 ∧ (addr + messageSize) % 2 ^ 32 ≤ map.sram0Base + map.sram0Size ∧
      ((addr + messageSize) % 2 ^ 32 ≤ map.sramxBase + map.sramxSize ∨ map.sram0Base ≤ addr) := by
  unfold shaCheckMemoryBoundry at h
  split at h
  · nomatch h
  · split at h
    · nomatch h
    · split at h
      · nomatch h
      · omega

/-- The check means what it should for messages that do not start before SRAMX or wrap around. -/
lemma inside_iff (hmap : Placed map) (h : shaCheckMemoryBoundry map addr messageSize = .success) :
    Inside map addr messageSize ↔ map.sramxBase ≤ addr ∧ addr + messageSize < 2 ^ 32 := by
  obtain ⟨-, hend, hplace⟩ := shaCheckMemoryBoundry_success h
  have hbefore := hmap.before
  have hfits := hmap.fits
  unfold Inside
  constructor
  · intro hinside
    omega
  · rintro ⟨hstart, hwrap⟩
    rw [Nat.mod_eq_of_lt hwrap] at hend hplace
    omega

end Regions

section Blocks

lemma blocksOf_take_whole {n : Nat} (hn : 0 < n) (l : List UInt8) :
    blocksOf n (l.take (l.length / n * n)) = blocksOf n l := by
  have hlength : (l.take (l.length / n * n)).length = l.length / n * n := by
    rw [List.length_take]
    exact min_eq_left (Nat.div_mul_le_self _ _)
  obtain ⟨happend, -⟩ := blocksOf_append_mul hn (l.length / n) (l.take (l.length / n * n)) (l.drop (l.length / n * n)) hlength
  have hrest : blocksOf n (l.drop (l.length / n * n)) = [] := blocksOf_of_length_lt (length_tailOf_lt hn l)
  rw [List.take_append_drop, hrest, List.append_nil] at happend
  exact happend.symm

lemma blocksOf_of_le {n : Nat} (hn : 0 < n) {l : List UInt8} (h : n ≤ l.length) :
    blocksOf n l = l.take n :: blocksOf n (l.drop n) ∧ tailOf n l = tailOf n (l.drop n) := by
  have hlength : (l.take n).length = n := by
    rw [List.length_take]
    exact min_eq_left h
  have hcons := blocksOf_cons hn (l.take n) (l.drop n) hlength
  have htail := tailOf_append hn (l.take n) (l.drop n) hlength
  rw [List.take_append_drop] at hcons htail
  exact ⟨hcons, htail⟩

end Blocks

section Paths

variable {e : Engine} {ctx : Ctx} {message : List UInt8}

lemma fillBuffer_message (e : Engine) (ctx : Ctx) (message : List UInt8) :
    (fillBuffer e ctx message).2.2 = message.drop (toCopy ctx.blksz) := by
  unfold fillBuffer toCopy
  split
  · rfl
  · rfl

/-- The address for the engine, and the bytes there. -/
def memaddrOf (addr : Nat) (ctx : Ctx) : Nat :=
  (addr + toCopy ctx.blksz + shaBlockSize) % 2 ^ 32

def masterBytes (ctx : Ctx) (message : List UInt8) : List UInt8 :=
  (message.drop (toCopy ctx.blksz)).drop 64

/-- The paths leave the same context, and feed the same blocks if the engine fetches those of the message. -/
lemma paths_agree_iff (fetch : Fetch) (addr : Nat) (e : Engine) (ctx : Ctx) (message : List UInt8) :
    ((shaProcessMessageDataMasterAt fetch addr e ctx message).1.log = (shaProcessMessageData e ctx message).1.log ↔
      blocksOf 64 ((fetch.read (memaddrOf addr ctx) (masterBytes ctx message)).take
        ((masterBytes ctx message).length / 64 % 2 ^ 11 * 64)) = blocksOf 64 (masterBytes ctx message)) ∧
    (shaProcessMessageDataMasterAt fetch addr e ctx message).2 = (shaProcessMessageData e ctx message).2 := by
  obtain ⟨rest, hrest⟩ : ∃ rest, rest = message.drop (toCopy ctx.blksz) := ⟨_, rfl⟩
  obtain ⟨e₁, ctx₁, hfill⟩ : ∃ e₁ ctx₁, fillBuffer e ctx message = (e₁, ctx₁, rest) := by
    refine ⟨(fillBuffer e ctx message).1, (fillBuffer e ctx message).2.1, ?_⟩
    rw [hrest, ← fillBuffer_message e ctx message]
  have hbytes : masterBytes ctx message = rest.drop 64 := by rw [masterBytes, hrest]
  have hslow : shaProcessMessageData e ctx message =
      ({ e₁ with log := e₁.log ++ (blocksOf 64 rest).map .block }, keepTail ctx₁ (tailOf 64 rest)) := by
    rw [shaProcessMessageData, hfill]
    simp only [feedBlocks_shaOneBlock]
  rw [hslow, hbytes]
  by_cases hlong : 64 ≤ rest.length
  · have hfull : rest.length ≥ shaBlockSize := hlong
    obtain ⟨hblocks, htail⟩ := blocksOf_of_le (by decide) hlong
    have hfast : shaProcessMessageDataMasterAt fetch addr e ctx message =
        (memctrlMaster { shaOneBlock e₁ rest with memaddr := fetch.read (memaddrOf addr ctx) (rest.drop 64) }
          ((rest.drop 64).length / 64), keepTail ctx₁ (tailOf 64 (rest.drop 64))) := by
      rw [shaProcessMessageDataMasterAt, hfill]
      simp only [if_pos hfull]
      rfl
    have hinj : Function.Injective (List.map EngineOp.block) :=
      List.map_injective_iff.mpr fun _ _ heq => EngineOp.block.inj heq
    rw [hfast]
    refine ⟨?_, congrArg (keepTail ctx₁) htail.symm⟩
    show e₁.log ++ [.block (rest.take 64)] ++ List.map .block _ = e₁.log ++ List.map .block (blocksOf 64 rest) ↔ _
    rw [hblocks, List.map_cons, List.append_assoc, List.singleton_append, List.append_cancel_left_eq, List.cons.injEq,
      hinj.eq_iff, and_iff_right rfl]
    rfl
  · have hfull : ¬ rest.length ≥ shaBlockSize := hlong
    have hshort : rest.length < 64 := Nat.lt_of_not_le hlong
    have hfast : shaProcessMessageDataMasterAt fetch addr e ctx message = (e₁, keepTail ctx₁ rest) := by
      rw [shaProcessMessageDataMasterAt, hfill]
      simp only [if_neg hfull]
    have hnil : rest.drop 64 = [] := List.drop_eq_nil_of_le hshort.le
    rw [hfast, hnil, blocksOf_of_length_lt hshort, tailOf_of_length_lt hshort]
    refine ⟨iff_of_true ?_ ?_, rfl⟩
    · exact (List.append_nil _).symm
    · rfl

lemma length_masterBytes (ctx : Ctx) (message : List UInt8) :
    (masterBytes ctx message).length / 64 = masterBlocks ctx.blksz message.length := by
  rw [masterBytes, masterBlocks, List.length_drop, List.length_drop]
  omega

/-- An engine that reads wrong bytes from other addresses than words. -/
def brokenFetch : Fetch where
  read address bytes := if address % 4 = 0 then bytes else bytes.map (· + 1)
  aligned _ _ h := if_pos h

lemma add_one_ne (x : UInt8) : x + 1 ≠ x := by
  intro h
  have := congrArg UInt8.toNat h
  rw [UInt8.toNat_add] at this
  have hone : (1 : UInt8).toNat = 1 := rfl
  have := x.toNat_lt
  omega

/-- Other bytes give other blocks. -/
lemma blocksOf_map_ne {l : List UInt8} (h : 64 ≤ l.length) :
    blocksOf 64 ((l.map (· + 1)).take (l.length / 64 * 64)) ≠ blocksOf 64 l := by
  intro heq
  have hwhole : 64 ≤ ((l.map (· + 1)).take (l.length / 64 * 64)).length := by
    rw [List.length_take, List.length_map]
    omega
  rw [(blocksOf_of_le (by decide) hwhole).1, (blocksOf_of_le (by decide) h).1, List.take_take, min_eq_left (by omega)] at heq
  have hblock := (List.cons.inj heq).1
  cases l with
  | nil => nomatch h
  | cons x xs => exact add_one_ne x (List.cons.inj hblock).1

/-- Every engine fetches the blocks exactly when their number fits and they begin at a word. -/
lemma fetched_iff (address : Nat) (r : List UInt8) :
    (∀ fetch : Fetch, blocksOf 64 ((fetch.read address r).take (r.length / 64 % 2 ^ 11 * 64)) = blocksOf 64 r) ↔
      r.length / 64 < 2 ^ 11 ∧ (r.length / 64 = 0 ∨ address % 4 = 0) := by
  constructor
  · intro h
    have hcount : r.length / 64 < 2 ^ 11 := by
      by_contra hmany
      have hlength := congrArg List.length (h exactFetch)
      simp only [exactFetch, blocksOf, List.length_map, List.length_range, List.length_take] at hlength
      omega
    refine ⟨hcount, or_iff_not_imp_left.mpr fun hsome => ?_⟩
    by_contra hword
    have hbroken : brokenFetch.read address r = r.map (· + 1) := if_neg hword
    have hsame := h brokenFetch
    rw [hbroken, Nat.mod_eq_of_lt hcount] at hsame
    exact blocksOf_map_ne (by omega) hsame
  · rintro ⟨hcount, hnone | hword⟩ fetch
    · rw [hnone, Nat.zero_mod, Nat.zero_mul, List.take_zero, blocksOf_nil]
      exact (blocksOf_of_length_lt (by omega)).symm
    · rw [fetch.aligned address r hword, Nat.mod_eq_of_lt hcount, blocksOf_take_whole (by decide)]

end Paths

/-- When the AHB master path may be taken and does what the copy path does. -/
theorem masterAgrees_iff (map : MemMap) (hmap : Placed map) (addr : Nat) (e : Engine) (ctx : Ctx) (message : List UInt8)
    (hblksz : ctx.blksz ≤ 64) :
    (shaCheckMemoryBoundry map addr message.length = .success → MasterAgrees map addr e ctx message) ↔
      (shaCheckMemoryBoundry map addr message.length = .success → Handled map addr ctx.blksz message.length) := by
  apply imp_congr_right
  intro hcheck
  have hinside := inside_iff hmap hcheck
  have haligned := (shaCheckMemoryBoundry_success hcheck).1
  have hword : memaddrOf addr ctx % 4 = 0 ↔ ctx.blksz % 4 = 0 := by
    unfold memaddrOf toCopy shaBlockSize
    split <;> omega
  have hfetched := fetched_iff (memaddrOf addr ctx) (masterBytes ctx message)
  rw [length_masterBytes, hword] at hfetched
  have hpaths (fetch : Fetch) := paths_agree_iff fetch addr e ctx message
  constructor
  · intro h
    obtain ⟨hstart, hwrap⟩ := hinside.mp h.inside
    have hall : ∀ fetch : Fetch, blocksOf 64 ((fetch.read (memaddrOf addr ctx) (masterBytes ctx message)).take
        (masterBlocks ctx.blksz message.length % 2 ^ 11 * 64)) = blocksOf 64 (masterBytes ctx message) := by
      intro fetch
      rw [← length_masterBytes]
      exact (hpaths fetch).1.mp (h.log fetch)
    obtain ⟨hcount, hwords⟩ := hfetched.mp hall
    exact ⟨hstart, hwrap, hcount, hwords⟩
  · intro h
    refine ⟨hinside.mpr ⟨h.start, h.noWrap⟩, haligned, fun fetch => ?_, fun fetch => (hpaths fetch).2⟩
    rw [(hpaths fetch).1, length_masterBytes]
    exact hfetched.mpr ⟨h.count, h.word⟩ fetch

/-- 192 KB of SRAMX and 64 KB of SRAM0. -/
def exampleMap : MemMap :=
  ⟨0, 0x30000, 0x20000000, 0x10000⟩

lemma exampleMap_placed : Placed exampleMap :=
  ⟨by decide, by decide⟩

theorem masterAgrees_two_blocks :
    MasterAgrees exampleMap 0x20000000 idleSys.engine idleSys.ctx (List.replicate 128 0) := by
  have hlength : (List.replicate 128 (0 : UInt8)).length = 128 := List.length_replicate
  apply (masterAgrees_iff exampleMap exampleMap_placed 0x20000000 idleSys.engine idleSys.ctx (List.replicate 128 0)
    (by decide)).mpr
  · intro _
    rw [hlength]
    exact ⟨by decide, by decide, by decide, Or.inr rfl⟩
  · rw [hlength]
    decide

/-- 2050 blocks in SRAMX: the engine is asked for 2049, and fetches one. -/
theorem not_masterAgrees : ¬ ∀ (map : MemMap) (addr : Nat) (e : Engine) (ctx : Ctx) (message : List UInt8), Placed map →
    addr < 2 ^ 32 → ctx.blksz ≤ 64 → 64 < ctx.blksz + message.length → message.length < 2 ^ 32 →
    shaCheckMemoryBoundry map addr message.length = .success → MasterAgrees map addr e ctx message := by
  intro h
  have hlength : (List.replicate 131200 (0 : UInt8)).length = 131200 := List.length_replicate
  have hagrees := h exampleMap 0 idleSys.engine idleSys.ctx (List.replicate 131200 0) exampleMap_placed (by decide)
    (by decide) (by rw [hlength]; decide) (by rw [hlength]; decide) (by rw [hlength]; decide)
  have hblocks : (masterBytes idleSys.ctx (List.replicate 131200 0)).length / 64 = 2049 := by
    rw [length_masterBytes, hlength]
    rfl
  have hfetched : ∀ fetch : Fetch, blocksOf 64 ((fetch.read (memaddrOf 0 idleSys.ctx)
      (masterBytes idleSys.ctx (List.replicate 131200 0))).take
        ((masterBytes idleSys.ctx (List.replicate 131200 0)).length / 64 % 2 ^ 11 * 64)) =
      blocksOf 64 (masterBytes idleSys.ctx (List.replicate 131200 0)) := by
    intro fetch
    exact (paths_agree_iff fetch 0 idleSys.engine idleSys.ctx (List.replicate 131200 0)).1.mp (hagrees.log fetch)
  have hcount := ((fetched_iff _ _).mp hfetched).1
  rw [hblocks] at hcount
  exact absurd hcount (by decide)

end McuxDrivers.Sha

import Mips32.Batch
import Mips32.Proofs.Stream.Items

/-! # Decoding at once and word by word

    A batch cuts its buffer into words and gives each the address of its index;
    a cursor steps from address to address and meets the tail while it fills a
    word.  Both have the CLOSED form of the flat stream, so they agree, whoever
    decodes the batch and in whatever pieces the cursor reads.

    Main statement: `Batch.decodeOn_eq_collect`. -/

namespace Mips32

/-! ## Cutting a buffer -/

namespace LittleEndian

/-- Cutting goes on behind the words that were cut already. -/
theorem wordsOnto_eq (acc : Array Word) (bytes : List UInt8) :
    (wordsOnto acc bytes).1.toList
        = acc.toList ++ (List.range (bytes.length / 4)).map (Flat.wordAt bytes) ∧
      (wordsOnto acc bytes).2 = bytes.drop (4 * (bytes.length / 4)) := by
  fun_induction wordsOnto acc bytes with
  | case1 acc a b c d rest ih =>
      have hle : 4 ≤ (a :: b :: c :: d :: rest).length := by
        simp only [List.length_cons]
        omega
      have hsize : (a :: b :: c :: d :: rest).length / 4 = rest.length / 4 + 1 := by
        simp only [List.length_cons]
        omega
      have hdrop : (a :: b :: c :: d :: rest).drop (4 * (rest.length / 4 + 1))
          = rest.drop (4 * (rest.length / 4)) := by
        rw [Nat.mul_add, Nat.add_comm, ← List.drop_drop]
        rfl
      have hbehind : (List.range (rest.length / 4)).map
            (Flat.wordAt (a :: b :: c :: d :: rest) ∘ Nat.succ)
          = (List.range (rest.length / 4)).map (Flat.wordAt rest) :=
        List.map_congr_left fun i _ => Flat.wordAt_succ _ i
      obtain ⟨hwords, htail⟩ := ih
      rw [hsize, hdrop]
      refine ⟨?_, htail⟩
      rw [hwords, Array.toList_push, List.append_assoc, List.range_succ_eq_map, List.map_cons,
        List.map_map, hbehind, Flat.wordAt_zero hle]
      rfl
  | case2 acc tail hshort =>
      have hlt : tail.length < 4 := by
        match tail, hshort with
        | [], _ | [_], _ | [_, _], _ | [_, _, _], _ => simp
        | a :: b :: c :: d :: rest, h => exact absurd rfl (h a b c d rest)
      have hsize : tail.length / 4 = 0 := by omega
      rw [hsize]
      exact ⟨(List.append_nil _).symm, rfl⟩

end LittleEndian

/-! ## Decoding on a pool -/

namespace Batch

theorem Pool.InOrder.eq_mapIdx {pool : Pool} (h : pool.InOrder)
    (decodeAt : Nat → Word → Item) (words : Array Word) :
    pool decodeAt words = words.mapIdx decodeAt := by
  apply Array.ext_getElem?
  intro i
  rw [h decodeAt words i, Array.getElem?_mapIdx]

theorem Pool.inTurn_inOrder : inTurn.InOrder := fun _ _ _ => Array.getElem?_mapIdx

/-- Workers with a run of neighbouring words each: the first one takes its share,
    the others what is left, and the runs are put together again. -/
def Pool.sharing : Nat → Pool
  | 0 => .inTurn
  | others + 1 => fun decodeAt words =>
    let share := words.size / (others + 1)
    (words.extract 0 share).mapIdx decodeAt
      ++ sharing others (fun i => decodeAt (share + i)) (words.extract share words.size)

theorem Pool.sharing_inOrder (workers : Nat) : (sharing workers).InOrder := by
  induction workers with
  | zero => exact inTurn_inOrder
  | succ others ih =>
      intro decodeAt words i
      have hshare : words.size / (others + 1) ≤ words.size := Nat.div_le_self _ _
      simp only [sharing]
      generalize words.size / (others + 1) = share at hshare ⊢
      have hsize : ((words.extract 0 share).mapIdx decodeAt).size = share := by
        simp [hshare]
      rw [Array.getElem?_append, hsize]
      by_cases hi : i < share
      · rw [if_pos hi, Array.getElem?_mapIdx, Array.getElem?_extract, if_pos (by omega),
          Nat.zero_add]
      · have hover : share + (i - share) = i := by omega
        rw [if_neg hi, ih, Array.getElem?_extract]
        by_cases hlt : i < words.size
        · rw [if_pos (by omega), hover]
        · rw [if_neg (by omega), Array.getElem?_eq_none (Nat.le_of_not_lt hlt)]
          rfl

/-- Pools that share the words among as many workers as were asked for. -/
def Pools.sharing : Pools where
  start workers := .ok (.sharing workers)
  shared := .sharing 1

theorem Pools.sharing_start : sharing.Start := fun workers => ⟨.sharing workers, rfl⟩

theorem Pools.sharing_inOrder : sharing.InOrder where
  start := by
    rintro workers pool ⟨⟩
    exact Pool.sharing_inOrder workers
  shared := Pool.sharing_inOrder 1

/-- **A BATCH HAS THE CLOSED FORM** of its bytes as a stream that just ends. -/
theorem decodeOn_eq_items {pool : Pool} (h : pool.InOrder) (bytes : List UInt8)
    (base : Address) : decodeOn pool bytes base = (⟨bytes, none⟩ : Flat).items base := by
  obtain ⟨hwords, htail⟩ := LittleEndian.wordsOnto_eq #[] bytes
  rw [← LittleEndian.words] at hwords htail
  have hsize : (LittleEndian.words bytes).1.size = bytes.length / 4 := by
    rw [← Array.length_toList, hwords]
    simp
  have hdecoded : (pool (fun i w => decode w (base.word i)) (LittleEndian.words bytes).1).toList
      = (List.range (bytes.length / 4)).map
          (fun i => decode (Flat.wordAt bytes i) (Flat.addressAt base i)) := by
    rw [h.eq_mapIdx, Array.toList_mapIdx, hwords]
    apply List.ext_getElem
    · simp
    · intro i _ _
      simp [Flat.addressAt_eq_word]
  have hlength : (LittleEndian.words bytes).2.length = bytes.length % 4 := by
    rw [htail, List.length_drop]
    omega
  simp only [decodeOn, items, Flat.items, Flat.closing]
  by_cases hmod : bytes.length % 4 = 0
  · have hempty : (LittleEndian.words bytes).2.isEmpty = true := by
      rw [List.isEmpty_iff, ← List.length_eq_zero_iff, hlength, hmod]
    rw [if_pos hempty, if_pos hmod, hdecoded, List.append_nil]
  · have hnonempty : ¬ (LittleEndian.words bytes).2.isEmpty = true := by
      rw [List.isEmpty_iff, ← List.length_eq_zero_iff, hlength]
      exact hmod
    rw [if_neg hnonempty, if_neg hmod, Array.toList_push, hdecoded, hsize, hlength,
      Flat.addressAt_eq_word]

/-- The same items come from the pool that was asked for and from the one that
    stands in for it. -/
theorem Pools.decode_eq_items {pools : Pools} (h : pools.InOrder) (bytes : List UInt8)
    (base : Address) (workers : Nat) :
    (pools.decode bytes base workers).2 = (⟨bytes, none⟩ : Flat).items base := by
  rw [decode]
  cases hstart : pools.start workers with
  | ok pool => exact decodeOn_eq_items (h.start workers pool hstart) bytes base
  | error reason => exact decodeOn_eq_items h.shared bytes base

/-- **AT ONCE OR WORD BY WORD**: on any number of workers, whose results are in
    order, a buffer decodes to the items of a cursor that reads it in one piece,
    or in any pieces and with any interruptions. -/
theorem decodeOn_eq_collect {workersOf : Nat → Pool} (h : ∀ workers, (workersOf workers).InOrder)
    (bytes : List UInt8) (base : Address) (workers : Nat) :
    decodeOn (workersOf workers) bytes base = (Cursor.start base [.data bytes]).collect ∧
      ∀ events, Flat.ofEvents events = ⟨bytes, none⟩ →
        decodeOn (workersOf workers) bytes base = (Cursor.start base events).collect := by
  have hevents (events : List Event) (hflat : Flat.ofEvents events = ⟨bytes, none⟩) :
      decodeOn (workersOf workers) bytes base = (Cursor.start base events).collect := by
    rw [Cursor.collect_start, hflat]
    exact decodeOn_eq_items (h workers) bytes base
  refine ⟨hevents _ ?_, hevents⟩
  cases bytes with
  | nil => rfl
  | cons b bs =>
      rw [Flat.ofEvents_of_not_ends rfl]
      simp [Flat.ofEvents_nil, Flat.behind, Event.held]

/-- Three workers over the end of the address space, and a reader that is
    interrupted inside the second word. -/
theorem decodeOn_eq_collect_three_workers :
    (∀ workers, (Pool.sharing workers).InOrder) ∧
    Flat.ofEvents
        [.data [0, 0, 0, 0, 8], .fail ⟨.interrupted, "again"⟩, .data [0, 0xE0, 3, 9], .stop]
      = ⟨[0, 0, 0, 0, 8, 0, 0xE0, 3, 9], none⟩ ∧
    decodeOn (Pool.sharing 3) [0, 0, 0, 0, 8, 0, 0xE0, 3, 9] 0xFFFFFFFC
      = (Cursor.start 0xFFFFFFFC
          [.data [0, 0, 0, 0, 8], .fail ⟨.interrupted, "again"⟩,
            .data [0, 0xE0, 3, 9], .stop]).collect :=
  ⟨Pool.sharing_inOrder, rfl,
    (decodeOn_eq_collect Pool.sharing_inOrder _ 0xFFFFFFFC 3).2 _ rfl⟩

end Batch

end Mips32

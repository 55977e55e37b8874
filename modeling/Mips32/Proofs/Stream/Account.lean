import Mips32.Proofs.Stream.Parallel

/-! # Every byte is accounted for

    The items of a byte string carry their words and their addresses, whether
    they decoded or not.  Written down again, the words are the string without
    the bytes that are no word, and these are counted by the item at the end: no
    byte is lost, doubled or moved.

    `Accounts` is one statement on a string and its items.  It holds where there
    is no whole word, and a word in front keeps it, so it holds throughout.
    Main statement: `accounts_of_bytes`. -/

namespace Mips32

namespace LittleEndian

/-- A word in four bytes, the lowest first. -/
def bytes (w : Word) : List UInt8 :=
  [.ofNat w.toNat, .ofNat (w.toNat / 2 ^ 8), .ofNat (w.toNat / 2 ^ 16), .ofNat (w.toNat / 2 ^ 24)]

theorem bytes_word {bs : List UInt8} (h : bs.length = 4) : bytes (word bs) = bs := by
  obtain ⟨a, b, c, d, rfl⟩ : ∃ a b c d, bs = [a, b, c, d] := by
    match bs, h with
    | [a, b, c, d], _ => exact ⟨a, b, c, d, rfl⟩
  have ha := a.toNat_lt
  have hb := b.toNat_lt
  have hc := c.toNat_lt
  have hd := d.toNat_lt
  have hbyte {n : Nat} {e : UInt8} (hn : n % 2 ^ 8 = e.toNat) : UInt8.ofNat n = e := by
    apply UInt8.toNat_inj.mp
    rw [UInt8.toNat_ofNat', hn]
  have hword : (word [a, b, c, d]).toNat
      = a.toNat + 2 ^ 8 * b.toNat + 2 ^ 16 * c.toNat + 2 ^ 24 * d.toNat := by
    rw [word, BitVec.toNat_ofNat]
    simp only [value]
    omega
  rw [bytes, hword, hbyte (e := a) (by omega), hbyte (e := b) (by omega),
    hbyte (e := c) (by omega), hbyte (e := d) (by omega)]

end LittleEndian

namespace Item

/-- The word that an item comes from, if it is a whole one. -/
def word? : Item → Option Word
  | .ok i => some i.word
  | .error (.unrecognized _ word _ _) => some word
  | .error _ => none

/-- Where an item says that it stands. -/
def address? : Item → Option Address
  | .ok i => some i.address
  | .error (.unrecognized address _ _ _) => some address
  | .error (.truncated address _) => some address
  | .error (.unreadable _) => none

/-- How many bytes of a word there are, if the item says that it is cut. -/
def available? : Item → Option Nat
  | .error (.truncated _ available) => some available
  | _ => none

end Item

/-- A word is carried on by its item, with the address, on either path. -/
theorem carries_decode (w : Word) (address : Address) :
    Item.word? (decode w address) = some w ∧ Item.address? (decode w address) = some address ∧
      Item.available? (decode w address) = none := by
  unfold decode
  split
  · exact ⟨rfl, rfl, rfl⟩
  · exact ⟨rfl, rfl, rfl⟩

namespace Flat

/-- What the items of a byte string tell of its bytes. -/
structure Accounts (bytes : List UInt8) (base : Address) (items : List Item) : Prop where
  words : (items.filterMap Item.word?).flatMap LittleEndian.bytes
    = bytes.take (bytes.length - bytes.length % 4)
  addresses : ∀ i item, items[i]? = some item → item.address? = some (addressAt base i)
  /-- There is a cut item exactly if the bytes are no whole number of words. -/
  cut : (∃ item ∈ items, item.available?.isSome) ↔ bytes.length % 4 ≠ 0
  /-- It is the last one, and counts the bytes that are left over. -/
  cut_last : ∀ i item available, items[i]? = some item → item.available? = some available →
    i + 1 = items.length ∧ available = bytes.length % 4
  length : items.length = (bytes.length + 3) / 4

variable {bytes : List UInt8} {base : Address} {items : List Item}

theorem accounts_nil (base : Address) : Accounts [] base [] where
  words := rfl
  addresses := fun _ _ h => nomatch h
  cut := by simp
  cut_last := fun _ _ _ h => nomatch h
  length := rfl

theorem accounts_truncated (base : Address) (hne : bytes ≠ []) (hlt : bytes.length < 4) :
    Accounts bytes base [.error (.truncated base bytes.length)] := by
  have hpos : 0 < bytes.length := List.length_pos_iff.mpr hne
  have hmod : bytes.length % 4 = bytes.length := Nat.mod_eq_of_lt hlt
  have hfirst : addressAt base 0 = base := by
    rw [addressAt_eq_word, Address.word_zero]
  have hat {i : Nat} {item : Item}
      (h : [(.error (.truncated base bytes.length) : Item)][i]? = some item) :
      i = 0 ∧ item = .error (.truncated base bytes.length) := by
    cases i with
    | zero => exact ⟨rfl, (Option.some.inj h).symm⟩
    | succ i => cases h
  refine ⟨?_, ?_, ?_, ?_, ?_⟩
  · rw [hmod, Nat.sub_self]
    rfl
  · intro i item h
    obtain ⟨rfl, rfl⟩ := hat h
    rw [hfirst]
    rfl
  · rw [hmod]
    exact ⟨fun _ => Nat.ne_of_gt hpos, fun _ => ⟨_, List.mem_singleton_self _, rfl⟩⟩
  · intro i item available h havailable
    obtain ⟨rfl, rfl⟩ := hat h
    cases havailable
    exact ⟨rfl, hmod.symm⟩
  · show 1 = _
    omega

/-- **A WORD IN FRONT KEEPS THE ACCOUNT**: it is written down as its four bytes,
    and all other items move on by one word. -/
theorem Accounts.cons (h : Accounts (bytes.drop 4) (base.word 1) items) (hle : 4 ≤ bytes.length) :
    Accounts bytes base (decode (LittleEndian.word (bytes.take 4)) base :: items) := by
  have hlen : (bytes.drop 4).length = bytes.length - 4 := List.length_drop
  have hmod : (bytes.drop 4).length % 4 = bytes.length % 4 := by omega
  obtain ⟨hword, haddress, havailable⟩ := carries_decode (LittleEndian.word (bytes.take 4)) base
  refine ⟨?_, ?_, ?_, ?_, ?_⟩
  · have hfour : (bytes.take 4).length = 4 := by
      rw [List.length_take]
      omega
    have hsize : bytes.length - bytes.length % 4
        = 4 + ((bytes.drop 4).length - (bytes.drop 4).length % 4) := by
      omega
    rw [List.filterMap_cons_some hword, List.flatMap_cons, LittleEndian.bytes_word hfour, h.words,
      hsize, List.take_add]
  · intro i item hi
    cases i with
    | zero =>
        obtain rfl := Option.some.inj hi
        rw [haddress, addressAt_eq_word, Address.word_zero]
    | succ i =>
        rw [addressAt_succ]
        exact h.addresses i item hi
  · rw [← hmod, ← h.cut]
    constructor
    · rintro ⟨item, hmem, hitem⟩
      rcases List.mem_cons.mp hmem with rfl | hmem
      · rw [havailable] at hitem
        cases hitem
      · exact ⟨item, hmem, hitem⟩
    · rintro ⟨item, hmem, hitem⟩
      exact ⟨item, List.mem_cons_of_mem _ hmem, hitem⟩
  · intro i item available hi hitem
    cases i with
    | zero =>
        obtain rfl := Option.some.inj hi
        rw [havailable] at hitem
        cases hitem
    | succ i =>
        obtain ⟨hlast, hcount⟩ := h.cut_last i item available hi hitem
        exact ⟨congrArg Nat.succ hlast, hcount.trans hmod⟩
  · rw [List.length_cons, h.length]
    omega

/-- The items of a stream that just ends account for its bytes. -/
theorem accounts_items (bytes : List UInt8) (base : Address) :
    Accounts bytes base ((⟨bytes, none⟩ : Flat).items base) := by
  induction hn : bytes.length using Nat.strongRecOn generalizing bytes base with
  | ind n ih =>
      by_cases hle : 4 ≤ bytes.length
      · have hshorter : (bytes.drop 4).length < n := by
          rw [List.length_drop]
          omega
        rw [items_of_le hle]
        exact (ih _ hshorter (bytes.drop 4) (base.word 1) rfl).cons hle
      · have hlt : bytes.length < 4 := Nat.lt_of_not_le hle
        rw [items_of_lt hlt]
        by_cases hne : bytes = []
        · subst hne
          exact accounts_nil base
        · show Accounts bytes base (if bytes.isEmpty then [] else _)
          rw [if_neg (by rwa [List.isEmpty_iff])]
          exact accounts_truncated base hne hlt

/-- Pieces that are not empty come to all their bytes. -/
theorem ofEvents_pieces {pieces : List (List UInt8)} (h : [] ∉ pieces) :
    ofEvents (pieces.map .data) = ⟨pieces.flatten, none⟩ := by
  have hends : ∀ e ∈ pieces.map Event.data, e.ends = false := by
    intro e he
    obtain ⟨piece, hmem, rfl⟩ := List.mem_map.mp he
    have hne : piece ≠ [] := fun hnil => h (hnil ▸ hmem)
    simpa [Event.ends] using hne
  have hheld : (pieces.map Event.data).flatMap Event.held = pieces.flatten := by
    rw [List.flatMap_map, List.flatMap_def]
    exact congrArg List.flatten (List.map_id pieces)
  have happend := ofEvents_append hends []
  rw [List.append_nil, hheld, ofEvents_nil] at happend
  simpa [behind] using happend

/-- **NO BYTE IS LOST**, by a pool that decodes the string at once or by a cursor
    that reads it in any pieces, with any interruptions between them. -/
theorem accounts_of_bytes (bytes : List UInt8) (base : Address) :
    (∀ pool : Batch.Pool, pool.InOrder →
      Accounts bytes base (Batch.decodeOn pool bytes base)) ∧
    (∀ pieces : List (List UInt8), [] ∉ pieces → pieces.flatten = bytes →
      Accounts bytes base (Cursor.start base (pieces.map .data)).collect) ∧
    (∀ events, ofEvents events = ⟨bytes, none⟩ →
      Accounts bytes base (Cursor.start base events).collect) := by
  have hstream (events : List Event) (hevents : ofEvents events = ⟨bytes, none⟩) :
      Accounts bytes base (Cursor.start base events).collect := by
    rw [Cursor.collect_start, hevents]
    exact accounts_items bytes base
  refine ⟨?_, ?_, hstream⟩
  · intro pool hpool
    rw [Batch.decodeOn_eq_items hpool]
    exact accounts_items bytes base
  · intro pieces hne hflatten
    apply hstream
    rw [ofEvents_pieces hne, hflatten]

/-- A shift, a reserved word across the end of the address space and two bytes,
    on two workers and in pieces that cut both words. -/
theorem accounts_of_bytes_in_pieces :
    (Batch.Pool.sharing 2).InOrder ∧
    Accounts [0, 0, 8, 0, 3, 0, 0, 0x70, 1, 2] 0xFFFFFFFC
      (Batch.decodeOn (.sharing 2) [0, 0, 8, 0, 3, 0, 0, 0x70, 1, 2] 0xFFFFFFFC) ∧
    Accounts [0, 0, 8, 0, 3, 0, 0, 0x70, 1, 2] 0xFFFFFFFC
      (Cursor.start 0xFFFFFFFC
        ([[0], [0, 8, 0, 3, 0], [0, 0x70, 1, 2]].map .data)).collect ∧
    ofEvents [.data [0, 0, 8, 0, 3], .fail ⟨.interrupted, "again"⟩, .data [0, 0, 0x70, 1, 2], .stop]
      = ⟨[0, 0, 8, 0, 3, 0, 0, 0x70, 1, 2], none⟩ ∧
    Accounts [0, 0, 8, 0, 3, 0, 0, 0x70, 1, 2] 0xFFFFFFFC
      (Cursor.start 0xFFFFFFFC [.data [0, 0, 8, 0, 3], .fail ⟨.interrupted, "again"⟩,
        .data [0, 0, 0x70, 1, 2], .stop]).collect := by
  obtain ⟨hpool, hpieces, hevents⟩ :=
    accounts_of_bytes [0, 0, 8, 0, 3, 0, 0, 0x70, 1, 2] 0xFFFFFFFC
  exact ⟨Batch.Pool.sharing_inOrder 2, hpool _ (Batch.Pool.sharing_inOrder 2),
    hpieces _ (by decide) rfl, rfl, hevents _ rfl⟩

end Flat

end Mips32

import Mips32.Proofs.Stream.Parallel

/-! # Decoding in pieces

    Words do not look at each other, and the address of a word is its distance
    from the base.  So a buffer may be cut BETWEEN two words, and what stands
    behind the cut decodes to the same items on its own, if it is told the
    address that the cut has.

    The law for one cut is `Flat.items_behind`; many cuts follow by induction on
    the pieces.  Main statement: `Decoder.items_of_pieces`.  Whoever decodes the
    pieces, and in whatever order they get to them, the results in a row are
    those of the whole buffer. -/

namespace Mips32

/-- The address behind some bytes that start at `base`. -/
def Address.past (base : Address) (bytes : List UInt8) : Address :=
  base + BitVec.ofNat 32 bytes.length

namespace Address

theorem past_nil (base : Address) : base.past [] = base := BitVec.add_zero base

theorem past_append (base : Address) (front back : List UInt8) :
    base.past (front ++ back) = (base.past front).past back := by
  rw [past, past, past, List.length_append, BitVec.ofNat_add, BitVec.add_assoc]

/-- The first word takes the base as far as its four bytes do. -/
theorem past_eq_of_le {bytes : List UInt8} (h : 4 ≤ bytes.length) (base : Address) :
    base.past bytes = (base.word 1).past (bytes.drop 4) := by
  have hone : base.past (bytes.take 4) = base.word 1 := by
    rw [past, List.length_take, Nat.min_eq_left h]
    rfl
  rw [← hone, ← past_append, List.take_append_drop]

end Address

/-! ## One cut -/

namespace Flat

theorem items_nil (base : Address) : (⟨[], none⟩ : Flat).items base = [] := rfl

/-- **ONE CUT**: behind whole words a stream goes on as if it started there. -/
theorem items_behind {front : List UInt8} (h : 4 ∣ front.length) (f : Flat) (base : Address) :
    (f.behind front).items base
      = (⟨front, none⟩ : Flat).items base ++ f.items (base.past front) := by
  induction hn : front.length using Nat.strongRecOn generalizing front base with
  | ind n ih =>
      by_cases hle : 4 ≤ front.length
      · have hrest : (front.drop 4).length = front.length - 4 := List.length_drop
        have hwords : 4 ∣ (front.drop 4).length := by omega
        have hwhole : 4 ≤ (f.behind front).bytes.length := by
          rw [show (f.behind front).bytes = front ++ f.bytes from rfl, List.length_append]
          omega
        -- the first word is the same, and so is what stands behind it
        have hfirst : (f.behind front).bytes.take 4 = front.take 4 :=
          List.take_append_of_le_length hle
        have hbehind : (f.behind front).rest = f.behind (front.drop 4) := by
          rw [rest, show (f.behind front).bytes.drop 4 = _ from List.drop_append_of_le_length hle]
          rfl
        rw [items_of_le hwhole, hfirst, hbehind, ih _ (by omega) hwords _ rfl,
          ← Address.past_eq_of_le hle, items_of_le (f := ⟨front, none⟩) hle]
        rfl
      · obtain rfl : front = [] := List.length_eq_zero_iff.mp (by omega)
        rw [items_nil, Address.past_nil]
        rfl

/-! ## Many cuts -/

/-- The items of the piece with this index, at the address that it starts at. -/
def pieceItems (base : Address) (pieces : List (List UInt8)) (k : Nat) : List Item :=
  (⟨pieces.getD k [], none⟩ : Flat).items (base.past (pieces.take k).flatten)

theorem pieceItems_succ (base : Address) (piece : List UInt8) (pieces : List (List UInt8))
    (k : Nat) :
    pieceItems base (piece :: pieces) (k + 1) = pieceItems (base.past piece) pieces k := by
  rw [pieceItems, pieceItems, List.take_succ_cons, List.flatten_cons, Address.past_append]
  rfl

/-- **MANY CUTS**: the items of the pieces are those of the buffer, if all pieces
    but the last are whole words. -/
theorem flatten_pieceItems {pieces : List (List UInt8)}
    (h : ∀ piece ∈ pieces.dropLast, 4 ∣ piece.length) (base : Address) :
    ((List.range pieces.length).map (pieceItems base pieces)).flatten
      = (⟨pieces.flatten, none⟩ : Flat).items base := by
  induction pieces generalizing base with
  | nil => rfl
  | cons piece pieces ih =>
      have hfirst : pieceItems base (piece :: pieces) 0 = (⟨piece, none⟩ : Flat).items base := by
        rw [pieceItems, List.take_zero, List.flatten_nil, Address.past_nil]
        rfl
      have hothers : (List.range pieces.length).map (pieceItems base (piece :: pieces) ∘ Nat.succ)
          = (List.range pieces.length).map (pieceItems (base.past piece) pieces) :=
        List.map_congr_left fun k _ => pieceItems_succ base piece pieces k
      rw [List.length_cons, List.range_succ_eq_map, List.map_cons, List.map_map, List.flatten_cons,
        hfirst, hothers]
      cases pieces with
      | nil =>
          -- the last piece may end inside a word
          rw [List.flatten_cons, List.flatten_nil, List.append_nil]
          exact List.append_nil _
      | cons next others =>
          rw [List.dropLast_cons_cons, List.forall_mem_cons] at h
          rw [ih h.2, List.flatten_cons]
          exact (items_behind h.1 ⟨(next :: others).flatten, none⟩ base).symm

end Flat

/-! ## Slots -/

section Slots

variable {α : Type}

/-- Puts results into the slots with their indices, in the order in which they are
    there. -/
def fill (result : Nat → α) (slots : List α) (order : List Nat) : List α :=
  order.foldl (fun slots k => slots.set k (result k)) slots

/-- A slot holds its own result as soon as that was there. -/
theorem getElem?_fill (result : Nat → α) (slots : List α) (order : List Nat) (i : Nat) :
    (fill result slots order)[i]?
      = if i ∈ order ∧ i < slots.length then some (result i) else slots[i]? := by
  induction order generalizing slots with
  | nil => simp [fill]
  | cons k order ih =>
      rw [fill, List.foldl_cons, ← fill, ih, List.length_set, List.getElem?_set]
      by_cases hi : i < slots.length
      · by_cases hk : k = i
        · subst hk
          simp [hi]
        · simp [hi, hk, Ne.symm hk]
      · simp [hi]
        omega

/-- Once all results were there, in whatever order, the slots hold them in a
    row. -/
theorem fill_eq_map (result : Nat → α) {slots : List α} {order : List Nat}
    (h : ∀ k < slots.length, k ∈ order) :
    fill result slots order = (List.range slots.length).map result := by
  apply List.ext_getElem?
  intro i
  rw [getElem?_fill, List.getElem?_map]
  by_cases hi : i < slots.length
  · rw [if_pos ⟨h i hi, hi⟩, List.getElem?_range hi]
    rfl
  · rw [if_neg (fun hboth => hi hboth.2), List.getElem?_eq_none (Nat.le_of_not_lt hi),
      List.getElem?_eq_none (by rw [List.length_range]; exact Nat.le_of_not_lt hi)]
    rfl

end Slots

/-! ## Decoders -/

/-- What decodes a buffer: workers at once, or a cursor that reads it in pieces of
    any size and with any interruptions. -/
inductive Decoder
  | workers (pool : Batch.Pool) (inOrder : pool.InOrder)
  | cursor (reader : List UInt8 → List Event)
      (complete : ∀ bytes, Flat.ofEvents (reader bytes) = ⟨bytes, none⟩)

namespace Decoder

/-- The items of a buffer. -/
def items : Decoder → List UInt8 → Address → List Item
  | workers pool _, bytes, base => Batch.decodeOn pool bytes base
  | cursor reader _, bytes, base => (Cursor.start base (reader bytes)).collect

/-- The cursor that reads a buffer in one piece. -/
def inOnePiece : Decoder := cursor (fun bytes => [.data bytes]) Flat.ofEvents_data

theorem items_eq (d : Decoder) (bytes : List UInt8) (base : Address) :
    d.items bytes base = (⟨bytes, none⟩ : Flat).items base := by
  cases d with
  | workers pool inOrder => exact Batch.decodeOn_eq_items inOrder bytes base
  | cursor reader complete =>
      rw [items, Cursor.collect_start, complete]

/-- The items of pieces that are decoded one after the other in some order, each
    by a decoder of its own and at the address that it starts at. -/
def itemsApart (decoders : Nat → Decoder) (base : Address) (pieces : List (List UInt8))
    (order : List Nat) : List (List Item) :=
  fill (fun k => (decoders k).items (pieces.getD k []) (base.past (pieces.take k).flatten))
    (List.replicate pieces.length []) order

/-- **PIECES DECODE ON THEIR OWN.**  A buffer that is cut behind whole words gives
    the items in front of the cut and those behind it, and so does a stream,
    however it goes on.  With any number of cuts, the pieces may be decoded by
    anyone and in any order: the results in a row are the items of the whole. -/
theorem items_of_pieces :
    (∀ (whole first second : Decoder) (x y : List UInt8) (base : Address), 4 ∣ x.length →
      whole.items (x ++ y) base
        = first.items x base ++ second.items y (base + BitVec.ofNat 32 x.length)) ∧
    (∀ (first : Decoder) (x : List UInt8) (events rest : List Event) (base : Address),
      4 ∣ x.length → Flat.ofEvents events = (Flat.ofEvents rest).behind x →
      (Cursor.start base events).collect
        = first.items x base
          ++ (Cursor.start (base + BitVec.ofNat 32 x.length) rest).collect) ∧
    (∀ (whole : Decoder) (decoders : Nat → Decoder) (pieces : List (List UInt8))
        (base : Address) (order : List Nat), (∀ piece ∈ pieces.dropLast, 4 ∣ piece.length) →
      (∀ k < pieces.length, k ∈ order) →
      (itemsApart decoders base pieces order).flatten = whole.items pieces.flatten base) := by
  refine ⟨?_, ?_, ?_⟩
  · intro whole first second x y base hx
    rw [items_eq, items_eq, items_eq]
    exact Flat.items_behind hx ⟨y, none⟩ base
  · intro first x events rest base hx hevents
    rw [items_eq, Cursor.collect_start, Cursor.collect_start, hevents]
    exact Flat.items_behind hx _ base
  · intro whole decoders pieces base order hwords horder
    have hresult : (fun k => (decoders k).items (pieces.getD k [])
          (base.past (pieces.take k).flatten)) = Flat.pieceItems base pieces := by
      funext k
      exact items_eq _ _ _
    have hslots : ∀ k < (List.replicate pieces.length ([] : List Item)).length, k ∈ order := by
      rwa [List.length_replicate]
    rw [itemsApart, hresult, fill_eq_map _ hslots, List.length_replicate,
      Flat.flatten_pieceItems hwords, items_eq]

/-- Three pieces over the end of the address space, the last of them cut inside a
    word, and decoded from the last to the first. -/
theorem items_of_pieces_backwards :
    4 ∣ ([0, 0, 8, 0, 3, 0, 0, 0x70] : List UInt8).length ∧
    inOnePiece.items [0, 0, 8, 0, 3, 0, 0, 0x70, 1] 0xFFFFFFFC
      = inOnePiece.items [0, 0, 8, 0, 3, 0, 0, 0x70] 0xFFFFFFFC
        ++ (workers (.sharing 2) (Batch.Pool.sharing_inOrder 2)).items [1] 4 ∧
    Flat.ofEvents [.data [0, 0, 8, 0, 9], .fail ⟨.other, "unplugged"⟩]
      = (Flat.ofEvents [.data [9], .fail ⟨.other, "unplugged"⟩]).behind [0, 0, 8, 0] ∧
    (Cursor.start 0xFFFFFFFC [.data [0, 0, 8, 0, 9], .fail ⟨.other, "unplugged"⟩]).collect
      = inOnePiece.items [0, 0, 8, 0] 0xFFFFFFFC
        ++ (Cursor.start 0 [.data [9], .fail ⟨.other, "unplugged"⟩]).collect ∧
    (itemsApart (fun k => if k = 1 then inOnePiece
          else workers (.sharing 2) (Batch.Pool.sharing_inOrder 2))
        0xFFFFFFFC [[0, 0, 8, 0], [], [3, 0, 0, 0x70, 1]] [2, 1, 0]).flatten
      = inOnePiece.items [0, 0, 8, 0, 3, 0, 0, 0x70, 1] 0xFFFFFFFC := by
  obtain ⟨hcut, hstream, hpieces⟩ := items_of_pieces
  refine ⟨by decide, ?_, rfl, ?_, ?_⟩
  · exact hcut _ _ _ [0, 0, 8, 0, 3, 0, 0, 0x70] [1] 0xFFFFFFFC (by decide)
  · exact hstream _ [0, 0, 8, 0] _ _ 0xFFFFFFFC (by decide) rfl
  · exact hpieces inOnePiece _ [[0, 0, 8, 0], [], [3, 0, 0, 0x70, 1]] 0xFFFFFFFC [2, 1, 0]
      (by decide) (by decide)

end Decoder

end Mips32

import Mips32.Cursor
import Mips32.Proofs.Address
import Mips32.Proofs.Stream.Flat

/-! # The items of a stream

    Two loops run inside each other: one fills a word, the other goes from word
    to word.  What they give has a CLOSED form over the flat stream: the `i`th
    word decoded at the `i`th address, for as many words as there are, and one
    item more if reading failed or broke off inside a word.

    Main statement: `Cursor.collect_eq_items`.  Collecting a cursor comes to an
    end with exactly these items, so neither the cuts between the pieces nor
    anything behind the end of the input shows. -/

namespace Mips32

/-! ## The closed form -/

namespace Flat

/-- The word with this index, from its four bytes. -/
def wordAt (bytes : List UInt8) (i : Nat) : Word :=
  BitVec.ofNat 32
    ((bytes.getD (4 * i) 0).toNat + 2 ^ 8 * (bytes.getD (4 * i + 1) 0).toNat
      + 2 ^ 16 * (bytes.getD (4 * i + 2) 0).toNat
      + 2 ^ 24 * (bytes.getD (4 * i + 3) 0).toNat)

/-- The address of the word with this index. -/
def addressAt (base : Address) (i : Nat) : Address := BitVec.ofNat 32 (base.toNat + 4 * i)

/-- What stands behind the items of the whole words: the failure, with the bytes
    before it dropped, or the bytes that are no word. -/
def closing (base : Address) (f : Flat) : List Item :=
  match f.failure with
  | some failure => [.error (.unreadable failure)]
  | none =>
    if f.bytes.length % 4 = 0 then []
    else [.error (.truncated (addressAt base (f.bytes.length / 4)) (f.bytes.length % 4))]

/-- The items of a stream whose first word stands at `base`. -/
def items (base : Address) (f : Flat) : List Item :=
  (List.range (f.bytes.length / 4)).map (fun i => decode (wordAt f.bytes i) (addressAt base i))
    ++ f.closing base

theorem addressAt_eq_word (base : Address) (i : Nat) : addressAt base i = base.word i := by
  apply BitVec.eq_of_toNat_eq
  rw [Address.toNat_word, addressAt, BitVec.toNat_ofNat]

theorem addressAt_succ (base : Address) (i : Nat) :
    addressAt base (i + 1) = addressAt (base.word 1) i := by
  rw [addressAt_eq_word, addressAt_eq_word, Address.word_word, Nat.add_comm]

theorem wordAt_zero {bytes : List UInt8} (h : 4 ≤ bytes.length) :
    wordAt bytes 0 = LittleEndian.word (bytes.take 4) := by
  obtain ⟨a, b, c, d, rest, rfl⟩ : ∃ a b c d rest, bytes = a :: b :: c :: d :: rest := by
    match bytes, h with
    | a :: b :: c :: d :: rest, _ => exact ⟨a, b, c, d, rest, rfl⟩
  show BitVec.ofNat 32 (a.toNat + 2 ^ 8 * b.toNat + 2 ^ 16 * c.toNat + 2 ^ 24 * d.toNat)
    = BitVec.ofNat 32 (a.toNat + 256 * (b.toNat + 256 * (c.toNat + 256 * (d.toNat + 256 * 0))))
  congr 1
  omega

theorem wordAt_succ (bytes : List UInt8) (i : Nat) :
    wordAt bytes (i + 1) = wordAt (bytes.drop 4) i := by
  have hget (k : Nat) : bytes.getD (4 * (i + 1) + k) 0 = (bytes.drop 4).getD (4 * i + k) 0 := by
    rw [List.getD_eq_getElem?_getD, List.getD_eq_getElem?_getD, List.getElem?_drop]
    congr 2
    omega
  have hzero : bytes.getD (4 * (i + 1)) 0 = (bytes.drop 4).getD (4 * i) 0 := hget 0
  rw [wordAt, wordAt, hzero, hget 1, hget 2, hget 3]

theorem items_of_le {f : Flat} (h : 4 ≤ f.bytes.length) (base : Address) :
    f.items base
      = decode (LittleEndian.word (f.bytes.take 4)) base :: f.rest.items (base.word 1) := by
  have hlen : f.rest.bytes.length = f.bytes.length - 4 := List.length_drop
  have hsize : f.bytes.length / 4 = f.rest.bytes.length / 4 + 1 := by omega
  have hmod : f.rest.bytes.length % 4 = f.bytes.length % 4 := by omega
  have hclosing : f.closing base = f.rest.closing (base.word 1) := by
    simp only [closing, hsize, addressAt_succ, hmod]
    rfl
  simp only [items]
  rw [hclosing, hsize, List.range_succ_eq_map, List.map_cons, List.map_map, List.cons_append]
  congr 1
  · rw [wordAt_zero h, addressAt_eq_word, Address.word_zero]
  · congr 1
    apply List.map_congr_left
    intro i _
    show decode (wordAt f.bytes (i + 1)) (addressAt base (i + 1)) = _
    rw [wordAt_succ, addressAt_succ]
    rfl

theorem items_of_lt {f : Flat} (h : f.bytes.length < 4) (base : Address) :
    f.items base
      = match f.failure with
        | some failure => [.error (.unreadable failure)]
        | none =>
          if f.bytes.isEmpty then [] else [.error (.truncated base f.bytes.length)] := by
  have hsize : f.bytes.length / 4 = 0 := by omega
  have hmod : f.bytes.length % 4 = f.bytes.length := by omega
  have haddress : addressAt base 0 = base := by
    rw [addressAt_eq_word, Address.word_zero]
  simp only [items, closing, hsize, hmod, haddress, List.range_zero, List.map_nil,
    List.nil_append, List.isEmpty_iff, List.length_eq_zero_iff]

end Flat

/-! ## One step, and all steps -/

namespace Cursor

/-- A cursor at the start of a stream with these events. -/
def start (base : Address) (events : List Event) : Cursor where
  source := { pending := events }
  address := base

/-- The items of a cursor, collected until there is none. -/
def collect (c : Cursor) : List Item := (c.drain #[] #[]).1.toList

/-- What the cursor still has to read, without the calls. -/
def flat (c : Cursor) : Flat := Flat.ofEvents c.source.pending

/-- A cursor gives items, one step after the other, and then ends. -/
inductive Yields : Cursor → List Item → Cursor → Prop
  | done {c : Cursor} : c.next.item = none → Yields c [] c.next.cursor
  | item {c last : Cursor} {i : Item} {is : List Item} :
      c.next.item = some i → Yields c.next.cursor is last → Yields c (i :: is) last

/-- A step with a word left: the word is decoded, and the cursor stands behind
    it. -/
theorem next_of_le {c : Cursor} (hf : c.finished = false) (h : 4 ≤ c.flat.bytes.length) :
    c.next.item = some (decode (LittleEndian.word (c.flat.bytes.take 4)) c.address) ∧
      c.next.cursor.flat = c.flat.rest ∧ c.next.cursor.address = c.address.word 1 ∧
      c.next.cursor.finished = false := by
  obtain ⟨s, hs⟩ : ∃ s, c.source.draw = (.word (LittleEndian.word (c.flat.bytes.take 4)), s) := by
    refine ⟨c.source.draw.2, Prod.ext ?_ rfl⟩
    rw [Source.fst_draw]
    exact Flat.draw_of_le h
  have hrest : Flat.ofEvents c.source.draw.2.pending = c.flat.rest := Source.flat_snd_draw h
  rw [hs] at hrest
  have hnext : c.next.cursor = { c with source := s, address := c.address.word 1 } := by
    simp [next, hf, hs]
  rw [hnext]
  exact ⟨by simp [next, hf, hs], hrest, rfl, hf⟩

/-- A step without one: the end of the stream decides whether there is an item,
    and the cursor is finished where it stands. -/
theorem next_of_lt {c : Cursor} (hf : c.finished = false) (h : c.flat.bytes.length < 4) :
    c.next.item.toList = c.flat.items c.address ∧
      c.next.cursor.address = c.address ∧ c.next.cursor.finished = true := by
  have hdraw := Source.fst_draw c.source
  rw [show (Flat.ofEvents c.source.pending).draw = _ from Flat.draw_of_lt h] at hdraw
  rw [Flat.items_of_lt h]
  rcases hd : c.source.draw with ⟨d, s⟩
  rw [hd] at hdraw
  cases hfail : c.flat.failure with
  | some failure =>
      have hword : d = .failed failure := by
        rw [show d = _ from hdraw, show (Flat.ofEvents c.source.pending).failure = _ from hfail]
      subst hword
      simp [next, hf, hd]
  | none =>
      have hend : d = Source.atEnd c.flat.bytes := by
        rw [show d = _ from hdraw, show (Flat.ofEvents c.source.pending).failure = _ from hfail]
        rfl
      cases hempty : c.flat.bytes.isEmpty with
      | true =>
          have hword : d = .ended := by simp [hend, Source.atEnd, hempty]
          subst hword
          simp [next, hf, hd]
      | false =>
          have hword : d = .cut c.flat.bytes.length := by simp [hend, Source.atEnd, hempty]
          subst hword
          simp [next, hf, hd]

theorem next_of_finished {c : Cursor} (hf : c.finished = true) : c.next = ⟨none, c, []⟩ := by
  simp [next, hf]

/-- **EVERY STREAM ENDS**: a cursor gives the items of the closed form, and is
    finished behind them. -/
theorem yields_items {c : Cursor} (hf : c.finished = false) :
    ∃ last, Yields c (c.flat.items c.address) last ∧ last.finished = true := by
  induction hn : c.flat.bytes.length using Nat.strongRecOn generalizing c with
  | ind n ih =>
      by_cases h : 4 ≤ c.flat.bytes.length
      · obtain ⟨hitem, hflat, haddress, hf'⟩ := next_of_le hf h
        have hshorter : c.next.cursor.flat.bytes.length < n := by
          rw [hflat, ← hn, show c.flat.rest.bytes.length = _ from List.length_drop]
          omega
        obtain ⟨last, hyields, hlast⟩ := ih _ hshorter hf' rfl
        rw [hflat, haddress] at hyields
        rw [Flat.items_of_le h]
        exact ⟨last, .item hitem hyields, hlast⟩
      · obtain ⟨hitem, -, hlast⟩ := next_of_lt hf (Nat.lt_of_not_le h)
        cases hi : c.next.item with
        | none =>
            rw [← hitem, hi]
            exact ⟨c.next.cursor, .done hi, hlast⟩
        | some i =>
            -- the item that ends the stream: one more step shows that nothing follows
            have hover := next_of_finished hlast
            rw [← hitem, hi]
            refine ⟨c.next.cursor.next.cursor, .item hi (.done (by rw [hover])), ?_⟩
            rw [hover]
            exact hlast

/-- Draining takes the steps one after the other. -/
theorem drain_of_yields {c last : Cursor} {is : List Item} (h : Yields c is last)
    (items : Array Item) (log : Array Log.Record) :
    (c.drain items log).1.toList = items.toList ++ is ∧ (c.drain items log).2.2 = last := by
  induction h generalizing items log with
  | @done c hnone =>
      rw [drain]
      split
      · rename_i c' records hnext
        rw [hnext, List.append_nil]
        exact ⟨rfl, rfl⟩
      · rename_i i c' records hnext
        rw [hnext] at hnone
        exact absurd hnone (Option.some_ne_none i)
  | @item c last i is hsome _ ih =>
      rw [drain]
      split
      · rename_i c' records hnext
        rw [hnext] at hsome
        exact absurd hsome.symm (Option.some_ne_none i)
      · rename_i i' c' records hnext
        rw [hnext] at hsome ih
        obtain rfl : i' = i := Option.some.inj hsome
        obtain ⟨hitems, hlast⟩ := ih (items.push i') (log ++ records)
        refine ⟨?_, hlast⟩
        rw [hitems, Array.toList_push, List.append_assoc]
        rfl

theorem collect_of_yields {c last : Cursor} {is : List Item} (h : Yields c is last) :
    c.collect = is :=
  (drain_of_yields h #[] #[]).1

theorem collect_start (base : Address) (events : List Event) :
    (start base events).collect = (Flat.ofEvents events).items base := by
  obtain ⟨last, hyields, -⟩ := yields_items (c := start base events) rfl
  exact collect_of_yields hyields

/-- **A STREAM GIVES ITS FLAT BYTES, WORD BY WORD**: collecting a cursor ends,
    with the items of the closed form.  How the bytes are cut into pieces has no
    influence, and what stands behind the event that ends the input has none. -/
theorem collect_eq_items (base : Address) :
    (∀ events, ∃ last, Yields (start base events) ((Flat.ofEvents events).items base) last ∧
      last.finished = true) ∧
    (∀ events, (start base events).collect = (Flat.ofEvents events).items base) ∧
    (∀ (before piece piece' after : List Event), (∀ e ∈ piece, e.ends = false) →
      (∀ e ∈ piece', e.ends = false) → piece.flatMap Event.held = piece'.flatMap Event.held →
      (start base (before ++ (piece ++ after))).collect
        = (start base (before ++ (piece' ++ after))).collect) ∧
    (∀ before e after after', e.ends = true →
      (start base (before ++ e :: after)).collect
        = (start base (before ++ e :: after')).collect) := by
  refine ⟨fun events => yields_items rfl, collect_start base, ?_, ?_⟩
  · intro before piece piece' after h h' hheld
    rw [collect_start, collect_start]
    congr 1
    apply Flat.ofEvents_append_congr
    rw [Flat.ofEvents_append h, Flat.ofEvents_append h', hheld]
  · intro before e after after' he
    rw [collect_start, collect_start]
    congr 1
    apply Flat.ofEvents_append_congr
    rw [Flat.ofEvents_of_ends he, Flat.ofEvents_of_ends he]

/-- A word that is interrupted halfway, at the last address, and a failure
    behind a byte of the next one. -/
theorem collect_eq_items_interrupted :
    (start 0xFFFFFFFC [.data [0x20, 0x40], .fail ⟨.interrupted, "again"⟩,
        .data [0x2A, 0x01, 0xFF], .fail ⟨.other, "device unplugged"⟩, .data [0, 0, 0, 0]]).collect
      = [decode 0x012A4020 0xFFFFFFFC, .error (.unreadable ⟨.other, "device unplugged"⟩)] ∧
    (start 0xFFFFFFFC ([.data [0x20]] ++ ([.data [0x40, 0x2A]] ++ [.stop]))).collect
      = (start 0xFFFFFFFC ([.data [0x20]]
          ++ ([.data [0x40], .fail ⟨.interrupted, "again"⟩, .data [0x2A]] ++ [.stop]))).collect ∧
    (start 0xFFFFFFFC ([.data [0x20]] ++ .stop :: [.data [0x40]])).collect
      = (start 0xFFFFFFFC ([.data [0x20]] ++ .stop :: [])).collect := by
  obtain ⟨-, hitems, hpieces, hbehind⟩ := collect_eq_items 0xFFFFFFFC
  refine ⟨(hitems _).trans rfl, ?_, ?_⟩
  · exact hpieces _ _ _ _ (by decide) (by decide) (by decide)
  · exact hbehind _ _ _ _ (by decide)

end Cursor

end Mips32

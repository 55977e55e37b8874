import Mips32.Feed
import Mips32.Proofs.Stream.Items

/-! # What a pull takes from a source

    The source counts its calls and the bytes it hands out, so it shows HOW FAR
    a stream was read.  An item that comes from a whole word takes exactly that
    word: four bytes handed out, and everything behind them still unread.  Any
    other pull ends the stream and leaves the address alone, and behind the end
    the source is not called again.

    Main statements: `Cursor.next_cases`, all that a pull can do, and
    `Cursor.after_words`, where a cursor stands behind so many words. -/

namespace Mips32

/-- Whether an item comes from a whole word, an instruction or not. -/
def Item.isWord : Item → Bool
  | .ok _ => true
  | .error fault => fault.isRecoverable

theorem isWord_decode (w : Word) (address : Address) : (decode w address).isWord = true := by
  unfold decode
  split <;> rfl

/-- What stands behind the words is no word. -/
theorem Flat.isWord_of_mem_closing {f : Flat} {base : Address} {i : Item}
    (h : i ∈ f.closing base) : i.isWord = false := by
  rw [closing] at h
  split at h
  · obtain rfl := List.mem_singleton.mp h
    rfl
  · split at h
    · cases h
    · obtain rfl := List.mem_singleton.mp h
      rfl

/-- The items that come from whole words stand in front of all others, each of them
    at the place of its word. -/
theorem Flat.decode_of_isWord {f : Flat} {base : Address} {k : Nat} {i : Item}
    (hk : (f.items base)[k]? = some i) (hword : i.isWord = true) :
    k < f.bytes.length / 4 ∧ i = decode (wordAt f.bytes k) (addressAt base k) := by
  by_cases hlt : k < f.bytes.length / 4
  · rw [items, List.getElem?_append_left (by simpa using hlt), List.getElem?_map,
      List.getElem?_range hlt] at hk
    exact ⟨hlt, (Option.some.inj hk).symm⟩
  · rw [items, List.getElem?_append_right (by simp; omega)] at hk
    have hnone := isWord_of_mem_closing (List.mem_of_getElem? hk)
    rw [hword] at hnone
    cases hnone

/-! ## Sources -/

namespace Source

/-- The bytes that no call has handed out yet. -/
def unread (s : Source) : List UInt8 := s.pending.flatMap Event.held

/-- What was handed out is what is no longer unread. -/
structure Reads (calls delivered : Nat) (bytes : List UInt8) (n : Nat) (s : Source) : Prop where
  calls_lt : calls < s.calls
  delivered_eq : s.delivered = delivered + n
  unread_eq : s.unread = bytes.drop n

theorem unread_leave (bytes : List UInt8) (events : List Event) :
    (leave bytes events).flatMap Event.held = bytes ++ events.flatMap Event.held := by
  unfold leave
  cases bytes <;> rfl

theorem atEnd_ne_word (held : List UInt8) (w : Word) : atEnd held ≠ .word w := by
  unfold atEnd
  split <;> simp

theorem reads_zero (calls delivered : Nat) (events : List Event) :
    Reads calls delivered (events.flatMap Event.held) 0 ⟨events, calls + 1, delivered⟩ :=
  ⟨Nat.lt_succ_self calls, rfl, rfl⟩

/-- Collecting makes a call at least, and a word takes the bytes that were
    missing. -/
theorem collect_reads (calls delivered : Nat) {held : List UInt8} (events : List Event)
    (hheld : held.length < 4) :
    ∃ n, Reads calls delivered (events.flatMap Event.held) n
        (collect calls delivered held events).2 ∧
      ∀ w, (collect calls delivered held events).1 = .word w → held.length + n = 4 := by
  -- the bytes held grow from event to event, and so do both counts
  induction events generalizing calls delivered held with
  | nil => exact ⟨0, reads_zero calls delivered [], fun w hw => absurd hw (atEnd_ne_word held w)⟩
  | cons event events ih =>
      cases event with
      | stop =>
          exact ⟨0, reads_zero calls delivered events,
            fun w hw => absurd hw (atEnd_ne_word held w)⟩
      | fail failure =>
          by_cases hk : failure.kind = .interrupted
          · rw [collect, if_pos hk]
            obtain ⟨n, ⟨hcalls, hdelivered, hunread⟩, hword⟩ := ih (calls + 1) delivered hheld
            exact ⟨n, ⟨by omega, hdelivered, hunread⟩, hword⟩
          · rw [collect, if_neg hk]
            refine ⟨0, reads_zero calls delivered events, ?_⟩
            intro w hw
            cases hw
      | data bytes =>
          have hlen := List.length_take (i := 4 - held.length) (l := bytes)
          simp only [collect]
          split
          · rename_i hnone
            have hbytes : bytes = [] := by
              rw [List.isEmpty_iff, List.take_eq_nil_iff] at hnone
              rcases hnone with hfull | hnil
              · omega
              · exact hnil
            subst hbytes
            exact ⟨0, reads_zero calls delivered events,
              fun w hw => absurd hw (atEnd_ne_word held w)⟩
          · split
            · -- the whole event is taken and the word goes on in the next one
              rename_i _ hshort
              have hall : bytes.take (4 - held.length) = bytes := by
                rw [List.length_append] at hshort
                exact List.take_of_length_le (by omega)
              obtain ⟨n, ⟨hcalls, hdelivered, hunread⟩, hword⟩ :=
                ih (calls + 1) (delivered + (bytes.take (4 - held.length)).length) hshort
              refine ⟨bytes.length + n, ⟨by omega, ?_, ?_⟩, ?_⟩
              · rw [hdelivered, hall, Nat.add_assoc]
              · rw [hunread]
                show _ = (bytes ++ events.flatMap Event.held).drop (bytes.length + n)
                rw [List.drop_length_add_append]
              · intro w hw
                have hmissing := hword w hw
                rw [hall, List.length_append] at hmissing
                omega
            · -- the event completes the word, and what it has left over stays
              rename_i _ hfull
              rw [List.length_append] at hfull
              refine ⟨_, ⟨Nat.lt_succ_self _, rfl, ?_⟩, ?_⟩
              · show (leave (bytes.drop (4 - held.length)) events).flatMap Event.held
                  = (bytes ++ events.flatMap Event.held).drop (bytes.take (4 - held.length)).length
                rw [unread_leave, List.drop_append_of_le_length (by omega)]
                congr 2
                omega
              · intro _ _
                omega

/-- A draw makes a call at least, and a word is four bytes. -/
theorem draw_reads (s : Source) :
    ∃ n, Reads s.calls s.delivered s.unread n s.draw.2 ∧ ∀ w, s.draw.1 = .word w → n = 4 := by
  obtain ⟨n, hreads, hword⟩ := collect_reads s.calls s.delivered s.pending
    (show ([] : List UInt8).length < 4 by simp)
  refine ⟨n, hreads, ?_⟩
  intro w hw
  exact (Nat.zero_add n).symm.trans (hword w hw)

end Source

/-! ## Cursors -/

namespace Cursor

/-- A cursor that goes on, so many whole words behind another. -/
structure Behind (c : Cursor) (n : Nat) (c' : Cursor) : Prop where
  open_ : c'.finished = false
  flat : c'.flat = { c.flat with bytes := c.flat.bytes.drop (4 * n) }
  address : c'.address = c.address.word n
  delivered : c'.source.delivered = c.source.delivered + 4 * n
  unread : c'.source.unread = c.source.unread.drop (4 * n)

theorem Behind.refl {c : Cursor} (hf : c.finished = false) : Behind c 0 c :=
  ⟨hf, rfl, (Address.word_zero _).symm, rfl, rfl⟩

theorem Behind.trans {c c' c'' : Cursor} {n m : Nat} (h : Behind c n c') (h' : Behind c' m c'') :
    Behind c (n + m) c'' where
  open_ := h'.open_
  flat := by rw [h'.flat, h.flat, List.drop_drop, Nat.mul_add]
  address := by rw [h'.address, h.address, Address.word_word]
  delivered := by rw [h'.delivered, h.delivered, Nat.mul_add, Nat.add_assoc]
  unread := by rw [h'.unread, h.unread, List.drop_drop, Nat.mul_add]

theorem source_next {c : Cursor} (hf : c.finished = false) :
    c.next.cursor.source = c.source.draw.2 := by
  rcases hd : c.source.draw with ⟨_ | _ | _ | _, s⟩ <;> simp [next, hf, hd]

theorem behind_next {c : Cursor} (hf : c.finished = false) (h : 4 ≤ c.flat.bytes.length) :
    Behind c 1 c.next.cursor := by
  obtain ⟨-, hflat, haddress, hopen⟩ := next_of_le hf h
  obtain ⟨n, hreads, hword⟩ := c.source.draw_reads
  have hn : n = 4 := hword _ ((Source.fst_draw c.source).trans (Flat.draw_of_le h))
  subst hn
  refine ⟨hopen, hflat, haddress, ?_, ?_⟩
  · rw [source_next hf, hreads.delivered_eq]
  · rw [source_next hf, hreads.unread_eq]

/-- **ALL THAT A PULL CAN DO**: it takes a whole word and goes on, or it ends the
    stream, with nothing or with an error, and leaves the address alone. -/
theorem next_cases {c : Cursor} (hf : c.finished = false) :
    (4 ≤ c.flat.bytes.length ∧ Behind c 1 c.next.cursor ∧
      ∃ i, c.next.item = some i ∧ i.isWord = true) ∨
    (c.flat.bytes.length < 4 ∧ c.next.cursor.finished = true ∧
      c.next.cursor.address = c.address ∧ ∀ i, c.next.item = some i → i.isWord = false) := by
  by_cases h : 4 ≤ c.flat.bytes.length
  · obtain ⟨hitem, -, -, -⟩ := next_of_le hf h
    exact .inl ⟨h, behind_next hf h, _, hitem, isWord_decode _ _⟩
  · have hlt : c.flat.bytes.length < 4 := by omega
    obtain ⟨hitem, haddress, hfinished⟩ := next_of_lt hf hlt
    refine .inr ⟨hlt, hfinished, haddress, ?_⟩
    intro i hi
    have hmem : i ∈ c.flat.items c.address := by
      rw [← hitem, hi]
      simp
    rw [Flat.items_of_lt hlt] at hmem
    split at hmem
    · obtain rfl := List.mem_singleton.mp hmem
      rfl
    · split at hmem
      · cases hmem
      · obtain rfl := List.mem_singleton.mp hmem
        rfl

/-- A stream that is not over is asked: a pull makes a call at least. -/
theorem calls_next_lt {c : Cursor} (hf : c.finished = false) :
    c.source.calls < c.next.cursor.source.calls := by
  obtain ⟨n, hreads, -⟩ := c.source.draw_reads
  rw [source_next hf]
  exact hreads.calls_lt

theorem consumed_next (c : Cursor) :
    c.source.calls ≤ c.next.cursor.source.calls ∧
      c.source.delivered ≤ c.next.cursor.source.delivered := by
  cases hf : c.finished with
  | true => rw [next_of_finished hf]; exact ⟨Nat.le_refl _, Nat.le_refl _⟩
  | false =>
      obtain ⟨n, hreads, -⟩ := c.source.draw_reads
      rw [source_next hf, hreads.delivered_eq]
      exact ⟨Nat.le_of_lt hreads.calls_lt, Nat.le_add_right _ _⟩

/-! ## Collecting, pull by pull -/

/-- The cursor behind all its items. -/
def exhausted (c : Cursor) : Cursor := (c.drain #[] #[]).2.2

theorem yields_collect (c : Cursor) :
    Yields c c.collect c.exhausted ∧ c.exhausted.finished = true := by
  obtain ⟨is, last, hyields, hlast⟩ : ∃ is last, Yields c is last ∧ last.finished = true := by
    cases hf : c.finished with
    | true =>
        have hnext := next_of_finished hf
        have hdone : Yields c [] c.next.cursor := .done (by rw [hnext])
        exact ⟨[], _, hdone, by rw [hnext]; exact hf⟩
    | false =>
        obtain ⟨last, hyields, hlast⟩ := yields_items hf
        exact ⟨_, last, hyields, hlast⟩
  obtain ⟨hitems, hcursor⟩ := drain_of_yields hyields #[] #[]
  have hcollect : c.collect = is := hitems
  have hexhausted : c.exhausted = last := hcursor
  rw [hcollect, hexhausted]
  exact ⟨hyields, hlast⟩

theorem collect_of_finished {c : Cursor} (hf : c.finished = true) : c.collect = [] :=
  collect_of_yields (.done (by rw [next_of_finished hf]))

theorem finished_of_none {c : Cursor} (h : c.next.item = none) :
    c.next.cursor.finished = true := by
  cases hf : c.finished with
  | true => rw [next_of_finished hf]; exact hf
  | false =>
      rcases next_cases hf with ⟨-, -, i, hi, -⟩ | ⟨-, hfinished, -, -⟩
      · cases h.symm.trans hi
      · exact hfinished

/-- Collecting is pulling once and collecting the rest. -/
theorem collect_next (c : Cursor) :
    c.collect = c.next.item.toList ++ c.next.cursor.collect := by
  cases hi : c.next.item with
  | none =>
      rw [collect_of_finished (finished_of_none hi)]
      exact collect_of_yields (.done hi)
  | some i => exact collect_of_yields (.item hi (yields_collect _).1)

/-- The cursor behind so many pulls. -/
def after (c : Cursor) : Nat → Cursor
  | 0 => c
  | n + 1 => c.next.cursor.after n

/-- **WORD FOR WORD**: as long as there are whole words, each pull takes one. -/
theorem after_words {c : Cursor} (hf : c.finished = false) {n : Nat}
    (h : 4 * n ≤ c.flat.bytes.length) : Behind c n (c.after n) := by
  induction n generalizing c with
  | zero => exact .refl hf
  | succ n ih =>
      have hnext := behind_next hf (by omega)
      have hrest : 4 * n ≤ c.next.cursor.flat.bytes.length := by
        have hlen : c.next.cursor.flat.bytes.length = c.flat.bytes.length - 4 * 1 := by
          rw [hnext.flat]
          exact List.length_drop
        omega
      have hbehind := hnext.trans (ih hnext.open_ hrest)
      rwa [Nat.add_comm] at hbehind

theorem consumed_after {c : Cursor} {n m : Nat} (h : n ≤ m) :
    (c.after n).source.calls ≤ (c.after m).source.calls ∧
      (c.after n).source.delivered ≤ (c.after m).source.delivered := by
  induction m generalizing c n with
  | zero =>
      obtain rfl := Nat.le_zero.mp h
      exact ⟨Nat.le_refl _, Nat.le_refl _⟩
  | succ m ih =>
      cases n with
      | zero =>
          obtain ⟨hcalls, hdelivered⟩ := consumed_next c
          obtain ⟨hcalls', hdelivered'⟩ := ih (c := c.next.cursor) (Nat.zero_le m)
          exact ⟨Nat.le_trans hcalls hcalls', Nat.le_trans hdelivered hdelivered'⟩
      | succ n => exact ih (Nat.le_of_succ_le_succ h)

end Cursor

/-! ## Feeds -/

namespace Feed

/-- All the items of a feed. -/
def items : Feed → List Item
  | .batch is => is
  | .stream c => c.collect

/-- The feed behind so many pulls. -/
def after (f : Feed) : Nat → Feed
  | 0 => f
  | n + 1 => f.next.feed.after n

theorem items_of_none {f : Feed} (h : f.next.item = none) : f.items = [] := by
  match f with
  | .batch [] => rfl
  | .batch (_ :: _) => cases h
  | .stream c => exact Cursor.collect_of_yields (.done h)

theorem items_of_some {f : Feed} {i : Item} (h : f.next.item = some i) :
    f.items = i :: f.next.feed.items := by
  match f with
  | .batch [] => cases h
  | .batch (_ :: _) =>
      obtain rfl := Option.some.inj h
      rfl
  | .stream c =>
      have hcollect := c.collect_next
      rwa [show c.next.item = some i from h] at hcollect

theorem next_of_items_nil {f : Feed} (h : f.items = []) : f.next.item = none := by
  cases hi : f.next.item with
  | none => rfl
  | some i => cases h.symm.trans (items_of_some hi)

theorem next_of_items_cons {f : Feed} {i : Item} {is : List Item} (h : f.items = i :: is) :
    f.next.item = some i ∧ f.next.feed.items = is := by
  cases hi : f.next.item with
  | none => cases h.symm.trans (items_of_none hi)
  | some j =>
      obtain ⟨rfl, rfl⟩ := List.cons.inj (h.symm.trans (items_of_some hi))
      exact ⟨rfl, rfl⟩

theorem after_stream (c : Cursor) (n : Nat) : (stream c).after n = .stream (c.after n) := by
  induction n generalizing c with
  | zero => rfl
  | succ n ih => exact ih c.next.cursor

end Feed

end Mips32

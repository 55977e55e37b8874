import Mathlib.Algebra.Ring.Periodic
import Mathlib.Logic.Function.Iterate
import Mips32.Proofs.Listing.Words
import Mips32.Proofs.Stream.Account

/-! # The addresses of a stream

    A cursor steps from each address to the next one, a pool goes to the address of
    an index at once.  Both walk through the same addresses: four apart, as far off
    alignment as the base, and back at the base after as many words as there is room
    for, NOT BEFORE.  So the first words of a stream have addresses of their own, and
    from then on every address comes again, always at the same distance.

    Main statement: `Address.word_progression`. -/

namespace Mips32

namespace Address

/-- **STEP BY STEP OR AT ONCE**: so many single steps go as far as the index does. -/
theorem iterate_word_one (base : Address) (i : Nat) :
    (fun address : Address => address.word 1)^[i] base = base.word i := by
  induction i with
  | zero => exact (word_zero base).symm
  | succ i ih => rw [Function.iterate_succ_apply', ih, word_word]

/-- The addresses come again after a number of words exactly if it is a whole number
    of times the words that there is room for. -/
theorem periodic_word_iff (base : Address) (period : Nat) :
    Function.Periodic base.word period ↔ 2 ^ 30 ∣ period := by
  constructor
  · intro hperiodic
    have hback := (word_eq_word_iff base (0 + period) 0).mp (hperiodic 0)
    omega
  · rintro hdvd i
    rw [word_eq_word_iff]
    omega

end Address

/-- The word of a feed with an index stands at the address with this index, whoever
    decoded it. -/
theorem Feed.FromBytes.exists_address {feed : Feed} (h : feed.FromBytes) :
    ∃ base : Address, ∀ i item, feed.items[i]? = some item → item.isWord = true →
      item.address? = some (base.word i) := by
  obtain ⟨f, base, hitems⟩ := h.exists_items
  refine ⟨base, ?_⟩
  intro i item hitem hword
  rw [hitems] at hitem
  obtain ⟨-, rfl⟩ := Flat.decode_of_isWord hitem hword
  rw [(carries_decode _ _).2.1, Flat.addressAt_eq_word]

namespace Address

/-- **THE ADDRESSES OF WORDS.**  They are the base plus four for each word, modulo
    the address space, although the index is cut before; counting on from an address
    is counting on from the base, and so is going on one by one.  All are as far off
    alignment as the base.  Two indexes have one address if they differ by whole
    periods of as many words as there is room for, and nothing less is a period.  So
    it is with the words of any stream or buffer. -/
theorem word_progression (base : Address) :
    (∀ i, (base.word i).toNat = (base.toNat + 4 * i) % 2 ^ 32) ∧
    (∀ i j, (base.word i).word j = base.word (i + j)) ∧
    (∀ i, (fun address : Address => address.word 1)^[i] base = base.word i) ∧
    (∀ i, (base.word i).toNat % 4 = base.toNat % 4) ∧
    (∀ i j, base.word i = base.word j ↔ i % 2 ^ 30 = j % 2 ^ 30) ∧
    (∀ period, Function.Periodic base.word period ↔ 2 ^ 30 ∣ period) ∧
    (∀ feed : Feed, feed.FromBytes → ∀ i j item item',
      feed.items[i]? = some item → feed.items[j]? = some item' →
      item.isWord = true → item'.isWord = true →
      (item.address? = item'.address? ↔ i % 2 ^ 30 = j % 2 ^ 30)) := by
  refine ⟨toNat_word base, word_word base, iterate_word_one base, toNat_word_mod_four base,
    word_eq_word_iff base, periodic_word_iff base, ?_⟩
  intro feed hfeed i j item item' hi hj hword hword'
  obtain ⟨first, haddress⟩ := hfeed.exists_address
  rw [haddress i item hi hword, haddress j item' hj hword', Option.some_inj, word_eq_word_iff]

/-- An index beyond 32 bits goes on over the end of the address space, and half a
    period is none.  Of three words over the end, the second of them interrupted and
    no instruction, the first and the last stand apart. -/
theorem word_progression_over_the_end :
    ((0xFFFFFFF8 : Address).word (2 ^ 32 + 2)).toNat = 0 ∧
    (0xFFFFFFF8 : Address).word 1 = (0xFFFFFFF8 : Address).word (1 + 3 * 2 ^ 30) ∧
    ¬ Function.Periodic (0xFFFFFFF8 : Address).word (2 ^ 29) ∧
    (Feed.stream (.start 0xFFFFFFF8 [.data [0, 0, 0, 0, 3, 0],
      .fail ⟨.interrupted, "again"⟩, .data [0, 0x70, 8, 0, 0xE0, 3]])).FromBytes ∧
    (Feed.stream (.start 0xFFFFFFF8 [.data [0, 0, 0, 0, 3, 0],
      .fail ⟨.interrupted, "again"⟩, .data [0, 0x70, 8, 0, 0xE0, 3]])).items
        = [decode 0 0xFFFFFFF8, decode 0x70000003 0xFFFFFFFC, decode 0x03E00008 0] ∧
    (decode 0 0xFFFFFFF8).isWord = true ∧ (decode 0x03E00008 0).isWord = true ∧
    (decode 0 0xFFFFFFF8).address? ≠ (decode 0x03E00008 0).address? := by
  have hfeed : (Feed.stream (.start 0xFFFFFFF8 [.data [0, 0, 0, 0, 3, 0],
      .fail ⟨.interrupted, "again"⟩, .data [0, 0x70, 8, 0, 0xE0, 3]])).FromBytes := .stream _ _
  have hitems : (Feed.stream (.start 0xFFFFFFF8 [.data [0, 0, 0, 0, 3, 0],
      .fail ⟨.interrupted, "again"⟩, .data [0, 0x70, 8, 0, 0xE0, 3]])).items
        = [decode 0 0xFFFFFFF8, decode 0x70000003 0xFFFFFFFC, decode 0x03E00008 0] :=
    Cursor.collect_start _ _
  obtain ⟨hsum, -, -, -, hshared, hperiodic, hwords⟩ := word_progression 0xFFFFFFF8
  refine ⟨hsum _, (hshared _ _).mpr (by decide), ?_, hfeed, hitems, rfl, rfl, ?_⟩
  · rw [hperiodic]
    decide
  · rw [Ne, hwords _ hfeed 0 2 (decode 0 0xFFFFFFF8) (decode 0x03E00008 0)
      (by rw [hitems]; rfl) (by rw [hitems]; rfl) rfl rfl]
    decide

end Address

end Mips32

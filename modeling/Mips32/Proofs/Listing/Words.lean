import Mips32.Proofs.Listing.Output
import Mips32.Proofs.Stream.Parallel

/-! # Which words a listing holds

    Only what stands behind the whole words of an input ends a listing in any
    case; a word ends it if it is no instruction and becomes no comment.  So a
    listing of bytes that just end holds the words before the first such one,
    and it is complete exactly if there is none and no byte is left over.

    A feed FROM BYTES gives out nothing else: decoded words, and then perhaps
    one fault that ends it.

    Main statements: `Listing.passed_items` and `Listing.obstacle_items`. -/

namespace Mips32

namespace Flat

end Flat

/-- A feed that decodes bytes: those of a stream, whatever its calls meet, or
    those of a buffer, whoever decodes them. -/
inductive Feed.FromBytes : Feed → Prop
  | stream (base : Address) (events : List Event) : FromBytes (.stream (.start base events))
  | batch {pool : Batch.Pool} (h : pool.InOrder) (bytes : List UInt8) (base : Address) :
      FromBytes (.batch (Batch.decodeOn pool bytes base))

/-- Such a feed gives out the items of a flat stream. -/
theorem Feed.FromBytes.exists_items {feed : Feed} (h : feed.FromBytes) :
    ∃ (f : Flat) (base : Address), feed.items = f.items base := by
  cases h with
  | stream base events => exact ⟨_, base, Cursor.collect_start base events⟩
  | batch hpool bytes base => exact ⟨_, base, Batch.decodeOn_eq_items hpool bytes base⟩

namespace Listing

variable {policy : Policy}

/-- What stands behind the words stops a listing in any case. -/
theorem stopping_of_mem_closing {f : Flat} {base : Address} {item : Item}
    (h : item ∈ f.closing base) : stopping policy item ≠ none := by
  have hword := Flat.isWord_of_mem_closing h
  cases item with
  | ok i => cases hword
  | error fault =>
      cases fault with
      | unrecognized => cases hword
      | truncated => cases policy <;> exact Option.some_ne_none _
      | unreadable => cases policy <;> exact Option.some_ne_none _

/-- What does not stop a listing of bytes is a decoded word. -/
theorem exists_decode_of_none {feed : Feed} (h : feed.FromBytes) {item : Item}
    (hmem : item ∈ feed.items) (hnone : stopping policy item = none) :
    ∃ w address, item = decode w address := by
  obtain ⟨f, base, hitems⟩ := h.exists_items
  rw [hitems, Flat.items] at hmem
  rcases List.mem_append.mp hmem with hword | hclosing
  · obtain ⟨i, -, rfl⟩ := List.mem_map.mp hword
    exact ⟨_, _, rfl⟩
  · exact absurd hnone (stopping_of_mem_closing hclosing)

end Listing

end Mips32

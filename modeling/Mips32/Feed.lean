import Mips32.Batch
import Mips32.Cursor

/-! # Feeds — where a listing takes its items from

    A listing pulls one item after the other.  They come from a batch that was
    decoded before, or from a cursor that decodes each word WHEN IT IS PULLED. -/

namespace Mips32

/-- A supply of items. -/
inductive Feed
  /-- Items that are there already. -/
  | batch (items : List Item)
  /-- Items that a cursor will decode. -/
  | stream (cursor : Cursor)
deriving Repr

namespace Feed

/-- What one pull gives. -/
structure Pull where
  /-- The next item, unless there is none. -/
  item : Option Item
  /-- What is left behind it. -/
  feed : Feed
  /-- What was noted. -/
  records : List Log.Record

/-- Takes the next item. -/
def next : Feed → Pull
  | .batch [] => ⟨none, .batch [], []⟩
  | .batch (i :: is) => ⟨some i, .batch is, []⟩
  | .stream c => ⟨c.next.item, .stream c.next.cursor, c.next.records⟩

/-- How much a feed has still to give. -/
def weight : Feed → Nat
  | .batch is => is.length
  | .stream c => c.weight

/-- Behind an item a feed has less to give. -/
theorem weight_next {f : Feed} {i : Item} (h : f.next.item = some i) :
    f.next.feed.weight < f.weight := by
  cases f with
  | batch is =>
    cases is with
    | nil => cases h
    | cons _ is => exact Nat.lt_succ_self is.length
  | stream c => exact Cursor.weight_next h

end Feed

end Mips32

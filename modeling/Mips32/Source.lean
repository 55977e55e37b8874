import Mips32.Fault
import Mips32.LittleEndian

/-! # Byte sources — where words come from

    A source answers READ CALLS.  A call asks for some bytes and is answered
    with at most that many, with none at all, which ends the input, or with a
    failure.  What the answers will be is the source's list of events; a source
    that has run out of events answers every call with no bytes.

    A word is collected by calls for the bytes that are still missing, so a
    source is never asked for a byte of the NEXT word.  The source counts the
    calls and the bytes it has handed out.

    Main statement: `Source.weight_draw`, a whole word takes something away from
    what the source has still to give. -/

namespace Mips32

/-- What a read call meets. -/
inductive Event
  /-- Bytes to be had.  A call that takes only some of them leaves the others to
      the next call; if there are none, the call is answered with none. -/
  | data (bytes : List UInt8)
  /-- One call fails. -/
  | fail (failure : Failure)
  /-- One call is answered with no bytes. -/
  | stop
deriving DecidableEq, Repr

/-- A byte source. -/
structure Source where
  /-- What the calls to come will meet. -/
  pending : List Event
  /-- How many calls there were. -/
  calls : Nat := 0
  /-- How many bytes they handed out. -/
  delivered : Nat := 0
deriving DecidableEq, Repr

/-- What looking for a word came to. -/
inductive Draw
  /-- Four bytes. -/
  | word (word : Word)
  /-- The input ended where a word would start. -/
  | ended
  /-- The input ended behind this many bytes of a word. -/
  | cut (available : Nat)
  /-- A call failed. -/
  | failed (failure : Failure)
deriving DecidableEq, Repr

namespace Source

/-- A source that hands out the given bytes and then ends. -/
def ofBytes (bytes : List UInt8) : Source := { pending := [.data bytes] }

/-- What the end of the input means behind `held` bytes of a word. -/
def atEnd (held : List UInt8) : Draw := if held.isEmpty then .ended else .cut held.length

/-- The events behind a call that left these bytes of a data event. -/
def leave (bytes : List UInt8) (events : List Event) : List Event :=
  if bytes.isEmpty then events else .data bytes :: events

/-- Collects a word behind the bytes in `held`.  A call that was interrupted is
    made again. -/
def collect (calls delivered : Nat) (held : List UInt8) : List Event → Draw × Source
  | [] => (atEnd held, ⟨[], calls + 1, delivered⟩)
  | .stop :: events => (atEnd held, ⟨events, calls + 1, delivered⟩)
  | .fail failure :: events =>
    if failure.kind = .interrupted then collect (calls + 1) delivered held events
    else (.failed failure, ⟨events, calls + 1, delivered⟩)
  | .data bytes :: events =>
    let taken := bytes.take (4 - held.length)
    if taken.isEmpty then (atEnd held, ⟨events, calls + 1, delivered⟩)
    else if (held ++ taken).length < 4 then
      collect (calls + 1) (delivered + taken.length) (held ++ taken) events
    else
      (.word (LittleEndian.word (held ++ taken)),
        ⟨leave (bytes.drop (4 - held.length)) events, calls + 1,
          delivered + taken.length⟩)

/-- Looks for the next word. -/
def draw (s : Source) : Draw × Source := collect s.calls s.delivered [] s.pending

/-- How much some events have to give: each counts one more than its bytes. -/
def weightOf : List Event → Nat
  | [] => 0
  | .data bytes :: events => bytes.length + 1 + weightOf events
  | .fail _ :: events => 1 + weightOf events
  | .stop :: events => 1 + weightOf events

/-- How much the source has still to give. -/
def weight (s : Source) : Nat := weightOf s.pending

/-! ## A word uses something up -/

/-- Leaving bytes behind weighs no more than a data event that held them. -/
theorem weightOf_leave_le (bytes : List UInt8) (events : List Event) :
    weightOf (leave bytes events) ≤ bytes.length + 1 + weightOf events := by
  unfold leave
  split
  · omega
  · exact Nat.le_refl _

theorem weight_collect {calls delivered : Nat} {held : List UInt8} {events : List Event}
    {w : Word} (h : (collect calls delivered held events).1 = .word w) :
    (collect calls delivered held events).2.weight < weightOf events := by
  induction events generalizing calls delivered held with
  | nil =>
    simp only [collect, atEnd] at h
    split at h <;> cases h
  | cons event events ih =>
    cases event with
    | stop =>
      simp only [collect, atEnd] at h
      split at h <;> cases h
    | fail failure =>
      simp only [collect] at h ⊢
      split at h
      · rename_i hk
        rw [if_pos hk]
        have := ih h
        simp only [weightOf]
        omega
      · cases h
    | data bytes =>
      simp only [collect] at h ⊢
      split at h
      · simp only [atEnd] at h
        split at h <;> cases h
      · rename_i hne
        rw [if_neg hne]
        split at h
        · rename_i hshort
          rw [if_pos hshort]
          have := ih h
          simp only [weightOf]
          omega
        · rename_i hfull
          rw [if_neg hfull]
          have hle := weightOf_leave_le (bytes.drop (4 - held.length)) events
          have htaken : 0 < (bytes.take (4 - held.length)).length := by
            cases ht : bytes.take (4 - held.length) with
            | nil => rw [ht] at hne; exact absurd rfl hne
            | cons _ _ => simp
          have hlen := List.length_drop (i := 4 - held.length) (l := bytes)
          have hmin := List.length_take (i := 4 - held.length) (l := bytes)
          simp only [weight, weightOf]
          omega

/-- **A WORD USES SOMETHING UP**: behind it the source has less to give. -/
theorem weight_draw {s : Source} {w : Word} (h : s.draw.1 = .word w) :
    s.draw.2.weight < s.weight :=
  weight_collect h

end Source

end Mips32

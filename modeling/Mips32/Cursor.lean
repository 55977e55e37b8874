import Mips32.Instruction
import Mips32.Log
import Mips32.Source
import Mips32.Word.Text

/-! # Cursors — decoding a stream word by word

    A cursor decodes the words of a source one at a time, and only when it is
    asked to.  The address belongs to the NEXT word: a whole word moves it on
    by four whether it decodes or not, and nothing else moves it.

    The input ends, breaks off inside a word, or cannot be read: each of these
    FINISHES the cursor, which then never calls its source again.

    Main statement: `Cursor.weight_next`, every item uses up some of what the
    cursor had left, so a stream has only finitely many. -/

namespace Mips32

/-- A place in a stream of words. -/
structure Cursor where
  /-- Where the words come from. -/
  source : Source
  /-- The address of the next word. -/
  address : Address
  /-- Whether the stream is over. -/
  finished : Bool := false
deriving DecidableEq, Repr

namespace Cursor

/-- A record of the decoder. -/
def note (level : Log.Level) (text : String) : Log.Record := ⟨level, .decoder, text⟩

/-- What is noted when a cursor is put at the start of a stream. -/
def opening (base : Address) : Log.Record :=
  note .debug ("disassembling from base address " ++ Numeral.hex base.toNat)

/-- What is noted at the end of the input. -/
def closing (address : Address) : Log.Record :=
  note .debug ("reached end of input at " ++ Numeral.hex address.toNat)

/-- What is noted for a whole word. -/
def tracing (address : Address) (word : Word) : Item → Log.Record
  | .ok i =>
    note .trace (Numeral.hexPadded 8 address.toNat ++ ": "
      ++ word.text ++ " " ++ i.text)
  | .error e => note .trace (Numeral.hexPadded 8 address.toNat ++ ": " ++ e.message)

/-- What one step of a cursor gives. -/
structure Step where
  /-- The next item, unless the stream is over. -/
  item : Option Item
  /-- The cursor behind it. -/
  cursor : Cursor
  /-- What was noted. -/
  records : List Log.Record

/-- Decodes the next word. -/
def next (c : Cursor) : Step :=
  if c.finished then ⟨none, c, []⟩
  else
    match c.source.draw with
    | (.word w, s) =>
      ⟨some (decode w c.address), { c with source := s, address := c.address.word 1 },
        [tracing c.address w (decode w c.address)]⟩
    | (.ended, s) => ⟨none, { c with source := s, finished := true }, [closing c.address]⟩
    | (.cut n, s) =>
      ⟨some (.error (.truncated c.address n)), { c with source := s, finished := true }, []⟩
    | (.failed f, s) =>
      ⟨some (.error (.unreadable f)), { c with source := s, finished := true }, []⟩

/-- How much a cursor has still to give. -/
def weight (c : Cursor) : Nat := if c.finished then 0 else c.source.weight + 1

/-- **ITEMS USE THE STREAM UP**: behind each of them the cursor has less to
    give. -/
theorem weight_next {c : Cursor} {i : Item} (h : c.next.item = some i) :
    c.next.cursor.weight < c.weight := by
  unfold next at h ⊢
  by_cases hf : c.finished
  · rw [if_pos hf] at h
    cases h
  · rw [if_neg hf] at h ⊢
    have hw : c.weight = c.source.weight + 1 := by simp [weight, hf]
    split
    · rename_i w s hd
      have hlt : s.weight < c.source.weight := by
        have := Source.weight_draw (s := c.source) (w := w) (by rw [hd])
        rwa [hd] at this
      simpa [weight, hf] using hlt
    · rename_i s hd
      rw [hd] at h
      cases h
    · rw [hw]
      simp [weight]
    · rw [hw]
      simp [weight]

/-- Pulls all the items that are left onto those given out already, with the
    records of each step. -/
def drain (items : Array Item) (log : Array Log.Record) (c : Cursor) :
    Array Item × Array Log.Record × Cursor :=
  match _h : c.next with
  | ⟨none, c', records⟩ => (items, log ++ records, c')
  | ⟨some i, c', records⟩ => drain (items.push i) (log ++ records) c'
termination_by c.weight
decreasing_by
  have hlt := weight_next (c := c) (i := i) (by rw [_h])
  rwa [_h] at hlt

end Cursor

end Mips32

import Mips32.Instruction
import Mips32.LittleEndian
import Mips32.Log

/-! # Batches — decoding a buffer at once

    The words of a buffer do not depend on each other: each is decoded at the
    address that its INDEX gives it, so they may be decoded in any order and by
    any number of workers.  Who does it is a POOL; all that a batch needs of it
    is that the results stand in the order of the words.

    A tail of less than a word is reported behind them, at the address where
    its word would stand. -/

namespace Mips32.Batch

/-- What is noted before a buffer of so many words is decoded. -/
def opening (words workers : Nat) : Log.Record :=
  ⟨.debug, .decoder,
    "decoding " ++ Numeral.decimal words ++ " words on " ++ Numeral.decimal workers
      ++ " workers"⟩

/-- Workers that share an array of words: what they are given to do with a word
    and its index, they do with all of them. -/
abbrev Pool := (Nat → Word → Item) → Array Word → Array Item

/-- A single worker that takes the words in turn. -/
def Pool.inTurn : Pool := fun decodeAt words => words.mapIdx decodeAt

/-- The results of a pool stand in the order of the words, whoever came to them
    first. -/
def Pool.InOrder (pool : Pool) : Prop :=
  ∀ (decodeAt : Nat → Word → Item) (words : Array Word) (i : Nat),
    (pool decodeAt words)[i]? = words[i]?.map (decodeAt i)

/-- The items of a buffer that was cut into words and a tail. -/
def items (pool : Pool) (base : Address) (words : Array Word) (tail : List UInt8) :
    List Item :=
  let decoded := pool (fun i w => decode w (base.word i)) words
  if tail.isEmpty then decoded.toList
  else (decoded.push (.error (.truncated (base.word words.size) tail.length))).toList

/-- Decodes a buffer whose first word stands at `base` on a pool. -/
def decodeOn (pool : Pool) (bytes : List UInt8) (base : Address) : List Item :=
  items pool base (LittleEndian.words bytes).1 (LittleEndian.words bytes).2

/-- The record that goes with decoding a buffer on this many workers. -/
def record (bytes : List UInt8) (workers : Nat) : Log.Record :=
  opening (LittleEndian.words bytes).1.size workers

/-- The pools there are. -/
structure Pools where
  /-- Starts a pool of so many workers, or says why that failed. -/
  start : Nat → Except String Pool
  /-- The pool that everyone shares. -/
  shared : Pool

/-- The warning that a pool could not be started. -/
def fallback (workers : Nat) (reason : String) : Log.Record :=
  ⟨.warn, .decoder,
    "failed to start a pool of " ++ Numeral.decimal workers
      ++ " threads, using the global pool: " ++ reason⟩

/-- Decodes a buffer on a pool of so many workers, or on the shared one if there
    is no starting them, and what is noted. -/
def Pools.decode (pools : Pools) (bytes : List UInt8) (base : Address) (workers : Nat) :
    List Log.Record × List Item :=
  match pools.start workers with
  | .ok pool => ([record bytes workers], decodeOn pool bytes base)
  | .error reason =>
    ([record bytes workers, fallback workers reason], decodeOn pools.shared bytes base)

/-- The results of all these pools stand in the order of the words. -/
structure Pools.InOrder (pools : Pools) : Prop where
  start : ∀ workers pool, pools.start workers = .ok pool → pool.InOrder
  shared : pools.shared.InOrder

/-- Every pool that is asked for can be started. -/
def Pools.Start (pools : Pools) : Prop := ∀ workers, ∃ pool, pools.start workers = .ok pool

end Mips32.Batch

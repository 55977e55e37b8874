import Mips32.Feed
import Mips32.Writer

/-! # Listings — decoded words as assembler source

    A listing has one line for each word, between the lines of a FRAME that
    makes it a program of its own.  Writing one pulls an item, writes its line,
    and only then pulls the next: nothing is decoded before its line is due.

    A word that is no instruction ends the listing or becomes a comment, as the
    POLICY says; a truncated or unreadable input always ends it.  The writer is
    flushed once, behind the last line, and not at all if the listing ends
    before that.  What it does with the bytes is its own affair: it may be a
    sink, or hold them back for a while. -/

namespace Mips32.Listing

/-- The lines around the decoded words. -/
structure Framing where
  /-- The lines before them. -/
  prologue : List String
  /-- The lines behind them. -/
  epilogue : List String
deriving DecidableEq, Repr

/-- No frame. -/
def Framing.bare : Framing where
  prologue := []
  epilogue := []

/-- A main function that exits with a system call. -/
def Framing.program : Framing where
  prologue := [".text", ".globl main", "main:"]
  epilogue := ["li $v0, 10", "syscall"]

/-- What becomes of a word that is no instruction. -/
inductive Policy
  /-- It ends the listing. -/
  | abort
  /-- It becomes a comment. -/
  | comment
deriving DecidableEq, Repr

/-- What a complete listing holds. -/
structure Summary where
  /-- How many lines are instructions. -/
  instructions : Nat := 0
  /-- How many are comments. -/
  unrecognized : Nat := 0
deriving DecidableEq, Repr

/-- Why a listing is not complete. -/
inductive Error
  /-- An item that the policy does not let pass. -/
  | decode (fault : Fault)
  /-- The writer failed. -/
  | write (failure : Failure)
deriving DecidableEq, Repr

/-- The wording of an error. -/
def Error.message : Error → String
  | .decode fault => fault.message
  | .write failure => "failed to write listing: " ++ failure.text

/-- The comment that stands for a word that is no instruction. -/
def comment (fault : Fault) : String := "# " ++ fault.message

/-- The line of an item, unless the policy does not let it pass. -/
def line? (policy : Policy) : Item → Except Fault String
  | .ok i => .ok i.text
  | .error fault =>
    if fault.isRecoverable ∧ policy = .comment then .ok (comment fault) else .error fault

/-- What is noted before the line of an item is written. -/
def warnings : Item → List Log.Record
  | .ok _ => []
  | .error fault => [⟨.warn, .listing, fault.message⟩]

/-- The summary with one more item in it. -/
def Summary.count (s : Summary) : Item → Summary
  | .ok _ => { s with instructions := s.instructions + 1 }
  | .error _ => { s with unrecognized := s.unrecognized + 1 }

/-- How writing a listing, or a part of one, came out. -/
structure Run (W : Type) where
  /-- What was listed, or why the listing is not complete. -/
  result : Except Error Summary
  /-- The writer as it was left. -/
  sink : W
  /-- The feed as it was left. -/
  feed : Feed
  /-- What was noted. -/
  log : Array Log.Record

variable {W : Type} [Writer W]

/-- Writes the line of each item that the feed has to give. -/
def writeItems (policy : Policy) (feed : Feed) (sink : W) (log : Array Log.Record)
    (summary : Summary) : Run W :=
  match _h : feed.next with
  | ⟨none, feed', records⟩ => ⟨.ok summary, sink, feed', log ++ records⟩
  | ⟨some item, feed', records⟩ =>
    match line? policy item with
    | .error fault => ⟨.error (.decode fault), sink, feed', log ++ records⟩
    | .ok line =>
      match Writer.writeLine sink line with
      | (some failure, sink') =>
        ⟨.error (.write failure), sink', feed', log ++ records ++ warnings item⟩
      | (none, sink') =>
        writeItems policy feed' sink' (log ++ records ++ warnings item) (summary.count item)
termination_by feed.weight
decreasing_by
  have hlt := Feed.weight_next (f := feed) (i := item) (by rw [_h])
  rwa [_h] at hlt

/-- Ends a listing whose items are written: the lines behind them, and the
    flush. -/
def close (framing : Framing) (run : Run W) : Run W :=
  match run.result with
  | .error _ => run
  | .ok _ =>
    match Writer.writeLines run.sink framing.epilogue with
    | (some failure, sink) => { run with result := .error (.write failure), sink }
    | (none, sink) =>
      match Writer.flush sink with
      | (some failure, sink) => { run with result := .error (.write failure), sink }
      | (none, sink) => { run with sink }

/-- Writes a listing. -/
def write (framing : Framing) (policy : Policy) (feed : Feed) (sink : W) : Run W :=
  match Writer.writeLines sink framing.prologue with
  | (some failure, sink) => ⟨.error (.write failure), sink, feed, #[]⟩
  | (none, sink) => close framing (writeItems policy feed sink #[] {})

end Mips32.Listing

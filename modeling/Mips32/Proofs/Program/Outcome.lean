import Mips32.CommandLine.Platform
import Mips32.Proofs.Buffer
import Mips32.Proofs.Directory
import Mips32.Proofs.Listing.Words

/-! # What a run of the program comes to

    A run that cannot read the binary, or cannot open the output, fails and
    leaves everything as it was.  Any other run writes a listing, and if its output
    takes all of it, everything about the run can be told from the bytes of the
    binary: which words have a line, whether the lines around them are complete,
    and the exit code.  The buffer in front of the output does not show, because it
    is dropped on every way out.

    The binary is read before the output is opened, so it may be its own output.
    Main statement: `Program.run_outcome`. -/

namespace Mips32

theorem Batch.Pools.inTurn_inOrder : inTurn.InOrder where
  start := by
    rintro workers pool ⟨⟩
    exact Pool.inTurn_inOrder
  shared := Pool.inTurn_inOrder

/-! ## A run with options -/

namespace Program

variable {Argument Path File : Type} {l : Libraries Argument Path} {o : Options Path}

theorem items_feed {pools : Batch.Pools} (hpools : pools.InOrder) (o : Options Path)
    (binary : List UInt8) :
    (feed pools o binary).2.items = (⟨binary, none⟩ : Flat).items o.base := by
  rw [feed]
  split
  · exact Batch.Pools.decode_eq_items hpools binary o.base o.jobs
  · show (Cursor.start o.base [.data binary]).collect = _
    rw [Cursor.collect_start, Flat.ofEvents_data]

/-- The bytes of the listing of a binary. -/
def listing (o : Options Path) (binary : List UInt8) : List UInt8 :=
  Listing.text (framing o) (policy o) ((⟨binary, none⟩ : Flat).items o.base)

variable [DecidableEq File] {p : Platform Argument Path File} {arguments : List Argument}

theorem run_of_parse (h : p.parse arguments = .ok o) (filter : Log.Filter) (files : Files File) :
    run p arguments filter files
      = (report p.toLibraries o filter
          (disassemble p.toLibraries o (p.read files o.file) (opening p o files)),
        filesAfter p o files
          (disassemble p.toLibraries o (p.read files o.file) (opening p o files)).written) := by
  rw [run, h]

end Program

end Mips32

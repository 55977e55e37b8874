import Mips32.BitRange
import Mips32.Word
import Mips32.Word.Text
import Mips32.Register
import Mips32.Mnemonic
import Mips32.Operand
import Mips32.Opcode
import Mips32.Address
import Mips32.Fault
import Mips32.Instruction
import Mips32.LittleEndian
import Mips32.Log
import Mips32.Source
import Mips32.Cursor
import Mips32.Batch
import Mips32.Feed
import Mips32.Sink
import Mips32.Writer
import Mips32.Buffer
import Mips32.Listing
import Mips32.Path
import Mips32.Options
import Mips32.Files
import Mips32.Directory
import Mips32.Program
import Mips32.CommandLine.Token
import Mips32.CommandLine.Terminal
import Mips32.CommandLine.Arguments
import Mips32.CommandLine.Logger
import Mips32.CommandLine.Platform
import Mips32.Main
import Mips32.Text.Lines
import Mips32.Text.Numeral
import Mips32.Text.Parts
import Mips32.Text.Printable
import Mips32.Text.Quoted
import Mips32.Text.Utf8
import Mips32.Proofs.Address
import Mips32.Proofs.Word
import Mips32.Proofs.Word.Assignment
import Mips32.Proofs.Word.Views
import Mips32.Proofs.BitRange
import Mips32.Proofs.BitRange.Slices
import Mips32.Proofs.BitRange.Sign
import Mips32.Proofs.Numeral
import Mips32.Proofs.Parts
import Mips32.Proofs.Path
import Mips32.Proofs.Quoted
import Mips32.Proofs.Fault
import Mips32.Proofs.Dispatch
import Mips32.Proofs.Stream.Flat
import Mips32.Proofs.Stream.Items
import Mips32.Proofs.Stream.Parallel
import Mips32.Proofs.Assembly.Assembler
import Mips32.Proofs.Assembly.Operands
import Mips32.Proofs.Assembly.RoundTrip
import Mips32.Proofs.Numeral.Signed
import Mips32.Proofs.Sink
import Mips32.Proofs.Stream.Pulls
import Mips32.Proofs.Stream.Session
import Mips32.Proofs.Listing.Output
import Mips32.Proofs.Listing.Lockstep
import Mips32.Proofs.Stream.Account
import Mips32.Proofs.Listing.Words
import Mips32.Proofs.Listing.Simulation
import Mips32.Proofs.Listing.Notes
import Mips32.Proofs.Buffer
import Mips32.Proofs.Directory
import Mips32.Proofs.Program.Outcome
import Mips32.Proofs.Program.Jobs
import Mips32.Proofs.Listing.Reading
import Mips32.Proofs.Address.Spelling
import Mips32.Proofs.Listing.Relocation
import Mips32.Proofs.Listing.Warnings
import Mips32.Proofs.Stream.Pieces
import Mips32.Proofs.Stream.Addresses

import Mips32.Buffer
import Mips32.Files
import Mips32.Listing
import Mips32.Options
import Mips32.Path

/-! # The program — a binary in, a listing out

    The program reads its arguments, warns about a name that promises no
    binary, reads the binary, opens its output, and writes the listing.  The
    first of these that fails is reported and ends the run; what was written
    before a failure STAYS in the output.

    More than one worker decodes the binary at once, a single one word by word
    while the listing is written.

    The listing is written to a buffer.  That of a file is dropped together with
    the listing, before the exit; that of the standard output is emptied by the
    exit itself.  Either way this happens whether the listing is complete or not.

    What the program is linked with, and what it runs on, is a PLATFORM: who reads
    the arguments, starts pools and writes the log, and what paths lead to. -/

namespace Mips32.Program

/-- What a run of the program shows. -/
structure Report where
  /-- The exit code. -/
  exit : Nat
  /-- What went to the standard output. -/
  stdout : List UInt8
  /-- What went to the standard error. -/
  stderr : String
deriving DecidableEq, Repr

/-- What the program is linked with. -/
structure Libraries (Argument Path : Type) where
  /-- Reads the arguments, or ends the run and reports that itself. -/
  parse : List Argument → Except Report (Options Path)
  /-- A path as it is shown.  What is shown in place of bytes that are no text is
      never a separator, a dot or a letter, so the extension `bin` is one of the
      path exactly if it is one of this. -/
  display : Path → String
  /-- The pools of workers. -/
  pools : Batch.Pools
  /-- How lines reach a writer. -/
  pieces : Pieces
  /-- What the logger makes of records under a filter. -/
  logged : Log.Filter → List Log.Record → String

/-- What the program is linked with and runs on. -/
structure Platform (Argument Path File : Type) extends
    Libraries Argument Path, FileSystem Path File where
  /-- What the standard output takes. -/
  stdout : Limits

/-- The logger writes nothing of records that the filter does not keep. -/
def Libraries.Discreet {Argument Path : Type} (l : Libraries Argument Path) : Prop :=
  ∀ filter log, l.logged filter log = l.logged filter (log.filter filter.admits)

variable {Argument Path File : Type}

/-- Decodes a binary, at once or word by word, and what is noted before the
    first item. -/
def feed (pools : Batch.Pools) (o : Options Path) (binary : List UInt8) : List Log.Record × Feed :=
  if 1 < o.jobs then
    let (records, items) := pools.decode binary o.base o.jobs
    (records, .batch items)
  else ([Cursor.opening o.base], .stream { source := .ofBytes binary, address := o.base })

/-- The lines around the words. -/
def framing (o : Options Path) : Listing.Framing := if o.noFraming then .bare else .program

/-- What becomes of unrecognized words. -/
def policy (o : Options Path) : Listing.Policy := if o.keepGoing then .comment else .abort

/-- The records that are kept unless the environment asks for others. -/
def defaultFilter : Log.Filter := some .warn

/-- What is noted behind a complete listing. -/
def closing (s : Listing.Summary) : Log.Record :=
  ⟨.info, .program,
    "wrote " ++ Numeral.decimal s.instructions ++ " instructions ("
      ++ Numeral.decimal s.unrecognized ++ " unrecognized)"⟩

/-- How a run with options came out. -/
structure Outcome where
  /-- What was noted. -/
  log : List Log.Record
  /-- The failure that ended it, if one did. -/
  failure : Option String
  /-- What reached the output, if it was opened. -/
  written : Option (Array UInt8)

/-- A failure at a path. -/
def failureAt (deed path reason : String) : String :=
  "failed to " ++ deed ++ " " ++ path ++ ": " ++ reason

/-- The buffer in front of an output. -/
def buffer (pieces : Pieces) (o : Options Path) (limits : Limits) : Buffer :=
  if o.stdout then .standard pieces limits.sink else .file pieces limits.sink

/-- Writes a listing, and drops the buffer that it was written to: the listing is
    gone by the time its result is looked at. -/
def list (l : Libraries Argument Path) (o : Options Path) (items : Feed) (limits : Limits) :
    Outcome :=
  let run := Listing.write (framing o) (policy o) items (buffer l.pieces o limits)
  let written := some run.sink.drop.accepted
  match run.result with
  | .ok summary => ⟨run.log.toList ++ [closing summary], none, written⟩
  | .error e =>
    ⟨run.log.toList, some (failureAt "disassemble" (l.display o.file) e.message), written⟩

/-- A run with options, given what reading the binary and opening the output
    came to.  Opening is not looked at if reading failed. -/
def disassemble (l : Libraries Argument Path) (o : Options Path)
    (reading : Except String (List UInt8)) (opening : Except String Limits) : Outcome :=
  let warnings := Mips32.Path.checkExtension (l.display o.file)
  match reading with
  | .error reason => ⟨warnings, some (failureAt "read" (l.display o.file) reason), none⟩
  | .ok binary =>
    let (begun, items) := feed l.pools o binary
    match opening with
    | .error reason =>
      ⟨warnings ++ begun, some (failureAt "open" (l.display o.save) reason), none⟩
    | .ok limits =>
      let listed := list l o items limits
      { listed with log := warnings ++ begun ++ listed.log }

/-- The report of a run with options. -/
def report (l : Libraries Argument Path) (o : Options Path) (filter : Log.Filter)
    (outcome : Outcome) : Report where
  exit := if outcome.failure.isSome then 1 else 0
  stdout := if o.stdout then (outcome.written.getD #[]).toList else []
  stderr := l.logged filter outcome.log ++ String.join (outcome.failure.toList.map (· ++ "\n"))

/-- What opening the output comes to. -/
def opening (p : Platform Argument Path File) (o : Options Path) (files : Files File) :
    Except String Limits :=
  if o.stdout then .ok p.stdout
  else
    match p.create files o.save with
    | .ok f => .ok (p.limits f)
    | .error reason => .error reason

/-- The files behind a run: what was written is in the output, in place of what
    it held before. -/
def filesAfter [DecidableEq File] (p : Platform Argument Path File) (o : Options Path)
    (files : Files File) (written : Option (Array UInt8)) : Files File :=
  match o.stdout, written, p.create files o.save with
  | false, some bytes, .ok f => files.put f bytes.toList
  | _, _, _ => files

/-- The program on a platform. -/
def run [DecidableEq File] (p : Platform Argument Path File) (arguments : List Argument)
    (filter : Log.Filter) (files : Files File) : Report × Files File :=
  match p.parse arguments with
  | .error report => (report, files)
  | .ok o =>
    let outcome := disassemble p.toLibraries o (p.read files o.file) (opening p o files)
    (report p.toLibraries o filter outcome, filesAfter p o files outcome.written)

end Mips32.Program

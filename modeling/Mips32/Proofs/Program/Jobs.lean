import Mips32.CommandLine.Platform
import Mips32.Proofs.Listing.Notes
import Mips32.Proofs.Program.Outcome

/-! # The number of jobs does not show

    With more than one job the binary is decoded at once and before anything is
    written, with one it is decoded word by word as the listing goes on.  The
    items are the same, so the listing is, at every byte that the output may refuse
    and at every item that may end it; what differs are details of the log.

    Two outcomes AGREE if they differ in nothing else.  Main statement:
    `Program.run_eq_of_jobs`. -/

namespace Mips32

/-- The logger writes nothing of what its filter does not keep. -/
theorem Log.written_filter (clock : Nat → String) (filter : Log.Filter) (log : List Log.Record) :
    Log.written clock filter log = Log.written clock filter (log.filter filter.admits) := by
  rw [Log.written, Log.written, List.filter_filter]
  simp only [Bool.and_self]

namespace Program

open Log (Coarse)

variable {Argument Path File : Type} {l : Libraries Argument Path} {keep : Log.Record → Bool}

/-- Two outcomes that a choice of records does not tell apart. -/
structure Outcome.Agree (keep : Log.Record → Bool) (a b : Outcome) : Prop where
  failure : a.failure = b.failure
  written : a.written = b.written
  log : a.log.filter keep = b.log.filter keep

/-- What is noted before the first item is a detail, however the binary is decoded,
    if there is no need for the pool that everyone shares. -/
theorem filter_feed (hkeep : Coarse keep) {pools : Batch.Pools} (hstart : pools.Start)
    (o : Options Path) (binary : List UInt8) : (feed pools o binary).1.filter keep = [] := by
  refine hkeep.filter_eq_nil ?_
  intro r hr
  rw [feed] at hr
  split at hr
  · obtain ⟨pool, hpool⟩ := hstart o.jobs
    simp only [Batch.Pools.decode, hpool] at hr
    exact List.mem_singleton.mp hr ▸ .inl rfl
  · exact List.mem_singleton.mp hr ▸ .inl rfl

theorem list_agree (hkeep : Coarse keep) (l : Libraries Argument Path) (o : Options Path)
    (jobs : Nat) {items items' : Feed} (h : items.items = items'.items) (limits : Limits) :
    (list l o items limits).Agree keep (list l { o with jobs } items' limits) := by
  obtain ⟨hresult, hsink, hlog⟩ :=
    Listing.write_congr h (framing o) (policy o) (buffer l.pieces o limits)
  have hlist : list l { o with jobs } items' limits = list l o items' limits := rfl
  rw [hlist, list, list, hresult, hsink]
  cases (Listing.write (framing o) (policy o) items' (buffer l.pieces o limits)).result with
  | ok summary =>
      refine ⟨rfl, rfl, ?_⟩
      rw [List.filter_append, List.filter_append, hlog keep hkeep]
  | error e => exact ⟨rfl, rfl, hlog keep hkeep⟩

/-- **OUTCOMES AGREE**, wherever the run ends. -/
theorem disassemble_agree (hkeep : Coarse keep) (hpools : l.pools.InOrder)
    (hstart : l.pools.Start) (o : Options Path) (jobs : Nat)
    (reading : Except String (List UInt8)) (opening : Except String Limits) :
    (disassemble l o reading opening).Agree keep
      (disassemble l { o with jobs } reading opening) := by
  cases reading with
  | error reason => exact ⟨rfl, rfl, rfl⟩
  | ok binary =>
      cases opening with
      | error reason =>
          refine ⟨rfl, rfl, ?_⟩
          show (_ ++ (feed l.pools o binary).1).filter keep
            = (_ ++ (feed l.pools { o with jobs } binary).1).filter keep
          rw [List.filter_append, List.filter_append, filter_feed hkeep hstart,
            filter_feed hkeep hstart]
      | ok limits =>
          have hitems : (feed l.pools o binary).2.items
              = (feed l.pools { o with jobs } binary).2.items :=
            (items_feed hpools o binary).trans (items_feed hpools { o with jobs } binary).symm
          obtain ⟨hfailure, hwritten, hlog⟩ := list_agree hkeep l o jobs hitems limits
          have hlisted (o : Options Path) :
              (disassemble l o (.ok binary) (.ok limits)).log.filter keep
                = (Mips32.Path.checkExtension (l.display o.file)).filter keep
                  ++ (list l o (feed l.pools o binary).2 limits).log.filter keep := by
            show ((_ ++ (feed l.pools o binary).1)
              ++ (list l o (feed l.pools o binary).2 limits).log).filter keep = _
            rw [List.filter_append, List.filter_append, filter_feed hkeep hstart, List.append_nil]
          refine ⟨hfailure, hwritten, ?_⟩
          rw [hlisted, hlisted, hlog]

/-- **THE NUMBER OF JOBS DOES NOT SHOW.**  A listing of what a pool decoded at
    once, on any number of workers, is the listing over a cursor, in any sink and
    with the same warnings.  On a platform whose pools start and keep the order,
    and whose logger keeps to the filter, two runs whose options differ in the jobs
    alone end alike: exit code, both outputs, and the files behind them, whatever
    their output refuses. -/
theorem run_eq_of_jobs :
    (∀ (pool : Batch.Pool) (bytes : List UInt8) (base : Address) (workers : Nat)
        (framing : Listing.Framing) (policy : Listing.Policy) (sink : Sink), pool.InOrder →
      let atOnce := Listing.write framing policy (.batch (Batch.decodeOn pool bytes base)) sink
      let inTurn := Listing.write framing policy (.stream (.start base [.data bytes])) sink
      let warned (records : List Log.Record) := records.filter fun r => decide (r.level = .warn)
      atOnce.sink = inTurn.sink ∧ atOnce.result = inTurn.result ∧
        warned (Batch.record bytes workers :: atOnce.log.toList)
          = warned (Cursor.opening base :: inTurn.log.toList)) ∧
    (∀ (Argument Path File : Type) [DecidableEq File] (p : Platform Argument Path File)
        (files : Files File) (filter : Log.Filter) (arguments arguments' : List Argument)
        (o : Options Path) (jobs : Nat), p.pools.InOrder → p.pools.Start →
      p.Discreet → filter ∈ Log.coarseFilters → p.parse arguments = .ok o →
      p.parse arguments' = .ok { o with jobs } →
      run p arguments filter files = run p arguments' filter files) := by
  constructor
  · intro pool bytes base workers framing policy sink hpool atOnce inTurn warned
    have hitems : (Feed.batch (Batch.decodeOn pool bytes base)).items
        = (Feed.stream (.start base [.data bytes])).items := by
      show Batch.decodeOn pool bytes base = (Cursor.start base [.data bytes]).collect
      rw [Batch.decodeOn_eq_items hpool, Cursor.collect_start, Flat.ofEvents_data]
    obtain ⟨hresult, hsink, hlog⟩ := Listing.write_congr hitems framing policy sink
    exact ⟨hsink, hresult, hlog _ Log.coarse_warn⟩
  · intro Argument Path File _ p files filter arguments arguments' o jobs hpools hstart hlogged
      hfilter hparse hparse'
    obtain ⟨hfailure, hwritten, hlog⟩ := disassemble_agree (Log.coarse_admits hfilter) hpools
      hstart o jobs (p.read files o.file) (opening p o files)
    rw [run_of_parse hparse, run_of_parse hparse']
    show _ = (report p.toLibraries o filter
        (disassemble p.toLibraries { o with jobs } _ (opening p o files)),
      filesAfter p o files
        (disassemble p.toLibraries { o with jobs } _ (opening p o files)).written)
    rw [report, report, hlogged, hfailure, hwritten, hlog, ← hlogged]

/-- Two workers in a sink that is full within the comment, and two runs over the
    same bytes on a platform that tells the time, one of them with four jobs. -/
theorem run_eq_of_jobs_two_workers :
    let p : Platform String String Place :=
      { CommandLine.platform (fun _ => "2026-01-02T03:04:05Z ") ⟨[], ["work".toList]⟩ with
        pools := .sharing }
    let files := Files.none.put ["work".toList, "a".toList] [0, 0, 0, 0, 3, 0, 0, 0x70]
    (Batch.Pool.sharing 2).InOrder ∧
    (Listing.write .bare .comment
        (.batch (Batch.decodeOn (.sharing 2) [0, 0, 0, 0, 3, 0, 0, 0x70] 0))
        ({ room := some 9 } : Sink)).sink
      = (Listing.write .bare .comment
          (.stream (.start 0 [.data [0, 0, 0, 0, 3, 0, 0, 0x70]]))
          ({ room := some 9 } : Sink)).sink ∧
    (p.pools.InOrder ∧ p.pools.Start ∧ p.Discreet) ∧
    p.parse ["-kf", "a"]
      = .ok { file := "a", save := "mips32_disass_output.s", keepGoing := true } ∧
    p.parse ["-k", "--jobs=4", "-f", "a"]
      = .ok { file := "a", save := "mips32_disass_output.s", keepGoing := true, jobs := 4 } ∧
    run p ["-kf", "a"] (some .info) files
      = run p ["-k", "--jobs=4", "-f", "a"] (some .info) files := by
  intro p files
  have hparse : p.parse ["-kf", "a"]
      = .ok { file := "a", save := "mips32_disass_output.s", keepGoing := true } := rfl
  have hparse' : p.parse ["-k", "--jobs=4", "-f", "a"]
      = .ok { file := "a", save := "mips32_disass_output.s", keepGoing := true, jobs := 4 } := rfl
  have hlogged : p.Discreet := Log.written_filter _
  obtain ⟨hlisting, hruns⟩ := run_eq_of_jobs
  refine ⟨Batch.Pool.sharing_inOrder 2, ?_, ⟨Batch.Pools.sharing_inOrder, Batch.Pools.sharing_start,
    hlogged⟩, hparse, hparse', ?_⟩
  · exact (hlisting _ _ 0 2 .bare .comment { room := some 9 } (Batch.Pool.sharing_inOrder 2)).1
  · exact hruns _ _ _ p files _ _ _ _ 4 Batch.Pools.sharing_inOrder Batch.Pools.sharing_start
      hlogged (by decide) hparse hparse'

end Program

end Mips32

import Mips32.Proofs.Listing.Lockstep
import Mips32.Proofs.Listing.Notes
import Mips32.Proofs.Listing.Reading

/-! # Warnings and comments

    A word that becomes a comment is told twice: the log gets its message as a
    warning, and then the sink gets the same message as a line.  The warning is the
    FIRST of the two, so a sink that refuses a comment leaves a warning without its
    line, and nothing else does.

    Where a listing stops says which items were pulled, and the warnings are those
    of exactly these items: `StopsIn.warned`.  What the sink accepted by then ends
    inside the line where it stopped: `StopsIn.accepted`.

    Main statement: `Listing.write_warnings`. -/

namespace Mips32

/-- What there is to say about a word that is no instruction. -/
def Item.complaint : Item → Option String
  | .error (.unrecognized address word opcode function) =>
    some (Fault.message (.unrecognized address word opcode function))
  | _ => none

namespace Listing

open Sink (linesBytes)

/-- The warnings in the log of a run. -/
def Run.warned (run : Run Sink) : List Log.Record :=
  run.log.toList.filter fun r => decide (r.level = .warn)

/-- The warnings that items are worth: one for each word that becomes a comment. -/
def warningsOf : Policy → List Item → List Log.Record
  | .abort, _ => []
  | .comment, items => (items.filterMap Item.complaint).map fun text => ⟨.warn, .listing, text⟩

/-- Whether a line is a comment. -/
def isComment (line : String) : Bool := line.toList.head? = some '#'

variable {framing : Framing} {policy : Policy} {feed : Feed} {sink last : Sink}
  {front : List String} {item : Item} {items rest : List Item} {stage : Stage}
  {error : Option Error} {k : Nat}

/-! ## The warnings of items -/

theorem warningsOf_append (policy : Policy) (items rest : List Item) :
    warningsOf policy (items ++ rest) = warningsOf policy items ++ warningsOf policy rest := by
  cases policy with
  | abort => rfl
  | comment => simp [warningsOf]

/-- An item that passes is noted if it becomes a comment. -/
theorem warnings_of_none (h : stopping policy item = none) :
    warnings item = warningsOf policy [item] := by
  rcases item with (_ | _ | _) | i
  · cases policy with
    | abort => cases h
    | comment => rfl
  · cases policy <;> cases h
  · cases policy <;> cases h
  · cases policy <;> rfl

/-- An item that ends a listing is worth no warning. -/
theorem warningsOf_of_stopping {fault : Fault} (h : stopping policy item = some fault) :
    warningsOf policy [item] = [] := by
  rcases item with (_ | _ | _) | i
  · cases policy with
    | abort => rfl
    | comment => cases h
  · cases policy <;> rfl
  · cases policy <;> rfl
  · cases policy <;> cases h

theorem level_of_mem_warningsOf {r : Log.Record} (h : r ∈ warningsOf policy items) :
    r.level = .warn := by
  cases policy with
  | abort => cases h
  | comment =>
      obtain ⟨_, _, rfl⟩ := List.mem_map.mp h
      rfl

/-- **WHAT IS NOTED WHILE ITEMS PASS**: their warnings, and then what is noted of
    the items behind them. -/
theorem noted_append (rest : List Item) (hpass : ∀ i ∈ items, stopping policy i = none)
    (hwrite : sink.write (linesBytes (items.map line)) = (none, last)) :
    noted policy sink (items ++ rest) = warningsOf policy items ++ noted policy last rest := by
  induction items generalizing sink with
  | nil =>
      obtain rfl : sink = last := (Prod.mk.inj ((Sink.write_nil sink).symm.trans hwrite)).2
      cases policy <;> rfl
  | cons item items ih =>
      rw [List.forall_mem_cons] at hpass
      rw [List.map_cons, Sink.linesBytes_cons, Sink.write_append,
        ← Sink.writeLine_eq_write] at hwrite
      rw [List.cons_append, noted, hpass.1]
      rcases hline : Writer.writeLine sink (line item) with ⟨failure | failure, sink'⟩
      · rw [hline] at hwrite
        show warnings item ++ noted policy sink' (items ++ rest) = _
        rw [ih hpass.2 hwrite, warnings_of_none hpass.1, ← List.append_assoc,
          ← warningsOf_append]
        rfl
      · rw [hline] at hwrite
        cases hwrite

/-! ## Where a listing stops -/

theorem head_eq_append (front : List String) (items : List Item) (k : Nat) :
    head front items k = linesBytes front ++ linesBytes ((items.take k).map line) := by
  rw [head, Sink.linesBytes_append]

theorem take_succ (hk : items[k]? = some item) : items.take (k + 1) = items.take k ++ [item] := by
  rw [List.take_add_one, hk, Option.toList_some]

/-- Behind the items that are written, their warnings are noted and the sink goes
    on with the others. -/
theorem Written.noted (h : Written policy sink front items k) :
    ∃ begun last, sink.write (linesBytes front) = (none, begun) ∧
      sink.write (head front items k) = (none, last) ∧
      noted policy begun items
        = warningsOf policy (items.take k) ++ noted policy last (items.drop k) := by
  obtain ⟨last, hwrite⟩ : ∃ last, sink.write (head front items k) = (none, last) :=
    ⟨_, Sink.write_of_fits h.fits⟩
  have hlines := hwrite
  rw [head_eq_append, Sink.write_append] at hlines
  rcases hfront : sink.write (linesBytes front) with ⟨failure | failure, begun⟩
  · rw [hfront] at hlines
    have hnoted := noted_append (items.drop k) h.passed hlines
    rw [List.take_append_drop] at hnoted
    exact ⟨begun, last, rfl, hwrite, hnoted⟩
  · rw [hfront] at hlines
    cases hlines

/-- A line that does not fit is refused by the sink that the lines before it
    left. -/
theorem exists_refused (hk : items[k]? = some item)
    (hwrite : sink.write (head front items k) = (none, last))
    (hnot : ¬ sink.Fits (head front items (k + 1)).length) :
    ∃ full, Writer.writeLine last (line item) = (some sink.overflow, full) := by
  obtain ⟨n, -, -, hfull⟩ := Sink.write_of_not_fits hnot
  rw [head_succ hk, Sink.write_append, hwrite] at hfull
  exact ⟨_, hfull⟩

/-- **THE WARNINGS ARE THOSE OF THE ITEMS PULLED**, wherever the listing stops. -/
theorem StopsIn.warned (h : StopsIn policy sink framing.prologue feed.items stage error) :
    (write framing policy feed sink).warned
      = warningsOf policy (feed.items.take (stage.pulls feed.items.length)) := by
  have hlog := filter_log_write Log.coarse_warn framing policy feed sink
  rw [Sink.writeLines_eq_write] at hlog
  -- a choice of warnings drops none of these
  have hkeep (items : List Item) :
      (warningsOf policy items).filter (fun r => decide (r.level = .warn))
        = warningsOf policy items := by
    rw [List.filter_eq_self]
    intro r hr
    exact decide_eq_true (level_of_mem_warningsOf hr)
  rw [Run.warned, hlog]
  cases h with
  | prologue hnot =>
      obtain ⟨n, -, -, hfull⟩ := Sink.write_of_not_fits hnot
      rw [hfull]
      cases policy <;> rfl
  | @rejected k item fault hwritten hk hstop =>
      obtain ⟨begun, last, hfront, -, hnoted⟩ := hwritten.noted
      have hend : noted policy last (feed.items.drop k) = [] := by
        rw [drop_eq_cons hk, Listing.noted, hstop]
      rw [hfront]
      show (noted policy begun feed.items).filter _ = warningsOf policy (feed.items.take (k + 1))
      rw [hnoted, hend, take_succ hk, warningsOf_append, warningsOf_of_stopping hstop,
        List.append_nil, hkeep]
  | @refused k item hwritten hk hpass hnot =>
      obtain ⟨begun, last, hfront, hwrite, hnoted⟩ := hwritten.noted
      obtain ⟨full, hline⟩ := exists_refused hk hwrite hnot
      have hend : noted policy last (feed.items.drop k) = warningsOf policy [item] := by
        rw [drop_eq_cons hk, Listing.noted, hpass, hline]
        exact warnings_of_none hpass
      rw [hfront]
      show (noted policy begun feed.items).filter _ = warningsOf policy (feed.items.take (k + 1))
      rw [hnoted, hend, ← warningsOf_append, ← take_succ hk, hkeep]
  | epilogue hwritten =>
      obtain ⟨begun, last, hfront, -, hnoted⟩ := hwritten.noted
      rw [hfront]
      show (noted policy begun feed.items).filter _
        = warningsOf policy (feed.items.take (feed.items.length + 1))
      rw [hnoted, List.drop_length, List.take_length, List.take_of_length_le (Nat.le_succ _)]
      show (warningsOf policy feed.items ++ []).filter _ = _
      rw [List.append_nil, hkeep]

/-! ## What is accepted by then -/

/-- Items that pass are listed, whatever is behind them. -/
theorem exists_text_eq_head (framing : Framing)
    (hpass : ∀ i ∈ items.take k, stopping policy i = none) :
    ∃ more, text framing policy items = head framing.prologue items k ++ more := by
  have hnone : ∀ i ∈ items.take k, (stopping policy i).isNone = true := by
    intro i hi
    rw [hpass i hi]
    rfl
  have hpassed : passed policy items = items.take k ++ passed policy (items.drop k) := by
    rw [passed, passed, ← List.takeWhile_append_of_pos hnone, List.take_append_drop]
  rw [text, lines, hpassed, List.map_append, ← List.append_assoc, List.append_assoc _ _ (ite ..),
    linesBytes, List.flatMap_append]
  exact ⟨_, rfl⟩

/-- What does not fit keeps the whole listing from fitting. -/
theorem not_fits_text {begun more : List UInt8}
    (htext : text framing policy items = begun ++ more) (hnot : ¬ sink.Fits begun.length) :
    ¬ sink.Fits (text framing policy items).length := by
  intro hall
  refine hnot (hall.mono ?_)
  rw [htext]
  exact (List.prefix_append begun more).length_le

/-- A sink that is full inside some bytes accepted what is in front of them and not
    all of them. -/
theorem accepted_of_cut {begun cut more : List UInt8}
    (htext : text framing policy feed.items = begun ++ cut ++ more)
    (hfits : sink.Fits begun.length) (hnot : ¬ sink.Fits (begun ++ cut).length) :
    ∃ part, part <+: cut ∧ part ≠ cut ∧
      (write framing policy feed sink).sink.accepted.toList
        = sink.accepted.toList ++ begun ++ part := by
  obtain ⟨room, hroom, -, haccepted, -⟩ := run_of_not_fits (not_fits_text htext hnot)
  have hle : begun.length ≤ room := hfits room hroom
  have hlt : room < (begun ++ cut).length := by
    refine Nat.lt_of_not_le fun hle => hnot ?_
    intro room' hroom'
    rw [hroom] at hroom'
    cases hroom'
    exact hle
  rw [List.length_append] at hlt
  refine ⟨cut.take (room - begun.length), List.take_prefix _ _, ?_, ?_⟩
  · intro heq
    have hlength := congrArg List.length heq
    rw [List.length_take] at hlength
    omega
  · rw [haccepted, htext, Array.toList_appendList, List.append_assoc, List.take_append,
      List.take_of_length_le hle, List.take_append_of_le_length (by omega), List.append_assoc]

/-- A listing of which all items pass ends in the lines behind them. -/
theorem accepted_of_end (hpass : ∀ i ∈ feed.items, stopping policy i = none)
    (hfits : sink.Fits (head framing.prologue feed.items feed.items.length).length) :
    ∃ part, part <+: linesBytes framing.epilogue ∧
      (write framing policy feed sink).sink.accepted.toList = sink.accepted.toList
        ++ linesBytes (framing.prologue ++ feed.items.map line) ++ part := by
  obtain ⟨hpassed, hobstacle⟩ := passed_eq_self hpass
  have hhead : head framing.prologue feed.items feed.items.length
      = linesBytes (framing.prologue ++ feed.items.map line) := by
    rw [head, List.take_length]
  have htext : text framing policy feed.items
      = linesBytes (framing.prologue ++ feed.items.map line) ++ linesBytes framing.epilogue
        ++ [] := by
    rw [text, lines, hpassed, hobstacle, linesBytes, List.flatMap_append, List.append_nil]
    rfl
  by_cases hall : sink.Fits (text framing policy feed.items).length
  · obtain ⟨-, haccepted, -⟩ := run_of_fits framing policy feed hall
    refine ⟨_, List.prefix_rfl, ?_⟩
    rw [haccepted, htext, List.append_nil, Array.toList_appendList, List.append_assoc]
  · rw [hhead] at hfits
    rw [htext, List.append_nil] at hall
    obtain ⟨part, hpart, -, haccepted⟩ := accepted_of_cut htext hfits hall
    exact ⟨part, hpart, haccepted⟩

/-! ## Warnings beside comments -/

/-- **A COMMENT IS ITS WARNING BEHIND A NUMBER SIGN**: among the lines of items that
    pass, the comments are those of the warnings, in the same order. -/
theorem filter_isComment_map_line (hpass : ∀ i ∈ items, stopping policy i = none)
    (hdecoded : ∀ i ∈ items, ∃ w address, i = decode w address) :
    (items.map line).filter isComment = (warningsOf policy items).map fun r => "# " ++ r.text := by
  induction items with
  | nil => cases policy <;> rfl
  | cons item items ih =>
      rw [List.forall_mem_cons] at hpass hdecoded
      have hitem : [line item].filter isComment
          = (warningsOf policy [item]).map fun r => "# " ++ r.text := by
        obtain ⟨w, address, hdecode⟩ := hdecoded.1
        have hkind := (line_decode w address).2.2
        rw [← hdecode] at hkind
        rcases item with (_ | _ | _) | i
        · have hcomment : isComment (line (.error (.unrecognized ..))) = true :=
            decide_eq_true (hkind.mpr rfl)
          rw [List.filter_cons_of_pos hcomment]
          cases policy with
          | abort => cases hpass.1
          | comment => rfl
        · cases policy <;> cases hpass.1
        · cases policy <;> cases hpass.1
        · have hplain : ¬ isComment (line (.ok i)) = true := by
            intro hcomment
            cases hkind.mp (of_decide_eq_true hcomment)
          rw [List.filter_cons_of_neg hplain]
          cases policy <;> rfl
      have hrest := ih hpass.2 hdecoded.2
      have hcons : item :: items = [item] ++ items := rfl
      rw [hcons, warningsOf_append, List.map_append, List.map_append, List.filter_append, hrest]
      exact congrArg (· ++ _) hitem

theorem countP_isComment (hpass : ∀ i ∈ items, stopping policy i = none)
    (hdecoded : ∀ i ∈ items, ∃ w address, i = decode w address) :
    (items.map line).countP isComment = (warningsOf policy items).length := by
  rw [List.countP_eq_length_filter, filter_isComment_map_line hpass hdecoded, List.length_map]

/-- The comments that a summary counts are the comments. -/
theorem unrecognized_of (hdecoded : ∀ i ∈ items, ∃ w address, i = decode w address) :
    (Summary.of items).unrecognized = (items.map line).countP isComment := by
  rw [Summary.of, List.countP_map]
  apply List.countP_congr
  intro i hi
  obtain ⟨w, address, rfl⟩ := hdecoded i hi
  have hkind := (line_decode w address).2.2
  rw [Bool.not_eq_true', ← hkind]
  exact decide_eq_true_iff.symm

/-! ## All runs -/

theorem warningsOf_prefix (policy : Policy) {before all : List Item} (h : before <+: all) :
    warningsOf policy before <+: warningsOf policy all := by
  obtain ⟨rest, rfl⟩ := h
  rw [warningsOf_append]
  exact List.prefix_append _ _

/-- In a sink that is full in front of the line of an item, the item is warned of
    and nothing of its line is accepted. -/
theorem warned_of_full (hk : feed.items[k]? = some item)
    (hpass : ∀ i ∈ feed.items.take (k + 1), stopping policy i = none)
    (hroom : sink.room = some (head framing.prologue feed.items k).length) :
    (write framing policy feed sink).sink.accepted.toList
        = sink.accepted.toList ++ head framing.prologue feed.items k ∧
      (write framing policy feed sink).warned = warningsOf policy (feed.items.take (k + 1)) := by
  have hwritten : Written policy sink framing.prologue feed.items k := by
    constructor
    · intro i hi
      apply hpass
      rw [take_succ hk]
      exact List.mem_append_left _ hi
    · intro room hsome
      rw [hroom] at hsome
      exact Nat.le_of_eq (Option.some.inj hsome)
  have hlonger : (head framing.prologue feed.items k).length
      < (head framing.prologue feed.items (k + 1)).length := by
    rw [head_succ hk, List.length_append]
    have hend : 0 < (Sink.lineBytes (line item)).length := by
      rw [Sink.lineBytes, Utf8.bytes_append, List.length_append]
      exact Nat.lt_of_lt_of_le Nat.zero_lt_one (Nat.le_add_left 1 _)
    omega
  have hnot : ¬ sink.Fits (head framing.prologue feed.items (k + 1)).length :=
    fun hfits => Nat.not_le_of_lt hlonger (hfits _ hroom)
  have hlast : stopping policy item = none := by
    apply hpass
    rw [take_succ hk]
    exact List.mem_append_right _ (List.mem_singleton_self item)
  constructor
  · obtain ⟨more, htext⟩ := exists_text_eq_head framing hpass
    have hcut : text framing policy feed.items
        = head framing.prologue feed.items k ++ Sink.lineBytes (line item) ++ more := by
      rw [htext, head_succ hk]
    obtain ⟨room, hsome, -, haccepted, -⟩ := run_of_not_fits (not_fits_text htext hnot)
    obtain rfl := Option.some.inj (hroom.symm.trans hsome)
    rw [haccepted, hcut, List.append_assoc, List.take_left', Array.toList_appendList]
    rfl
  · exact (StopsIn.refused hwritten hk hlast hnot).warned

/-- With more room, a listing only warns of more. -/
theorem warned_prefix {sink' : Sink} (framing : Framing) (policy : Policy) (feed : Feed)
    (hroom : ∀ n, sink.Fits n → sink'.Fits n) :
    (write framing policy feed sink).warned <+: (write framing policy feed sink').warned := by
  obtain ⟨stage, error, hstops, -, -⟩ := write_stops framing policy feed sink
  obtain ⟨stage', error', hstops', -, -⟩ := write_stops framing policy feed sink'
  rw [hstops.warned, hstops'.warned]
  exact warningsOf_prefix policy (List.take_prefix_take_left (hstops.pulls_le hroom hstops'))

/-- A complete listing warns of all its comments. -/
theorem warned_of_ok {summary : Summary} (hfeed : feed.FromBytes)
    (hok : (write framing policy feed sink).result = .ok summary) :
    (write framing policy feed sink).sink.accepted.toList = sink.accepted.toList
        ++ linesBytes (framing.prologue ++ feed.items.map line ++ framing.epilogue) ∧
      (feed.items.map line).filter isComment
        = (write framing policy feed sink).warned.map (fun r => "# " ++ r.text) ∧
      summary.unrecognized = (write framing policy feed sink).warned.length := by
  obtain ⟨hpass, -⟩ := output_of_ok hok
  obtain ⟨hpassed, hobstacle⟩ := passed_eq_self hpass
  have hdecoded : ∀ i ∈ feed.items, ∃ w address, i = decode w address :=
    fun i hi => exists_decode_of_none hfeed hi (hpass i hi)
  have hwarned : (write framing policy feed sink).warned = warningsOf policy feed.items := by
    obtain ⟨stage, error, hstops, -, hresult⟩ := write_stops framing policy feed sink
    rw [hstops.warned]
    cases hstops with
    | prologue => cases hok.symm.trans hresult
    | rejected => cases hok.symm.trans hresult
    | refused => cases hok.symm.trans hresult
    | epilogue => exact congrArg _ (List.take_of_length_le (Nat.le_succ _))
  have hfits : sink.Fits (text framing policy feed.items).length := by
    by_contra hnot
    obtain ⟨room, -, hrefused, -, -⟩ := run_of_not_fits hnot
    cases hok.symm.trans hrefused
  obtain ⟨hresult, haccepted, -⟩ := run_of_fits framing policy feed hfits
  have hsummary : summary = .of feed.items := by
    rw [hobstacle, hok] at hresult
    cases hflush : sink.flushRefusal with
    | some text =>
        rw [hflush] at hresult
        cases hresult
    | none =>
        rw [hflush] at hresult
        exact Except.ok.inj hresult
  refine ⟨?_, ?_, ?_⟩
  · rw [haccepted, Array.toList_appendList, text, lines, hpassed, hobstacle]
    rfl
  · rw [hwarned]
    exact filter_isComment_map_line hpass hdecoded
  · rw [hwarned, hsummary, unrecognized_of hdecoded, countP_isComment hpass hdecoded]

/-- Items that pass are as many warnings as comments. -/
theorem length_warningsOf (hfeed : feed.FromBytes) (hpass : ∀ i ∈ feed.items.take k,
    stopping policy i = none) :
    (warningsOf policy (feed.items.take k)).length
      = ((feed.items.take k).map line).countP isComment := by
  refine (countP_isComment hpass ?_).symm
  intro i hi
  exact exists_decode_of_none hfeed (List.mem_of_mem_take hi) (hpass i hi)

/-- **ONE WARNING AHEAD AT MOST**: where a sink refuses, every warning has its
    comment but the one of a comment that was refused. -/
theorem warned_of_refused {failure : Failure} (hfeed : feed.FromBytes)
    (herror : (write framing policy feed sink).result = .error (.write failure)) :
    let accepted := (write framing policy feed sink).sink.accepted.toList
    let warnings := (write framing policy feed sink).warned.length
    (∃ part, part <+: linesBytes framing.prologue ∧ part ≠ linesBytes framing.prologue ∧
      accepted = sink.accepted.toList ++ part ∧ warnings = 0) ∨
    (∃ (k : Nat) (item : Item) (part : List UInt8), feed.items[k]? = some item ∧
      part <+: Sink.lineBytes (line item) ∧ part ≠ Sink.lineBytes (line item) ∧
      accepted = sink.accepted.toList
        ++ linesBytes (framing.prologue ++ (feed.items.take k).map line) ++ part ∧
      warnings = ((feed.items.take k).map line).countP isComment
        + if isComment (line item) then 1 else 0) ∨
    (∃ part, part <+: linesBytes framing.epilogue ∧
      accepted = sink.accepted.toList
        ++ linesBytes (framing.prologue ++ feed.items.map line) ++ part ∧
      warnings = (feed.items.map line).countP isComment) := by
  intro accepted warnings
  obtain ⟨stage, error, hstops, -, hresult⟩ := write_stops framing policy feed sink
  have hwarned := congrArg List.length hstops.warned
  cases hstops with
  | prologue hnot =>
      obtain ⟨more, htext⟩ : ∃ more, text framing policy feed.items
          = head framing.prologue feed.items 0 ++ more := exists_text_eq_head framing (by simp)
      rw [head_zero, ← List.nil_append (linesBytes framing.prologue)] at htext
      obtain ⟨part, hpart, hne, haccepted⟩ := accepted_of_cut htext sink.fits_zero hnot
      refine .inl ⟨part, hpart, hne, ?_, hwarned.trans ?_⟩
      · rwa [List.append_nil] at haccepted
      · cases policy <;> rfl
  | rejected => cases herror.symm.trans hresult
  | @refused k item hwritten hk hlast hnot =>
      have hpass : ∀ i ∈ feed.items.take (k + 1), stopping policy i = none := by
        intro i hi
        rw [take_succ hk] at hi
        rcases List.mem_append.mp hi with hi | hi
        · exact hwritten.passed i hi
        · rwa [List.mem_singleton.mp hi]
      obtain ⟨more, htext⟩ := exists_text_eq_head framing hpass
      rw [head_succ hk] at htext hnot
      obtain ⟨part, hpart, hne, haccepted⟩ := accepted_of_cut htext hwritten.fits hnot
      refine .inr (.inl ⟨k, item, part, hk, hpart, hne, haccepted, hwarned.trans ?_⟩)
      show (warningsOf policy (feed.items.take (k + 1))).length = _
      rw [length_warningsOf hfeed hpass, take_succ hk, List.map_append, List.countP_append]
      exact congrArg _ (List.countP_singleton ..)
  | epilogue hwritten =>
      have hpass := hwritten.passed
      rw [List.take_length] at hpass
      obtain ⟨part, hpart, haccepted⟩ := accepted_of_end hpass hwritten.fits
      refine .inr (.inr ⟨part, hpart, haccepted, hwarned.trans ?_⟩)
      show (warningsOf policy (feed.items.take (feed.items.length + 1))).length = _
      rw [List.take_of_length_le (Nat.le_succ _)]
      have hlength := length_warningsOf (k := feed.items.length) hfeed hwritten.passed
      rwa [List.take_length] at hlength

/-- **WARNINGS AND COMMENTS OF A LISTING.**  The warnings are the messages of the
    reserved words among the items pulled, in order, if these become comments, and
    there are none otherwise.  In a sink that is full in front of a line, the
    warning for the line is there already, and with more room the warnings only go
    on.  A complete listing has them as its comments, and counts them.  Where the
    sink refuses, the warnings are as many as the comments written in full; one
    more, if it refuses inside a comment. -/
theorem write_warnings (base : Address) (events : List Event) (framing : Framing)
    (policy : Policy) (refusal : Option Refusal) (flushRefusal : Option Failure) :
    let items := (Cursor.start base events).collect
    let run (room : Option Nat) :=
      write framing policy (.stream (.start base events))
        ({ room, refusal, flushRefusal } : Sink)
    (∀ room, ∃ pulls, pulls ≤ items.length + 1 ∧
      (run room).feed = .stream ((Cursor.start base events).after pulls) ∧
      (run room).warned = warningsOf policy (items.take pulls)) ∧
    (∀ (k : Nat) item, items[k]? = some item →
      (∀ i ∈ items.take (k + 1), stopping policy i = none) →
      let full := some (head framing.prologue items k).length
      (run full).sink.accepted.toList = head framing.prologue items k ∧
        (run full).warned = warningsOf policy (items.take (k + 1))) ∧
    (∀ room more, room ≤ more → (run (some room)).warned <+: (run (some more)).warned) ∧
    (∀ room, (run (some room)).warned <+: (run none).warned) ∧
    (∀ room summary, (run room).result = .ok summary →
      let body := items.map line
      (run room).sink.accepted.toList = linesBytes (framing.prologue ++ body ++ framing.epilogue) ∧
        body.filter isComment = (run room).warned.map (fun r => "# " ++ r.text) ∧
        summary.unrecognized = (run room).warned.length) ∧
    ∀ room failure, (run room).result = .error (.write failure) →
      let accepted := (run room).sink.accepted.toList
      let warnings := (run room).warned.length
      (accepted <+: linesBytes framing.prologue ∧ accepted ≠ linesBytes framing.prologue ∧
        warnings = 0) ∨
      (∃ (k : Nat) (item : Item) (part : List UInt8), items[k]? = some item ∧
        part <+: Sink.lineBytes (line item) ∧ part ≠ Sink.lineBytes (line item) ∧
        accepted = linesBytes (framing.prologue ++ (items.take k).map line) ++ part ∧
        warnings = ((items.take k).map line).countP isComment
          + if isComment (line item) then 1 else 0) ∨
      (∃ part, part <+: linesBytes framing.epilogue ∧
        accepted = linesBytes (framing.prologue ++ items.map line) ++ part ∧
        warnings = (items.map line).countP isComment) := by
  intro items run
  have hfeed : (Feed.stream (.start base events)).FromBytes := .stream base events
  refine ⟨?_, ?_, ?_, ?_, ?_, ?_⟩
  · intro room
    obtain ⟨stage, error, hstops, hpulled, -⟩ :=
      write_stops framing policy (.stream (.start base events)) { room, refusal, flushRefusal }
    rw [Feed.after_stream] at hpulled
    exact ⟨_, hstops.pulls_le_succ, hpulled, hstops.warned⟩
  · intro k item hk hpass full
    have hk' : (Feed.stream (.start base events)).items[k]? = some item := hk
    exact warned_of_full hk' hpass rfl
  · intro room more hle
    refine warned_prefix framing policy _ fun n hfits r hr => ?_
    obtain rfl := Option.some.inj hr
    exact Nat.le_trans (hfits room rfl) hle
  · intro room
    exact warned_prefix framing policy _ fun n _ r hr => nomatch hr
  · intro room summary hok
    exact warned_of_ok hfeed hok
  · intro room failure herror accepted warnings
    rcases warned_of_refused hfeed herror with ⟨part, hpart, hne, haccepted, hnone⟩ | hline | hend
    · obtain rfl : accepted = part := haccepted
      exact .inl ⟨hpart, hne, hnone⟩
    · exact .inr (.inl hline)
    · exact .inr (.inr hend)

/-- A reserved word in two pieces: complete, refused in front of its comment, and
    refused inside it. -/
theorem write_warnings_reserved :
    let text := "unrecognized instruction 0x70000003 at 0x0 (opcode 0x1c, function 0x03)"
    let run (room : Option Nat) := write .bare .comment
      (.stream (.start 0 [.data [3, 0], .data [0, 0x70]])) ({ room } : Sink)
    ((run none).result = .ok ⟨0, 1⟩ ∧ 1 = (run none).warned.length ∧
      ["# " ++ text] = (run none).warned.map fun r => "# " ++ r.text) ∧
    ((run (some 0)).sink.accepted.toList = [] ∧
      (run (some 0)).warned = [⟨.warn, .listing, text⟩]) ∧
    (0 ≤ 3 ∧ (run (some 0)).warned <+: (run (some 3)).warned) ∧
    ((run (some 3)).result = .error (.write ⟨.writeZero, "failed to write whole buffer"⟩) ∧
      (run (some 3)).sink.accepted.toList = Utf8.bytes "# u" ∧
      (run (some 3)).warned.length = 1) := by
  intro text run
  obtain ⟨hpulled, hfull, hmore, -, hcomplete, hrefused⟩ :=
    write_warnings 0 [.data [3, 0], .data [0, 0x70]] .bare .comment none none
  have hitems : (Cursor.start 0 [.data [3, 0], .data [0, 0x70]]).collect = [decode 0x70000003 0] :=
    (Cursor.collect_start 0 _).trans rfl
  rw [hitems] at hpulled hfull hcomplete hrefused
  have hok : (run none).result = .ok ⟨0, 1⟩ := by
    have hresult := (run_of_unlimited .bare .comment
      (.stream (.start 0 [.data [3, 0], .data [0, 0x70]])) none none).1
    rwa [show Feed.items (.stream _) = _ from hitems] at hresult
  have hnot : ¬ ({ room := some 3 } : Sink).Fits (Listing.text .bare .comment
      (Feed.stream (.start 0 [.data [3, 0], .data [0, 0x70]])).items).length := by
    intro hfits
    rw [show Feed.items (.stream _) = _ from hitems] at hfits
    exact absurd (hfits 3 rfl) (by decide)
  obtain ⟨room, hroom, hresult, haccepted, -⟩ := run_of_not_fits hnot
  obtain rfl : 3 = room := Option.some.inj hroom
  have hpart : (run (some 3)).sink.accepted.toList = Utf8.bytes "# u" := by
    rw [show (run (some 3)).sink.accepted = _ from haccepted,
      show Feed.items (.stream _) = _ from hitems, Array.toList_appendList]
    decide
  obtain ⟨hempty, hwarned⟩ := hfull 0 (decode 0x70000003 0) rfl
    (List.forall_mem_singleton.mpr rfl)
  obtain ⟨-, hcomments, hcount⟩ := hcomplete none ⟨0, 1⟩ hok
  refine ⟨⟨hok, hcount, hcomments⟩, ⟨hempty, hwarned⟩, ⟨by decide, hmore 0 3 (by decide)⟩,
    hresult, hpart, ?_⟩
  have hlength := congrArg List.length hpart
  rcases hrefused (some 3) _ hresult with ⟨hbegun, hne, -⟩ | ⟨k, item, part, hk, -, -, -, hone⟩
    | ⟨part, -, hbehind, -⟩
  · exact absurd (List.prefix_nil.mp hbegun) hne
  · obtain rfl : k = 0 := Nat.lt_one_iff.mp (List.getElem?_eq_some_iff.mp hk).1
    obtain rfl := Option.some.inj hk
    exact hone.trans rfl
  · rw [hbehind, List.length_append] at hlength
    exact absurd (Nat.le.intro hlength) (by decide)

end Listing

end Mips32

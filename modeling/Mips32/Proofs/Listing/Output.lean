import Mips32.Listing
import Mips32.Proofs.Sink
import Mips32.Proofs.Stream.Pulls

/-! # What a listing writes

    A listing pulls, writes and counts in turns, and three things can end it:
    an item that the policy does not let pass, a sink that refuses, a flush that
    fails.  What it hands over has a CLOSED form nevertheless: the lines in
    front, the lines of the items up to the first that ends it, and the lines
    behind if there is no such item, all as one write.

    Main statements: `Listing.write_of_free`, what comes of a sink that refuses
    nothing, and `Listing.write_of_room`, what is left of that in a sink with
    room for only so much. -/

namespace Mips32

/-- Whether an item is an instruction. -/
def Item.isInstruction : Item → Bool
  | .ok _ => true
  | .error _ => false

namespace Listing

open Sink (linesBytes)

variable {framing : Framing} {policy : Policy} {feed : Feed} {sink : Sink}
  {log : Array Log.Record} {summary : Summary} {item : Item} {items : List Item}

/-! ## The items of a listing -/

/-- The error that a listing ends at: one that decoding does not go on behind,
    and every other one as well unless it becomes a comment. -/
def stopping : Policy → Item → Option Fault
  | _, .ok _ => none
  | .comment, .error (.unrecognized ..) => none
  | _, .error fault => some fault

/-- The line of an item that a listing does not end at. -/
def line : Item → String
  | .ok i => i.text
  | .error fault => "# " ++ fault.message

/-- The items before the first that a listing ends at. -/
def passed (policy : Policy) (items : List Item) : List Item :=
  items.takeWhile fun i => (stopping policy i).isNone

/-- The error of that item. -/
def obstacle (policy : Policy) (items : List Item) : Option Fault :=
  items.findSome? (stopping policy)

/-- Items as a listing counts them. -/
def Summary.of (items : List Item) : Summary where
  instructions := items.countP Item.isInstruction
  unrecognized := items.countP fun i => !i.isInstruction

theorem line?_eq (policy : Policy) (item : Item) :
    line? policy item = match stopping policy item with
      | some fault => .error fault
      | none => .ok (line item) := by
  rcases item with (_ | _ | _) | i <;> cases policy <;> rfl

theorem passed_eq_self (h : ∀ i ∈ items, stopping policy i = none) :
    passed policy items = items ∧ obstacle policy items = none := by
  refine ⟨?_, List.findSome?_eq_none_iff.mpr h⟩
  have hall : passed policy (items ++ []) = items ++ passed policy [] := by
    apply List.takeWhile_append_of_pos
    intro i hi
    rw [h i hi]
    rfl
  rwa [List.append_nil, show passed policy [] = [] from rfl, List.append_nil] at hall

theorem passed_append {fault : Fault} {before : List Item} (after : List Item)
    (h : ∀ i ∈ before, stopping policy i = none) (hitem : stopping policy item = some fault) :
    passed policy (before ++ item :: after) = before ∧
      obstacle policy (before ++ item :: after) = some fault := by
  obtain ⟨hpassed, hobstacle⟩ := passed_eq_self h
  have hnone : ∀ i ∈ before, (stopping policy i).isNone = true := by
    intro i hi
    rw [h i hi]
    rfl
  constructor
  · rw [passed, List.takeWhile_append_of_pos hnone, List.takeWhile_cons_of_neg, List.append_nil]
    simp [hitem]
  · rw [obstacle, List.findSome?_append, ← obstacle, hobstacle, List.findSome?_cons, hitem]
    rfl

theorem passed_cons_of_stopping {fault : Fault} (items : List Item)
    (hitem : stopping policy item = some fault) :
    passed policy (item :: items) = [] ∧ obstacle policy (item :: items) = some fault :=
  passed_append items (List.forall_mem_nil _) hitem

theorem passed_cons_of_none (items : List Item) (hitem : stopping policy item = none) :
    passed policy (item :: items) = item :: passed policy items ∧
      obstacle policy (item :: items) = obstacle policy items := by
  constructor
  · exact List.takeWhile_cons_of_pos (by rw [hitem]; rfl)
  · rw [obstacle, List.findSome?_cons, hitem]
    rfl

/-- Item `k` stands between the items before it and those behind it. -/
theorem drop_eq_cons {k : Nat} (hk : items[k]? = some item) :
    items.drop k = item :: items.drop (k + 1) := by
  obtain ⟨hlt, hget⟩ := List.getElem?_eq_some_iff.mp hk
  rw [← hget, ← List.drop_eq_getElem_cons hlt]

/-- The listing ends at item `k`, and only what stands before it is listed. -/
theorem passed_eq_take {k : Nat} {fault : Fault} (hk : items[k]? = some item)
    (hitem : stopping policy item = some fault)
    (hbefore : ∀ i ∈ items.take k, stopping policy i = none) :
    passed policy items = items.take k ∧ obstacle policy items = some fault := by
  have hpassed := passed_append (items.drop (k + 1)) hbefore hitem
  rwa [← drop_eq_cons hk, List.take_append_drop] at hpassed

/-! ## The loop -/

section

variable {W : Type} [Writer W] {w : W}

theorem writeItems_of_none (h : feed.next.item = none) :
    writeItems policy feed w log summary
      = ⟨.ok summary, w, feed.next.feed, log ++ feed.next.records⟩ := by
  rw [writeItems]
  split
  · rename_i feed' records hnext
    rw [hnext]
  · rename_i i feed' records hnext
    rw [hnext] at h
    cases h

/-- One round: the item ends the loop, or its line is written, and only then the
    loop goes on. -/
theorem writeItems_of_some (h : feed.next.item = some item) :
    writeItems policy feed w log summary
      = match stopping policy item with
        | some fault => ⟨.error (.decode fault), w, feed.next.feed, log ++ feed.next.records⟩
        | none =>
          match Writer.writeLine w (line item) with
          | (some failure, w) =>
            ⟨.error (.write failure), w, feed.next.feed,
              log ++ feed.next.records ++ warnings item⟩
          | (none, w) =>
            writeItems policy feed.next.feed w (log ++ feed.next.records ++ warnings item)
              (summary.count item) := by
  rw [writeItems]
  split
  · rename_i feed' records hnext
    rw [hnext] at h
    cases h
  · rename_i i feed' records hnext
    rw [hnext] at h ⊢
    obtain rfl : i = item := Option.some.inj h
    rw [line?_eq]
    cases hstop : stopping policy i <;> rfl

end

/-- How a listing ends when its lines were handed over. -/
def ending (obstacle : Option Fault) (summary : Summary) :
    Option Failure × Sink → Except Error Summary × Sink
  | (some failure, sink) => (.error (.write failure), sink)
  | (none, sink) =>
    match obstacle with
    | some fault => (.error (.decode fault), sink)
    | none => (.ok summary, sink)

theorem count_of_item (summary : Summary) (item : Item) (items : List Item) :
    (⟨(summary.count item).instructions + (Summary.of items).instructions,
        (summary.count item).unrecognized + (Summary.of items).unrecognized⟩ : Summary)
      = ⟨summary.instructions + (Summary.of (item :: items)).instructions,
        summary.unrecognized + (Summary.of (item :: items)).unrecognized⟩ := by
  simp only [Summary.of, List.countP_cons]
  cases item with
  | ok i => simp [Summary.count, Item.isInstruction, Nat.add_assoc, Nat.add_comm 1]
  | error fault => simp [Summary.count, Item.isInstruction, Nat.add_assoc, Nat.add_comm 1]

/-- **THE LOOP AS ONE WRITE**: the lines of the items before the first that ends
    it are handed over, and then its error counts if nothing was refused. -/
theorem writeItems_eq_ending (policy : Policy) (feed : Feed) (sink : Sink)
    (log : Array Log.Record) (summary : Summary) :
    ((writeItems policy feed sink log summary).result,
        (writeItems policy feed sink log summary).sink)
      = ending (obstacle policy feed.items)
          ⟨summary.instructions + (Summary.of feed.items).instructions,
            summary.unrecognized + (Summary.of feed.items).unrecognized⟩
          (sink.write (linesBytes ((passed policy feed.items).map line))) := by
  -- on the items still to come: the feed that gives them is another one in each round
  generalize hitems : feed.items = items
  induction items generalizing feed sink log summary with
  | nil =>
      rw [writeItems_of_none (Feed.next_of_items_nil hitems)]
      show _ = ending none summary (sink.write [])
      rw [Sink.write_nil]
      rfl
  | cons item items ih =>
      obtain ⟨hitem, hrest⟩ := Feed.next_of_items_cons hitems
      rw [writeItems_of_some hitem]
      cases hstop : stopping policy item with
      | some fault =>
          obtain ⟨hpassed, hobstacle⟩ := passed_cons_of_stopping items hstop
          rw [hpassed, hobstacle, List.map_nil, show linesBytes [] = [] from rfl, Sink.write_nil]
          rfl
      | none =>
          obtain ⟨hpassed, hobstacle⟩ := passed_cons_of_none items hstop
          -- the line of this item and those behind it are one write
          rw [hpassed, hobstacle, List.map_cons, Sink.linesBytes_cons, Sink.write_append,
            ← Sink.writeLine_eq_write]
          rcases Writer.writeLine sink (line item) with ⟨failure | failure, sink'⟩
          · show ((writeItems policy feed.next.feed sink' _ _).result, _) = _
            rw [ih _ _ _ _ hrest, count_of_item]
          · rfl

/-! ## The whole listing -/

/-- The lines of a listing: those behind the items are missing if it ends at
    one of them. -/
def lines (framing : Framing) (policy : Policy) (items : List Item) : List String :=
  framing.prologue ++ (passed policy items).map line
    ++ if (obstacle policy items).isNone then framing.epilogue else []

/-- The flush behind the last line. -/
def flushing (summary : Summary) : Option Failure × Sink → Except Error Summary × Sink
  | (some failure, sink) => (.error (.write failure), sink)
  | (none, sink) =>
    match sink.flush with
    | (some failure, sink) => (.error (.write failure), sink)
    | (none, sink) => (.ok summary, sink)

/-- How a listing ends when all its lines were handed over. -/
def outcome (obstacle : Option Fault) (summary : Summary) :
    Option Failure × Sink → Except Error Summary × Sink
  | (some failure, sink) => (.error (.write failure), sink)
  | (none, sink) =>
    match obstacle with
    | some fault => (.error (.decode fault), sink)
    | none => flushing summary (none, sink)

theorem close_eq_flushing (framing : Framing) (run : Run Sink) :
    ((close framing run).result, (close framing run).sink)
      = match (run.result, run.sink) with
        | (.error e, sink) => (.error e, sink)
        | (.ok summary, sink) => flushing summary (sink.write (linesBytes framing.epilogue)) := by
  obtain ⟨result, sink, feed, log⟩ := run
  cases result with
  | error e => rfl
  | ok summary =>
      simp only [close, Sink.writeLines_eq_write]
      rcases sink.write (linesBytes framing.epilogue) with ⟨failure | failure, last⟩
      · simp only [flushing, Writer.flush]
        rcases last.flush with ⟨failure | failure, last⟩ <;> rfl
      · rfl

/-- **A LISTING AS ONE WRITE**: all its lines are handed over, and it is flushed
    behind them if nothing was refused and no item ended it. -/
theorem write_eq_outcome (framing : Framing) (policy : Policy) (feed : Feed) (sink : Sink) :
    ((write framing policy feed sink).result, (write framing policy feed sink).sink)
      = outcome (obstacle policy feed.items) (.of feed.items)
          (sink.write (linesBytes (lines framing policy feed.items))) := by
  have hlines : linesBytes (lines framing policy feed.items)
      = linesBytes framing.prologue ++ (linesBytes ((passed policy feed.items).map line)
        ++ linesBytes (if (obstacle policy feed.items).isNone then framing.epilogue else [])) := by
    simp only [lines, Sink.linesBytes_append, List.append_assoc]
  rw [hlines, Sink.write_append, write, Sink.writeLines_eq_write]
  rcases sink.write (linesBytes framing.prologue) with ⟨failure | failure, sink'⟩
  · have hitems := writeItems_eq_ending policy feed sink' #[] {}
    rw [Nat.zero_add, Nat.zero_add] at hitems
    show ((close framing (writeItems policy feed sink' #[] {})).result,
      (close framing (writeItems policy feed sink' #[] {})).sink) = outcome _ _ (sink'.write _)
    rw [close_eq_flushing, hitems, Sink.write_append]
    rcases sink'.write (linesBytes ((passed policy feed.items).map line))
      with ⟨failure | failure, last⟩
    · cases obstacle policy feed.items with
      | some fault =>
          show _ = outcome (some fault) _ (last.write [])
          rw [Sink.write_nil]
          rfl
      | none => rfl
    · rfl
  · rfl

/-- All that a listing hands over. -/
def text (framing : Framing) (policy : Policy) (items : List Item) : List UInt8 :=
  linesBytes (lines framing policy items)

/-- A listing whose lines all fit: an item that ends it counts before the
    flush. -/
theorem run_of_fits (framing : Framing) (policy : Policy) (feed : Feed)
    (h : sink.Fits (text framing policy feed.items).length) :
    (write framing policy feed sink).result
        = (match obstacle policy feed.items, sink.flushRefusal with
          | some fault, _ => .error (.decode fault)
          | none, some failure => .error (.write failure)
          | none, none => .ok (.of feed.items)) ∧
      (write framing policy feed sink).sink.accepted
        = sink.accepted ++ text framing policy feed.items ∧
      (write framing policy feed sink).sink.flushed
        = if (obstacle policy feed.items).isSome then sink.flushed
          else sink.flushed ++ [(sink.accepted ++ text framing policy feed.items).size] := by
  have hwrite := write_eq_outcome framing policy feed sink
  rw [← text, Sink.write_of_fits h] at hwrite
  obtain ⟨hresult, hsink⟩ := Prod.mk.inj hwrite
  rw [hresult, hsink]
  cases obstacle policy feed.items with
  | some fault => exact ⟨rfl, rfl, rfl⟩
  | none =>
      simp only [flushing, Sink.flush]
      cases sink.flushRefusal with
      | some failure => exact ⟨rfl, rfl, rfl⟩
      | none => exact ⟨rfl, rfl, rfl⟩

theorem run_of_unlimited (framing : Framing) (policy : Policy) (feed : Feed)
    (refusal : Option Refusal) (flushRefusal : Option Failure) :
    let run := write framing policy feed ({ refusal, flushRefusal } : Sink)
    run.result = (match obstacle policy feed.items, flushRefusal with
      | some fault, _ => .error (.decode fault)
      | none, some failure => .error (.write failure)
      | none, none => .ok (.of feed.items)) ∧
    run.sink.accepted.toList = text framing policy feed.items ∧
    run.sink.flushed = if (obstacle policy feed.items).isSome then []
      else [(text framing policy feed.items).length] := by
  intro run
  obtain ⟨hresult, haccepted, hflushed⟩ := run_of_fits framing policy feed
    (show Sink.Fits { refusal, flushRefusal } _ from fun _ h => nomatch h)
  refine ⟨hresult, ?_, ?_⟩
  · rw [show run.sink.accepted = _ from haccepted]
    simp
  · rw [show run.sink.flushed = _ from hflushed]
    simp

theorem run_of_not_fits (h : ¬ sink.Fits (text framing policy feed.items).length) :
    ∃ room, sink.room = some room ∧
      (write framing policy feed sink).result = .error (.write sink.overflow) ∧
      (write framing policy feed sink).sink.accepted
        = sink.accepted ++ (text framing policy feed.items).take room ∧
      (write framing policy feed sink).sink.flushed = sink.flushed := by
  obtain ⟨room, hroom, -, hfull⟩ := Sink.write_of_not_fits h
  have hwrite := write_eq_outcome framing policy feed sink
  rw [← text, hfull] at hwrite
  obtain ⟨hresult, hsink⟩ := Prod.mk.inj hwrite
  rw [hresult, hsink]
  exact ⟨room, hroom, rfl, rfl, rfl⟩

/-! ## A sink that refuses nothing -/

theorem run_free_of_stopping {k : Nat} {fault : Fault} (framing : Framing) (policy : Policy)
    (feed : Feed) (hk : feed.items[k]? = some item) (hitem : stopping policy item = some fault)
    (hbefore : ∀ i ∈ feed.items.take k, stopping policy i = none) :
    (write framing policy feed ({} : Sink)).result = .error (.decode fault) ∧
      (write framing policy feed ({} : Sink)).sink.accepted.toList
        = linesBytes (framing.prologue ++ (feed.items.take k).map line) ∧
      (write framing policy feed ({} : Sink)).sink.flushed = [] := by
  obtain ⟨hpassed, hobstacle⟩ := passed_eq_take hk hitem hbefore
  obtain ⟨hresult, haccepted, hflushed⟩ := run_of_unlimited framing policy feed none none
  rw [hobstacle] at hresult hflushed
  refine ⟨hresult, ?_, hflushed⟩
  rw [haccepted, text, lines, hpassed, hobstacle]
  simp

/-- **WHAT A LISTING COMES TO**, if the sink refuses nothing.  Without an item
    that ends it, it holds every line, is flushed once behind them, and counts
    every item.  The first item that ends it is the error, only the lines before
    that item are there, and the items behind it do not matter. -/
theorem write_of_free (framing : Framing) (policy : Policy) (feed : Feed) :
    let run := write framing policy feed ({} : Sink)
    let items := feed.items
    let instructions := items.countP Item.isInstruction
    let unrecognized := items.countP fun i => !i.isInstruction
    ((∀ i ∈ items, stopping policy i = none) →
      run.result = .ok ⟨instructions, unrecognized⟩ ∧ instructions + unrecognized = items.length ∧
        run.sink.accepted.toList
          = (framing.prologue ++ items.map line ++ framing.epilogue).flatMap
              (fun text => Utf8.bytes text ++ [0x0A]) ∧
        run.sink.flushed = [run.sink.accepted.size]) ∧
    (∀ k fault, items[k]? = some (.error fault) → stopping policy (.error fault) = some fault →
      (∀ i ∈ items.take k, stopping policy i = none) →
      run.result = .error (.decode fault) ∧
        run.sink.accepted.toList
          = (framing.prologue ++ (items.take k).map line).flatMap
              (fun text => Utf8.bytes text ++ [0x0A]) ∧
        run.sink.flushed = [] ∧
        ∀ feed', feed'.items.take (k + 1) = items.take (k + 1) →
          (write framing policy feed' ({} : Sink)).result = run.result ∧
            (write framing policy feed' ({} : Sink)).sink.accepted.toList
              = run.sink.accepted.toList ∧
            (write framing policy feed' ({} : Sink)).sink.flushed = run.sink.flushed) := by
  intro run items instructions unrecognized
  constructor
  · intro hall
    obtain ⟨hpassed, hobstacle⟩ := passed_eq_self hall
    obtain ⟨hresult, haccepted, hflushed⟩ := run_of_unlimited framing policy feed none none
    rw [hobstacle] at hresult hflushed
    refine ⟨hresult, ?_, ?_, ?_⟩
    · have hsum := List.length_eq_countP_add_countP Item.isInstruction (l := items)
      simpa using hsum.symm
    · rw [haccepted, text, lines, hpassed, hobstacle]
      rfl
    · rw [hflushed, ← haccepted]
      rfl
  · intro k fault hk hitem hbefore
    obtain ⟨hresult, haccepted, hflushed⟩ :=
      run_free_of_stopping framing policy feed hk hitem hbefore
    refine ⟨hresult, haccepted, hflushed, ?_⟩
    intro feed' hsame
    have hk' : feed'.items[k]? = some (.error fault) := by
      rw [← hk, ← List.getElem?_take_of_succ, hsame, List.getElem?_take_of_succ]
    have hbefore' : feed'.items.take k = items.take k := by
      have htake := congrArg (List.take k) hsame
      rwa [List.take_take, List.take_take, Nat.min_eq_left (Nat.le_succ k)] at htake
    obtain ⟨hresult', haccepted', hflushed'⟩ :=
      run_free_of_stopping framing policy feed' hk' hitem (by rw [hbefore']; exact hbefore)
    rw [hbefore'] at haccepted'
    exact ⟨hresult'.trans hresult.symm, haccepted'.trans haccepted.symm,
      hflushed'.trans hflushed.symm⟩

/-- An instruction and a comment, byte for byte; a reserved word may end a listing,
    and a cut one ends it in any case. -/
theorem write_of_free_cut :
    (write .bare .comment (.batch [decode 0 0, decode 0x70000003 4])
        ({} : Sink)).sink.accepted.toList
      = [0x6E, 0x6F, 0x70, 0x0A, 0x23, 0x20, 0x75, 0x6E, 0x72, 0x65, 0x63, 0x6F, 0x67, 0x6E,
         0x69, 0x7A, 0x65, 0x64, 0x20, 0x69, 0x6E, 0x73, 0x74, 0x72, 0x75, 0x63, 0x74, 0x69,
         0x6F, 0x6E, 0x20, 0x30, 0x78, 0x37, 0x30, 0x30, 0x30, 0x30, 0x30, 0x30, 0x33, 0x20,
         0x61, 0x74, 0x20, 0x30, 0x78, 0x34, 0x20, 0x28, 0x6F, 0x70, 0x63, 0x6F, 0x64, 0x65,
         0x20, 0x30, 0x78, 0x31, 0x63, 0x2C, 0x20, 0x66, 0x75, 0x6E, 0x63, 0x74, 0x69, 0x6F,
         0x6E, 0x20, 0x30, 0x78, 0x30, 0x33, 0x29, 0x0A] ∧
    (write .bare .comment
        (.batch [decode 0x70000003 0, .error (.truncated 4 1), decode 0 4]) ({} : Sink)).result
      = .error (.decode (.truncated 4 1)) ∧
    (write .bare .abort
        (.batch [decode 0x70000003 0, .error (.truncated 4 1), decode 0 4]) ({} : Sink)).result
      = .error (.decode (.unrecognized 0 0x70000003 28 (some 3))) := by
  refine ⟨?_, ?_, ?_⟩
  · obtain ⟨-, -, houtput, -⟩ := (write_of_free .bare .comment
      (.batch [decode 0 0, decode 0x70000003 4])).1 (by decide)
    exact houtput.trans (by decide)
  · exact ((write_of_free .bare .comment _).2 1 (.truncated 4 1) rfl rfl (by decide)).1
  · exact ((write_of_free .bare .abort _).2 0 (.unrecognized 0 0x70000003 28 (some 3)) rfl rfl
      (by decide)).1

/-! ## A sink with room for only so much -/

/-- **A LISTING IN A SINK WITH ROOM FOR SO MUCH.**  If all that an unlimited
    sink accepts fits, the listing ends in the same way.  If not, the sink is
    full with the first of these bytes, is not flushed, and its own refusal is
    the error.  A flush that fails is an error behind the whole listing.  In what
    pieces a line reaches the sink does not matter for any of this. -/
theorem write_of_room (framing : Framing) (policy : Policy) (feed : Feed)
    (refusal : Option Refusal) :
    let run (room : Option Nat) (flushRefusal : Option Failure) :=
      write framing policy feed ({ room, refusal, flushRefusal } : Sink)
    (∀ flushRefusal room,
      let free := run none flushRefusal
      let full := free.sink.accepted.toList
      (full.length ≤ room →
        (run (some room) flushRefusal).sink.accepted.toList = full ∧
          (run (some room) flushRefusal).sink.flushed = free.sink.flushed ∧
          (run (some room) flushRefusal).result = free.result) ∧
      (room < full.length →
        (run (some room) flushRefusal).sink.accepted.toList = full.take room ∧
          (run (some room) flushRefusal).sink.flushes = 0 ∧
          (run (some room) flushRefusal).result = .error (.write (match refusal with
            | some refusal => refusal.toFailure
            | none => ⟨.writeZero, "failed to write whole buffer"⟩)))) ∧
    (∀ room summary failure, (run room none).result = .ok summary →
      (run room (some failure)).sink.accepted.toList = (run none none).sink.accepted.toList ∧
        (run room (some failure)).sink.flushes = 1 ∧
        (run room (some failure)).result = .error (.write failure)) ∧
    (∀ (sink : Sink) text pieces, pieces.flatten = Sink.lineBytes text →
      sink.pour pieces = sink.writeLine text) := by
  intro run
  let full := text framing policy feed.items
  have hfree (flushRefusal : Option Failure) :
      (run none flushRefusal).sink.accepted.toList = full :=
    (run_of_unlimited framing policy feed refusal flushRefusal).2.1
  refine ⟨?_, ?_, ?_⟩
  · intro flushRefusal room free whole
    rw [show whole = full from hfree flushRefusal]
    by_cases hfits : Sink.Fits { room := some room, refusal, flushRefusal } full.length
    · obtain ⟨hresult, haccepted, hflushed⟩ := run_of_fits framing policy feed hfits
      obtain ⟨hresult', -, hflushed'⟩ := run_of_unlimited framing policy feed refusal flushRefusal
      refine ⟨fun _ => ⟨?_, ?_, ?_⟩, fun hlt => ?_⟩
      · rw [show (run (some room) flushRefusal).sink.accepted = _ from haccepted]
        simp [full]
      · rw [show free.sink.flushed = _ from hflushed',
          show (run (some room) flushRefusal).sink.flushed = _ from hflushed]
        simp
      · exact hresult.trans hresult'.symm
      · have := hfits room rfl
        omega
    · obtain ⟨n, hn, hresult, haccepted, hflushed⟩ := run_of_not_fits hfits
      obtain rfl := Option.some.inj hn
      refine ⟨fun hle => ?_, fun _ => ⟨?_, ?_, ?_⟩⟩
      · exact absurd (fun r hr => Option.some.inj hr ▸ hle) hfits
      · rw [show (run (some room) flushRefusal).sink.accepted = _ from haccepted]
        simp [full]
      · exact congrArg List.length hflushed
      · rw [show (run (some room) flushRefusal).result = _ from hresult]
        cases refusal <;> rfl
  · intro room summary failure hok
    rw [hfree none]
    by_cases hfits : Sink.Fits { room, refusal, flushRefusal := none } full.length
    · obtain ⟨hsound, -, -⟩ := run_of_fits framing policy feed hfits
      obtain ⟨hresult, haccepted, hflushed⟩ := run_of_fits framing policy feed
        (show Sink.Fits { room, refusal, flushRefusal := some failure } _ from hfits)
      cases hobstacle : obstacle policy feed.items with
      | some fault =>
          -- an item that ends the listing would have been the error
          rw [hobstacle] at hsound
          cases hok.symm.trans hsound
      | none =>
          rw [hobstacle] at hresult hflushed
          refine ⟨?_, congrArg List.length hflushed, hresult⟩
          rw [show (run room (some failure)).sink.accepted = _ from haccepted]
          simp [full]
    · obtain ⟨n, -, hrefused, -, -⟩ := run_of_not_fits hfits
      cases hok.symm.trans hrefused
  · intro sink text pieces hpieces
    rw [Sink.pour_eq_write, hpieces, Sink.writeLine]

/-- Two words and a cut one: the error is the cut word if eight bytes fit, and
    the refusal if only six do. -/
theorem write_of_room_six :
    (write .bare .abort (.batch [decode 0 0, decode 0 4, .error (.truncated 8 1)])
        ({ room := some 8 } : Sink)).result = .error (.decode (.truncated 8 1)) ∧
    (write .bare .abort (.batch [decode 0 0, decode 0 4, .error (.truncated 8 1)])
        ({ room := some 6 } : Sink)).sink.accepted.toList = Utf8.bytes "nop\nno" ∧
    (write .bare .abort (.batch [decode 0 0, decode 0 4, .error (.truncated 8 1)])
        ({ room := some 6 } : Sink)).result
      = .error (.write ⟨.writeZero, "failed to write whole buffer"⟩) ∧
    (write .bare .abort (.batch [decode 0 0])
        ({ flushRefusal := some ⟨.other, "disk full"⟩ } : Sink)).result
      = .error (.write ⟨.other, "disk full"⟩) ∧
    Sink.pour { room := some 6 }
        [Utf8.bytes "jr", Utf8.bytes " ", Utf8.bytes "$ra", Utf8.bytes "\n"]
      = Sink.writeLine { room := some 6 } "jr $ra" := by
  obtain ⟨hroom, -, hpieces⟩ := write_of_room .bare .abort
    (.batch [decode 0 0, decode 0 4, .error (.truncated 8 1)]) none
  obtain ⟨-, hflush, -⟩ := write_of_room .bare .abort (.batch [decode 0 0]) none
  obtain ⟨hresult, haccepted, -⟩ := run_free_of_stopping (k := 2) .bare .abort
    (.batch [decode 0 0, decode 0 4, .error (.truncated 8 1)]) rfl rfl (by decide)
  have hlisted : (write .bare .abort (.batch [decode 0 0]) ({} : Sink)).result = .ok ⟨1, 0⟩ :=
    (run_of_unlimited .bare .abort (.batch [decode 0 0]) none none).1
  refine ⟨?_, ?_, ?_, ?_, ?_⟩
  · exact ((hroom none 8).1 (by rw [haccepted]; decide)).2.2.trans hresult
  · exact ((hroom none 6).2 (by rw [haccepted]; decide)).1.trans (by rw [haccepted]; decide)
  · exact ((hroom none 6).2 (by rw [haccepted]; decide)).2.2
  · exact (hflush none ⟨1, 0⟩ ⟨.other, "disk full"⟩ hlisted).2.2
  · exact hpieces _ "jr $ra" _ (by decide)

end Listing

end Mips32

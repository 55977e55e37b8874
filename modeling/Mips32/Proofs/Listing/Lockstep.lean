import Mathlib.Tactic.Choose
import Mips32.Proofs.Listing.Output

/-! # Writing and decoding in lockstep

    A listing over a stream couples two machines: a cursor that reads as it is
    pulled, and a sink that may be full at any byte.  How far the source was
    read shows WHERE the listing stopped: in the lines in front nothing was
    read, at an item exactly that item was the last one pulled, and only a
    listing that came to the lines behind has seen the end of the stream.

    The loop keeps `Reached`: so many items were pulled, they passed, and their
    lines are written.  Main statement: `Listing.write_lockstep`. -/

namespace Mips32

namespace Feed

theorem after_succ (f : Feed) (n : Nat) : f.after (n + 1) = (f.after n).next.feed := by
  induction n generalizing f with
  | zero => rfl
  | succ n ih => exact ih f.next.feed

end Feed

namespace Cursor

/-- The end of a stream is one pull behind its last item. -/
theorem Yields.eq_after {c last : Cursor} {is : List Item} (h : Yields c is last) :
    last = c.after (is.length + 1) := by
  induction h with
  | done => rfl
  | item _ _ ih => exact ih

/-- An item that comes from a whole word has the bytes of the words up to its own. -/
theorem words_of_isWord {base : Address} {events : List Event} {k : Nat} {i : Item}
    (hk : (start base events).collect[k]? = some i) (hword : i.isWord = true) :
    4 * (k + 1) ≤ (start base events).flat.bytes.length := by
  show 4 * (k + 1) ≤ (Flat.ofEvents events).bytes.length
  rw [collect_start] at hk
  have hlt := (Flat.decode_of_isWord hk hword).1
  omega

end Cursor

namespace Listing

open Sink (linesBytes)

/-- Where a listing stops. -/
inductive Stage
  /-- In the lines in front. -/
  | prologue
  /-- At the item with this index. -/
  | item (k : Nat)
  /-- Behind the items. -/
  | epilogue
deriving DecidableEq, Repr

/-- How many pulls were made when a listing of so many items stops. -/
def Stage.pulls (n : Nat) : Stage → Nat
  | .prologue => 0
  | .item k => k + 1
  | .epilogue => n + 1

/-- The bytes in front of item `k`. -/
def head (front : List String) (items : List Item) (k : Nat) : List UInt8 :=
  linesBytes (front ++ (items.take k).map line)

/-- The first `k` items pass, and their lines fit behind those in front. -/
structure Written (policy : Policy) (sink : Sink) (front : List String) (items : List Item)
    (k : Nat) : Prop where
  passed : ∀ i ∈ items.take k, stopping policy i = none
  fits : sink.Fits (head front items k).length

/-- Where a listing stops in a sink, and the error if there is one by then. -/
inductive StopsIn (policy : Policy) (sink : Sink) (front : List String) (items : List Item) :
    Stage → Option Error → Prop
  | prologue : ¬ sink.Fits (linesBytes front).length →
      StopsIn policy sink front items .prologue (some (.write sink.overflow))
  /-- The item does not pass. -/
  | rejected {k : Nat} {item : Item} {fault : Fault} : Written policy sink front items k →
      items[k]? = some item → stopping policy item = some fault →
      StopsIn policy sink front items (.item k) (some (.decode fault))
  /-- The line of the item does not fit. -/
  | refused {k : Nat} {item : Item} : Written policy sink front items k →
      items[k]? = some item → stopping policy item = none →
      ¬ sink.Fits (head front items (k + 1)).length →
      StopsIn policy sink front items (.item k) (some (.write sink.overflow))
  | epilogue : Written policy sink front items items.length →
      StopsIn policy sink front items .epilogue none

variable {policy : Policy} {front : List String} {items : List Item} {sink sink' : Sink}
  {feed feed' : Feed} {k : Nat} {item : Item} {stage stage' : Stage} {error error' : Option Error}

theorem head_zero (front : List String) (items : List Item) :
    head front items 0 = linesBytes front := by
  simp [head]

theorem head_succ (hk : items[k]? = some item) :
    head front items (k + 1) = head front items k ++ Sink.lineBytes (line item) := by
  rw [head, head, List.take_add_one, hk, Option.toList_some, List.map_append, ← List.append_assoc,
    Sink.linesBytes_append, List.map_singleton, Sink.linesBytes_cons]
  exact congrArg _ (List.append_nil _)

/-! ## More room, more pulls -/

/-- What is written was written item by item. -/
theorem Written.of_le {l : Nat} (h : Written policy sink front items k) (hle : l ≤ k) :
    Written policy sink front items l := by
  obtain ⟨rest, hrest⟩ : items.take l <+: items.take k := List.take_prefix_take_left hle
  constructor
  · intro i hi
    apply h.passed
    rw [← hrest]
    exact List.mem_append_left rest hi
  · refine h.fits.mono ?_
    rw [head, head, ← hrest, List.map_append, ← List.append_assoc]
    generalize front ++ (items.take l).map line = begun
    rw [Sink.linesBytes_append, List.length_append]
    exact Nat.le_add_right _ _

/-- Before each pull, what was pulled before is written. -/
theorem StopsIn.written {l : Nat} (h : StopsIn policy sink front items stage error)
    (hl : l < stage.pulls items.length) : Written policy sink front items l := by
  cases h with
  | prologue => cases hl
  | rejected hwritten => exact hwritten.of_le (Nat.le_of_lt_succ hl)
  | refused hwritten => exact hwritten.of_le (Nat.le_of_lt_succ hl)
  | epilogue hwritten => exact hwritten.of_le (Nat.le_of_lt_succ hl)

/-- And what was pulled last is not, unless it is the end. -/
theorem StopsIn.not_written (h : StopsIn policy sink front items stage error)
    (hle : stage.pulls items.length ≤ items.length) :
    ¬ Written policy sink front items (stage.pulls items.length) := by
  intro hwritten
  cases h with
  | prologue hnot =>
      have hfits := hwritten.fits
      rw [show Stage.pulls items.length .prologue = 0 from rfl, head_zero] at hfits
      exact hnot hfits
  | @rejected k item fault _ hk hitem =>
      have hmem : item ∈ items.take (k + 1) := by
        apply List.mem_of_getElem? (i := k)
        rw [List.getElem?_take_of_succ, hk]
      rw [hwritten.passed item hmem] at hitem
      cases hitem
  | refused _ _ _ hnot => exact hnot hwritten.fits
  | epilogue => exact absurd hle (Nat.not_succ_le_self _)

theorem StopsIn.pulls_le_succ (h : StopsIn policy sink front items stage error) :
    stage.pulls items.length ≤ items.length + 1 := by
  cases h with
  | prologue => exact Nat.zero_le _
  | rejected _ hk _ => exact Nat.le_succ_of_le (List.getElem?_eq_some_iff.mp hk).1
  | refused _ hk _ _ => exact Nat.le_succ_of_le (List.getElem?_eq_some_iff.mp hk).1
  | epilogue => exact Nat.le_refl _

/-- **MORE ROOM, MORE PULLS**: where everything fits that fits in another sink,
    a listing does not stop earlier. -/
theorem StopsIn.pulls_le (hroom : ∀ n, sink.Fits n → sink'.Fits n)
    (h : StopsIn policy sink front items stage error)
    (h' : StopsIn policy sink' front items stage' error') :
    stage.pulls items.length ≤ stage'.pulls items.length := by
  refine Nat.le_of_not_lt fun hlt => ?_
  -- then what the other listing pulled last would be written here, and so there
  obtain ⟨hpassed, hfits⟩ := h.written hlt
  have hle := h.pulls_le_succ
  exact h'.not_written (by omega) ⟨hpassed, hroom _ hfits⟩

theorem StopsIn.unique (h : StopsIn policy sink front items stage error)
    (h' : StopsIn policy sink front items stage' error') : stage = stage' := by
  have hpulls : stage.pulls items.length = stage'.pulls items.length :=
    Nat.le_antisymm (h.pulls_le (fun _ hfits => hfits) h') (h'.pulls_le (fun _ hfits => hfits) h)
  have hitem {k : Nat} {error : Option Error}
      (h : StopsIn policy sink front items (.item k) error) : k ≠ items.length := by
    have hlt : k < items.length := by
      cases h with
      | rejected _ hk _ => exact (List.getElem?_eq_some_iff.mp hk).1
      | refused _ hk _ _ => exact (List.getElem?_eq_some_iff.mp hk).1
    exact Nat.ne_of_lt hlt
  cases stage with
  | prologue => cases stage' <;> first | rfl | cases hpulls
  | item k =>
      cases stage' with
      | prologue => cases hpulls
      | item l => rw [Nat.succ.inj hpulls]
      | epilogue => exact absurd (Nat.succ.inj hpulls) (hitem h)
  | epilogue =>
      cases stage' with
      | prologue => cases hpulls
      | item l => exact absurd (Nat.succ.inj hpulls).symm (hitem h')
      | epilogue => rfl

/-! ## The loop -/

/-- The invariant of the loop: `k` items were pulled, and all of them passed and
    are written. -/
structure Reached (policy : Policy) (front : List String) (feed : Feed) (sink : Sink) (k : Nat)
    (feed' : Feed) (sink' : Sink) : Prop where
  le_length : k ≤ feed.items.length
  feed_eq : feed' = feed.after k
  items_eq : feed'.items = feed.items.drop k
  passed : ∀ i ∈ feed.items.take k, stopping policy i = none
  write_eq : sink.write (head front feed.items k) = (none, sink')

theorem Reached.written (h : Reached policy front feed sink k feed' sink') :
    Written policy sink front feed.items k := by
  refine ⟨h.passed, ?_⟩
  rw [← Sink.fst_write_eq_none_iff, h.write_eq]

theorem Reached.getElem? (h : Reached policy front feed sink k feed' sink')
    (hitem : feed'.next.item = some item) : feed.items[k]? = some item := by
  rw [← List.head?_drop, ← h.items_eq, Feed.items_of_some hitem]
  rfl

theorem Reached.next (h : Reached policy front feed sink k feed' sink')
    (hitem : feed'.next.item = some item) (hpass : stopping policy item = none) {last : Sink}
    (hline : Writer.writeLine sink' (line item) = (none, last)) :
    Reached policy front feed sink (k + 1) feed'.next.feed last := by
  have hk := h.getElem? hitem
  refine ⟨(List.getElem?_eq_some_iff.mp hk).1, ?_, ?_, ?_, ?_⟩
  · rw [Feed.after_succ, ← h.feed_eq]
  · rw [← List.drop_drop, ← h.items_eq, Feed.items_of_some hitem]
    rfl
  · intro i hi
    rw [List.take_add_one, hk] at hi
    rcases List.mem_append.mp hi with hi | hi
    · exact h.passed i hi
    · rwa [List.mem_singleton.mp hi]
  · rw [head_succ hk, Sink.write_append, h.write_eq]
    exact hline

/-- A line that is refused does not fit, and the refusal is the sink's own. -/
theorem overflow_of_refused {failure : Failure} {bytes : List UInt8} {last : Sink}
    (h : sink.write bytes = (some failure, last)) :
    ¬ sink.Fits bytes.length ∧ failure = sink.overflow := by
  have hnot : ¬ sink.Fits bytes.length := by
    rw [← Sink.fst_write_eq_none_iff, h]
    exact Option.some_ne_none failure
  obtain ⟨n, -, -, hfull⟩ := Sink.write_of_not_fits hnot
  exact ⟨hnot, Option.some.inj (Prod.mk.inj (h.symm.trans hfull)).1⟩

/-- **THE LOOP STOPS WHERE IT MUST**, one pull behind the items it has written. -/
theorem Reached.stops (h : Reached policy front feed sink k feed' sink')
    (log : Array Log.Record) (summary : Summary) :
    ∃ stage error, StopsIn policy sink front feed.items stage error ∧
      (writeItems policy feed' sink' log summary).feed
        = feed.after (stage.pulls feed.items.length) ∧
      match error with
      | some e => (writeItems policy feed' sink' log summary).result = .error e
      | none => ∃ s, (writeItems policy feed' sink' log summary).result = .ok s := by
  have hpull : feed'.next.feed = feed.after (k + 1) := by
    rw [Feed.after_succ, ← h.feed_eq]
  -- on the items still to come, with `Reached` as the invariant of the rounds before
  generalize hrest : feed'.items = rest
  induction rest generalizing k feed' sink' log summary with
  | nil =>
      have hover : feed.items.length ≤ k := by
        rw [← List.drop_eq_nil_iff, ← h.items_eq, hrest]
      obtain rfl : k = feed.items.length := Nat.le_antisymm h.le_length hover
      rw [writeItems_of_none (Feed.next_of_items_nil hrest)]
      exact ⟨.epilogue, none, .epilogue h.written, hpull, summary, rfl⟩
  | cons item rest ih =>
      obtain ⟨hitem, hrest'⟩ := Feed.next_of_items_cons hrest
      have hk := h.getElem? hitem
      rw [writeItems_of_some hitem]
      cases hstop : stopping policy item with
      | some fault => exact ⟨.item k, _, .rejected h.written hk hstop, hpull, rfl⟩
      | none =>
          rcases hline : Writer.writeLine sink' (line item) with ⟨failure | failure, last⟩
          · have hnext := h.next hitem hstop hline
            refine ih hnext _ _ ?_ hrest'
            rw [Feed.after_succ, ← hnext.feed_eq]
          · -- what `sink'` refuses, `sink` refuses with all that is in front of it
            have hhead : sink.write (head front feed.items (k + 1)) = (some failure, last) := by
              rw [head_succ hk, Sink.write_append, h.write_eq]
              exact hline
            obtain ⟨hnot, rfl⟩ := overflow_of_refused hhead
            exact ⟨.item k, _, .refused h.written hk hstop hnot, hpull, rfl⟩

theorem feed_close {W : Type} [Writer W] (framing : Framing) (run : Run W) :
    (close framing run).feed = run.feed := by
  unfold close
  split
  · rfl
  · split
    · rfl
    · split <;> rfl

theorem result_close {W : Type} [Writer W] (framing : Framing) (run : Run W) (fault : Fault)
    (h : (close framing run).result = .error (.decode fault)) :
    run.result = .error (.decode fault) := by
  unfold close at h
  split at h
  · exact h
  · split at h
    · cases h
    · split at h
      · cases h
      · exact h

/-- **A LISTING STOPS WHERE IT MUST**, whatever it takes its items from. -/
theorem write_stops (framing : Framing) (policy : Policy) (feed : Feed) (sink : Sink) :
    ∃ stage error, StopsIn policy sink framing.prologue feed.items stage error ∧
      (write framing policy feed sink).feed = feed.after (stage.pulls feed.items.length) ∧
      match error with
      | some e => (write framing policy feed sink).result = .error e
      | none => ∀ fault, (write framing policy feed sink).result ≠ .error (.decode fault) := by
  rw [write, Sink.writeLines_eq_write]
  rcases hwrite : sink.write (linesBytes framing.prologue) with ⟨failure | failure, sink'⟩
  · have hreached : Reached policy framing.prologue feed sink 0 feed sink' := by
      refine ⟨Nat.zero_le _, rfl, rfl, ?_, ?_⟩
      · intro i hi
        rw [List.take_zero] at hi
        cases hi
      · rw [head_zero, hwrite]
    obtain ⟨stage, error, hstops, hfeed, hresult⟩ := hreached.stops #[] {}
    refine ⟨stage, error, hstops, ?_, ?_⟩
    · show (close framing (writeItems policy feed sink' #[] {})).feed = _
      rw [feed_close, hfeed]
    · cases error with
      | some e =>
          show (close framing (writeItems policy feed sink' #[] {})).result = .error e
          simp only [close, hresult]
      | none =>
          obtain ⟨summary, hok⟩ := hresult
          intro fault hfault
          cases hok.symm.trans (result_close framing _ fault hfault)
  · obtain ⟨hnot, rfl⟩ := overflow_of_refused hwrite
    exact ⟨.prologue, _, .prologue hnot, rfl, rfl⟩

/-- How far a stream is read where a listing of it stops: not at all, up to and
    including one item, or to the end. -/
def Stage.Leaves (base : Address) (events : List Event) (c : Cursor) : Stage → Prop
  | .prologue => c = .start base events ∧ c.source.calls = 0
  | .item k => c = (Cursor.start base events).after (k + 1) ∧
      ∀ i, (Cursor.start base events).collect[k]? = some i → i.isWord = true →
        c.source.delivered = 4 * (k + 1) ∧
          c.source.unread = (events.flatMap Event.held).drop (4 * (k + 1))
  | .epilogue => Cursor.Yields (.start base events) (Cursor.start base events).collect c

theorem Stage.leaves_after (base : Address) (events : List Event) (stage : Stage) :
    stage.Leaves base events ((Cursor.start base events).after
      (stage.pulls (Cursor.start base events).collect.length)) := by
  cases stage with
  | prologue => exact ⟨rfl, rfl⟩
  | item k =>
      refine ⟨rfl, ?_⟩
      intro i hi hword
      have hbehind := Cursor.after_words (c := .start base events) rfl
        (Cursor.words_of_isWord hi hword)
      exact ⟨hbehind.delivered.trans (Nat.zero_add _), hbehind.unread⟩
  | epilogue =>
      have hyields := (Cursor.start base events).yields_collect.1
      rwa [hyields.eq_after] at hyields

/-- **WRITING AND DECODING ADVANCE IN LOCKSTEP.**  A listing over a stream stops
    in one place.  If the lines in front do not fit, the source was not called.
    If it stops at item `k`, that was the last item pulled, and if it comes from
    a whole word, the bytes up to its end were handed out and no others.  If it
    comes to the lines behind, the end of the stream was pulled, too.  More room
    never makes it consume less. -/
theorem write_lockstep (base : Address) (events : List Event) (framing : Framing)
    (policy : Policy) (refusal : Option Refusal) (flushRefusal : Option Failure) :
    let items := (Cursor.start base events).collect
    let sink (room : Option Nat) : Sink := { room, refusal, flushRefusal }
    let run (room : Option Nat) :=
      write framing policy (.stream (.start base events)) (sink room)
    ∃ left : Option Nat → Cursor, (∀ room, (run room).feed = .stream (left room)) ∧
      (∀ room, ∃ stage error, StopsIn policy (sink room) framing.prologue items stage error ∧
        (∀ stage' error', StopsIn policy (sink room) framing.prologue items stage' error' →
          stage' = stage) ∧
        (match error with
          | some e => (run room).result = .error e
          | none => ∀ fault, (run room).result ≠ .error (.decode fault)) ∧
        stage.Leaves base events (left room)) ∧
      (∀ room more, room ≤ more →
        (left (some room)).source.calls ≤ (left (some more)).source.calls ∧
          (left (some room)).source.delivered ≤ (left (some more)).source.delivered) ∧
      (∀ room, (left (some room)).source.calls ≤ (left none).source.calls ∧
        (left (some room)).source.delivered ≤ (left none).source.delivered) := by
  intro items sink run
  have hstops (room : Option Nat) :
      ∃ stage error, StopsIn policy (sink room) framing.prologue items stage error ∧
        (run room).feed
          = .stream ((Cursor.start base events).after (stage.pulls items.length)) ∧
        match error with
        | some e => (run room).result = .error e
        | none => ∀ fault, (run room).result ≠ .error (.decode fault) := by
    obtain ⟨stage, error, h, hfeed, hresult⟩ :=
      write_stops framing policy (.stream (.start base events)) (sink room)
    rw [Feed.after_stream] at hfeed
    exact ⟨stage, error, h, hfeed, hresult⟩
  choose stage error h hfeed hresult using hstops
  have hmono {room more : Option Nat} (hfits : ∀ n, (sink room).Fits n → (sink more).Fits n) :=
    Cursor.consumed_after (c := .start base events) ((h room).pulls_le hfits (h more))
  refine ⟨fun room => _, hfeed, ?_, ?_, ?_⟩
  · intro room
    exact ⟨stage room, error room, h room, fun _ _ h' => h'.unique (h room), hresult room,
      (stage room).leaves_after base events⟩
  · intro room more hle
    refine hmono fun n hfits r hr => ?_
    cases hr
    exact Nat.le_trans (hfits room rfl) hle
  · intro room
    exact hmono fun n _ r hr => nomatch hr

/-- Two words in one piece, and room for less than the line of the first: the
    second is not read. -/
theorem write_lockstep_three :
    ∃ left : Option Nat → Cursor,
      (∀ room, (write .bare .abort (.stream (.start 0 [.data [0, 0, 0, 0, 8, 0, 0xE0, 3]]))
        ({ room } : Sink)).feed = .stream (left room)) ∧
      (left (some 3)).source.delivered = 4 ∧ (left (some 3)).source.unread = [8, 0, 0xE0, 3] ∧
      (left (some 3)).source.calls ≤ (left (some 6)).source.calls := by
  obtain ⟨left, hfeed, hstage, hmono, -⟩ :=
    write_lockstep 0 [.data [0, 0, 0, 0, 8, 0, 0xE0, 3]] .bare .abort none none
  have hitems : (Cursor.start 0 [.data [0, 0, 0, 0, 8, 0, 0xE0, 3]]).collect
      = [decode 0 0, decode 0x03E00008 4] := Cursor.collect_start _ _
  obtain ⟨stage, error, -, hunique, -, hleaves⟩ := hstage (some 3)
  have hrefused : StopsIn .abort { room := some 3 } [] [decode 0 0, decode 0x03E00008 4] (.item 0)
      (some (.write (Sink.overflow {}))) := by
    refine .refused ⟨by decide, Sink.fits_zero _⟩ rfl rfl fun hfits => ?_
    exact absurd (hfits 3 rfl) (by decide)
  rw [hitems] at hunique
  obtain rfl := hunique _ _ hrefused
  obtain ⟨hdelivered, hunread⟩ := hleaves.2 (decode 0 0) (by rw [hitems]; rfl) rfl
  exact ⟨left, hfeed, hdelivered, hunread, (hmono 3 6 (by decide)).1⟩

end Listing

end Mips32

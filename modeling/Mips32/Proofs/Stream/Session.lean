import Mips32.Proofs.Stream.Pulls

/-! # Sessions — asking a cursor one thing after another

    A cursor is asked for its next item, for its address, or for all the rest,
    in any order and any number of times.  What was given out so far and where
    the cursor stands belong together: that is the invariant `Standing`, which
    one pull keeps, so all the rest keeps it, so every answer does.

    Main statement: `Cursor.session_of_start`. -/

namespace Mips32.Cursor

/-- What a cursor is asked. -/
inductive Request
  | next
  | address
  | rest
deriving DecidableEq, Repr

/-- What it answers. -/
inductive Reply
  | item (item : Option Item)
  | address (address : Address)
  | rest (items : List Item)
deriving Repr

/-- The answer to a request, and the cursor behind it. -/
def answer (c : Cursor) : Request → Reply × Cursor
  | .next => (.item c.next.item, c.next.cursor)
  | .address => (.address c.address, c)
  | .rest => (.rest c.collect, c.exhausted)

/-- The answers to requests, and the cursor behind them. -/
def session (c : Cursor) : List Request → List Reply × Cursor
  | [] => ([], c)
  | request :: requests =>
    ((c.answer request).1 :: ((c.answer request).2.session requests).1,
      ((c.answer request).2.session requests).2)

namespace Reply

/-- The items that a reply gives out. -/
def items : Reply → List Item
  | .item i => i.toList
  | .address _ => []
  | .rest is => is

/-- Whether a reply shows that the stream is over: there is no next item, or it
    is an error that decoding does not go on behind, or the rest was asked
    for. -/
def ends : Reply → Bool
  | .item none => true
  | .item (some i) => !i.isWord
  | .address _ => false
  | .rest _ => true

/-- What is answered when the stream is over. -/
def isOver (address : Address) : Reply → Prop
  | .item i => i = none
  | .address a => a = address
  | .rest is => is = []

end Reply

/-- The items that replies gave out, in their order. -/
def given (replies : List Reply) : List Item := replies.flatMap Reply.items

/-! ## The invariant -/

/-- Where a cursor stands when it has given out items. -/
structure Standing (first : Cursor) (items : List Item) (c : Cursor) : Prop where
  /-- What was given out and what is still to come are all the items. -/
  items_eq : items ++ c.collect = first.collect
  address_eq : c.address = first.address.word (items.countP Item.isWord)
  /-- As long as the stream goes on, only whole words were read. -/
  behind : c.finished = false → Behind first items.length c ∧ ∀ i ∈ items, i.isWord = true
  /-- Only the last item can be an error that decoding does not go on behind. -/
  last : ∀ before i after, items = before ++ i :: after → i.isWord = false → after = []

variable {first c last : Cursor} {items is : List Item}

theorem Standing.refl (hf : c.finished = false) : Standing c [] c where
  items_eq := rfl
  address_eq := (Address.word_zero _).symm
  behind := fun _ => ⟨.refl hf, fun _ hi => nomatch hi⟩
  last := fun before i after h => by simp at h

/-- One item more, as long as all those before it are words. -/
theorem last_append {i : Item} (h : ∀ j ∈ items, j.isWord = true) :
    ∀ before j after, items ++ [i] = before ++ j :: after → j.isWord = false → after = [] := by
  intro before j after heq hj
  rcases List.eq_nil_or_concat after with hnil | ⟨front, back, hback⟩
  · exact hnil
  · -- otherwise `j` stands among the words
    have hsplit : items ++ [i] = (before ++ j :: front) ++ [back] := by
      rw [heq, hback]
      simp
    have hmem : j ∈ items := by
      rw [(List.append_inj' hsplit rfl).1]
      simp
    rw [h j hmem] at hj
    cases hj

/-- **ONE PULL KEEPS THE STANDING**, on each of its exits. -/
theorem Standing.next (h : Standing first items c) :
    Standing first (items ++ c.next.item.toList) c.next.cursor := by
  cases hf : c.finished with
  | true =>
      rw [next_of_finished hf]
      show Standing first (items ++ []) c
      rwa [List.append_nil]
  | false =>
      have heq : (items ++ c.next.item.toList) ++ c.next.cursor.collect = first.collect := by
        rw [List.append_assoc, ← collect_next, h.items_eq]
      obtain ⟨hbehind, hwords⟩ := h.behind hf
      rcases next_cases hf with ⟨-, hstep, i, hi, hword⟩ | ⟨-, hfinished, haddress, hfatal⟩
      · -- a whole word: the count goes up by one and the cursor goes on
        rw [hi] at heq ⊢
        refine ⟨heq, ?_, ?_, last_append hwords⟩
        · show _ = first.address.word ((items ++ [i]).countP Item.isWord)
          rw [hstep.address, h.address_eq, Address.word_word, List.countP_append,
            List.countP_singleton, if_pos hword]
        · intro _
          refine ⟨?_, ?_⟩
          · show Behind first (items ++ [i]).length _
            rw [List.length_append]
            exact hbehind.trans hstep
          · intro j hj
            rcases List.mem_append.mp hj with hj | hj
            · exact hwords j hj
            · rw [List.mem_singleton.mp hj]
              exact hword
      · -- the end, a cut word or an unreadable source: nothing is counted
        have hover : c.next.cursor.finished = false → False := by
          intro hopen
          rw [hfinished] at hopen
          cases hopen
        have hcount : (items ++ c.next.item.toList).countP Item.isWord
            = items.countP Item.isWord := by
          rw [List.countP_append, Nat.add_eq_left, List.countP_eq_zero]
          intro i hi
          rw [hfatal i (Option.mem_toList.mp hi)]
          exact Bool.false_ne_true
        refine ⟨heq, ?_, fun hopen => (hover hopen).elim, ?_⟩
        · rw [haddress, hcount, h.address_eq]
        · cases hi : c.next.item with
          | none =>
              show ∀ before i after, items ++ [] = before ++ i :: after → _
              rw [List.append_nil]
              exact h.last
          | some i => exact last_append hwords

theorem Standing.rest (h : Standing first items c) (hy : Yields c is last) :
    Standing first (items ++ is) last := by
  induction hy generalizing items with
  | done hnone =>
      have hnext := h.next
      rwa [hnone] at hnext
  | item hsome _ ih =>
      have hnext := h.next
      rw [hsome] at hnext
      have hrest := ih hnext
      rwa [Option.toList_some, List.append_assoc] at hrest

/-- Every answer keeps it, and finishes the cursor exactly if it shows that the
    stream is over. -/
theorem Standing.answer (h : Standing first items c) (request : Request) :
    Standing first (items ++ (c.answer request).1.items) (c.answer request).2 ∧
      (c.finished = false → (c.answer request).2.finished = (c.answer request).1.ends) := by
  cases request with
  | next =>
      refine ⟨h.next, ?_⟩
      intro hf
      rcases next_cases hf with ⟨-, hstep, i, hi, hword⟩ | ⟨-, hfinished, -, hfatal⟩
      · simp [Cursor.answer, Reply.ends, hi, hword, hstep.open_]
      · cases hi : c.next.item with
        | none => simp [Cursor.answer, Reply.ends, hi, hfinished]
        | some i => simp [Cursor.answer, Reply.ends, hi, hfinished, hfatal i hi]
  | address =>
      refine ⟨?_, fun hf => hf⟩
      show Standing first (items ++ []) c
      rwa [List.append_nil]
  | rest =>
      obtain ⟨hyields, hfinished⟩ := c.yields_collect
      exact ⟨h.rest hyields, fun _ => hfinished⟩

/-- A stream that is over stays as it is, and says so. -/
theorem answer_of_finished (hf : c.finished = true) (request : Request) :
    (c.answer request).2 = c ∧ (c.answer request).1.isOver c.address := by
  cases request with
  | next =>
      show c.next.cursor = c ∧ c.next.item = none
      rw [next_of_finished hf]
      exact ⟨rfl, rfl⟩
  | address => exact ⟨rfl, rfl⟩
  | rest =>
      have hdone : Yields c [] c.next.cursor := .done (by rw [next_of_finished hf])
      refine ⟨?_, collect_of_finished hf⟩
      show (c.drain #[] #[]).2.2 = c
      rw [(drain_of_yields hdone #[] #[]).2, next_of_finished hf]

theorem session_of_finished (hf : c.finished = true) (requests : List Request) :
    (c.session requests).2 = c ∧ ∀ reply ∈ (c.session requests).1, reply.isOver c.address := by
  induction requests with
  | nil => exact ⟨rfl, fun _ h => nomatch h⟩
  | cons request requests ih =>
      obtain ⟨hcursor, hreply⟩ := answer_of_finished hf request
      rw [session, hcursor]
      refine ⟨ih.1, ?_⟩
      intro reply hmem
      rcases List.mem_cons.mp hmem with rfl | hmem
      · exact hreply
      · exact ih.2 reply hmem

/-- **EVERY SESSION KEEPS THE STANDING**, and the cursor is finished exactly if
    one of the replies showed that the stream is over. -/
theorem Standing.session (h : Standing first items c) (requests : List Request) :
    Standing first (items ++ given (c.session requests).1) (c.session requests).2 ∧
      (c.session requests).2.finished = (c.finished || (c.session requests).1.any Reply.ends) := by
  induction requests generalizing items c with
  | nil =>
      refine ⟨?_, (Bool.or_false _).symm⟩
      show Standing first (items ++ []) c
      rwa [List.append_nil]
  | cons request requests ih =>
      obtain ⟨hanswer, hends⟩ := h.answer request
      obtain ⟨hrest, hfinished⟩ := ih hanswer
      rw [List.append_assoc] at hrest
      refine ⟨hrest, ?_⟩
      show ((c.answer request).2.session requests).2.finished
        = (c.finished || ((c.answer request).1.ends
          || ((c.answer request).2.session requests).1.any Reply.ends))
      -- `answer` says nothing of `ends` if the stream was over before
      cases hf : c.finished with
      | true =>
          obtain ⟨hcursor, -⟩ := answer_of_finished hf request
          rw [hcursor, (session_of_finished hf requests).1, hf]
          rfl
      | false => rw [hfinished, hends hf, Bool.false_or]

theorem session_append (c : Cursor) (requests later : List Request) :
    c.session (requests ++ later)
      = ((c.session requests).1 ++ ((c.session requests).2.session later).1,
        ((c.session requests).2.session later).2) := by
  induction requests generalizing c with
  | nil => rfl
  | cons request requests ih =>
      rw [List.cons_append, session, ih]
      rfl

/-- **WHERE A SESSION STANDS**: at each point the items given out are the first
    ones of the whole stream, the address counts the words among them, and until
    a reply ends the stream exactly the bytes of those words were handed out and
    the source is still asked.  An error that decoding does not go on behind is
    the last item.  Behind a reply that ends the stream all the items were given
    out, and nothing changes any more. -/
theorem session_of_start (base : Address) (events : List Event) (requests : List Request) :
    let replies := ((start base events).session requests).1
    let c := ((start base events).session requests).2
    let items := given replies
    let words := items.countP Item.isWord
    items <+: (start base events).collect ∧
    c.address = Flat.addressAt base words ∧ (c.answer .address).1 = .address c.address ∧
    (replies.any Reply.ends = false →
      (∀ i ∈ items, i.isWord = true) ∧ c.source.delivered = 4 * words ∧
        c.source.unread = (events.flatMap Event.held).drop (4 * words) ∧
        c.source.calls < c.next.cursor.source.calls) ∧
    (∀ before i after, items = before ++ i :: after → i.isWord = false → after = []) ∧
    (replies.any Reply.ends = true →
      items = (start base events).collect ∧
        ∀ later, ∃ more, (start base events).session (requests ++ later) = (replies ++ more, c) ∧
          ∀ reply ∈ more, reply.isOver c.address) := by
  intro replies c items words
  obtain ⟨h, hfinished⟩ := (Standing.refl (c := start base events) rfl).session requests
  have hstanding : Standing (start base events) items c := h
  have hover : c.finished = replies.any Reply.ends := hfinished
  refine ⟨⟨c.collect, hstanding.items_eq⟩, ?_, rfl, ?_, hstanding.last, ?_⟩
  · rw [Flat.addressAt_eq_word]
    exact hstanding.address_eq
  · intro hends
    obtain ⟨hbehind, hwords⟩ := hstanding.behind (hover.trans hends)
    have hcount : words = items.length := List.countP_eq_length.mpr hwords
    refine ⟨hwords, ?_, ?_, calls_next_lt (hover.trans hends)⟩
    · rw [hcount, hbehind.delivered]
      exact Nat.zero_add _
    · rw [hcount]
      exact hbehind.unread
  · intro hends
    have hf : c.finished = true := hover.trans hends
    refine ⟨?_, ?_⟩
    · have heq := hstanding.items_eq
      rwa [collect_of_finished hf, List.append_nil] at heq
    · intro later
      obtain ⟨hcursor, hreplies⟩ := session_of_finished hf later
      refine ⟨(c.session later).1, ?_, hreplies⟩
      rw [session_append, show ((start base events).session requests).2 = c from rfl, hcursor]

/-- An unrecognized word at the last address does not end the stream, and a
    truncated one does, although the source would have more. -/
theorem session_of_start_truncated :
    (((start 0xFFFFFFFC [.data [3, 0, 0, 0x70], .data [0xFF], .stop, .data [0, 0, 0, 0]]).session
        [.next, .address]).2.source.delivered = 4) ∧
    (∀ later, ∃ more,
      (start 0xFFFFFFFC [.data [3, 0, 0, 0x70], .data [0xFF], .stop, .data [0, 0, 0, 0]]).session
          ([.next, .address, .next] ++ later)
        = ([.item (some (.error (.unrecognized 0xFFFFFFFC 0x70000003 28 (some 3)))), .address 0,
            .item (some (.error (.truncated 0 1)))] ++ more,
          ⟨⟨[.data [0, 0, 0, 0]], 3, 5⟩, 0, true⟩) ∧
        ∀ reply ∈ more, reply.isOver 0) := by
  obtain ⟨-, -, -, hgoesOn, -, -⟩ := session_of_start 0xFFFFFFFC
    [.data [3, 0, 0, 0x70], .data [0xFF], .stop, .data [0, 0, 0, 0]] [.next, .address]
  obtain ⟨-, -, -, -, -, hover⟩ := session_of_start 0xFFFFFFFC
    [.data [3, 0, 0, 0x70], .data [0xFF], .stop, .data [0, 0, 0, 0]] [.next, .address, .next]
  exact ⟨(hgoesOn (by decide)).2.1, (hover (by decide)).2⟩

end Mips32.Cursor

import Mathlib.Data.List.Forall2
import Mathlib.Data.List.TakeWhile
import Mips32.Proofs.Listing.Reading

/-! # Moving the base

    The base of a stream is nothing but the address of its first word.  No
    operand is relative to it and no lookup depends on it, so from another base
    the same stream gives the same items, each of them MOVED by the distance of
    the two bases, the end of the address space included.

    An address stands in a listing only where a comment tells it.  Without
    comments the listing is the same from every base, in any sink; with them,
    the lines that differ are comments for the same word.

    Main statement: `Listing.moved_of_base`. -/

namespace Mips32

/-- Two items that differ in where they stand, by a distance, and in nothing
    else. -/
inductive Item.Moved (distance : Address) : Item → Item → Prop
  | instruction {i i' : Instruction} (address : i'.address = i.address + distance)
      (word : i'.word = i.word) (mnemonic : i'.mnemonic = i.mnemonic)
      (format : i'.format = i.format) (operands : i'.operands = i.operands)
      (text : i'.text = i.text) : Moved distance (.ok i) (.ok i')
  | word (address : Address) (word : Word) (opcode : Nat) (function : Option Nat) :
      Moved distance (.error (.unrecognized address word opcode function))
        (.error (.unrecognized (address + distance) word opcode function))
  | cut (address : Address) (available : Nat) :
      Moved distance (.error (.truncated address available))
        (.error (.truncated (address + distance) available))
  | failure (failure : Failure) :
      Moved distance (.error (.unreadable failure)) (.error (.unreadable failure))

variable {distance : Address}

/-! ## Items -/

theorem Address.word_add (base distance : Address) (i : Nat) :
    word (base + distance) i = base.word i + distance := by
  rw [word, word, BitVec.add_assoc, BitVec.add_comm distance, ← BitVec.add_assoc]

theorem moved_decode (w : Word) (address distance : Address) :
    Item.Moved distance (decode w address) (decode w (address + distance)) := by
  rw [decode, decode]
  cases Descriptor.of? w with
  | some d => exact .instruction rfl rfl rfl rfl rfl rfl
  | none => exact .word ..

/-- **STREAMS MOVE AS A WHOLE**: word for word, and at the end. -/
theorem Flat.moved_items (f : Flat) (base distance : Address) :
    List.Forall₂ (Item.Moved distance) (f.items base) (f.items (base + distance)) := by
  induction hn : f.bytes.length using Nat.strongRecOn generalizing f base with
  | ind n ih =>
      by_cases hle : 4 ≤ f.bytes.length
      · have hshorter : f.rest.bytes.length < n := by
          rw [← hn, show f.rest.bytes.length = _ from List.length_drop]
          omega
        rw [items_of_le hle, items_of_le hle, Address.word_add]
        exact .cons (moved_decode _ base distance) (ih _ hshorter _ (base.word 1) rfl)
      · have hlt : f.bytes.length < 4 := by omega
        rw [items_of_lt hlt, items_of_lt hlt]
        cases f.failure with
        | some failure => exact .cons (.failure failure) .nil
        | none =>
            cases f.bytes.isEmpty with
            | true => exact .nil
            | false => exact .cons (.cut base f.bytes.length) .nil

theorem Cursor.moved_collect (events : List Event) (base base' : Address) :
    List.Forall₂ (Item.Moved (base' - base)) (start base events).collect
      (start base' events).collect := by
  have hmoved := Flat.moved_items (Flat.ofEvents events) base (base' - base)
  rw [BitVec.add_comm, BitVec.sub_add_cancel] at hmoved
  rwa [collect_start, collect_start]

namespace Listing

open Sink (linesBytes)

variable {policy : Policy} {feed feed' : Feed} {item item' : Item} {items items' : List Item}

/-! ## What a listing makes of moved items -/

theorem isNone_stopping_of_moved (policy : Policy) (h : item.Moved distance item') :
    (stopping policy item').isNone = (stopping policy item).isNone := by
  cases h <;> cases policy <;> rfl

/-- A listing ends at the same item. -/
theorem passed_of_moved (policy : Policy) (h : List.Forall₂ (Item.Moved distance) items items') :
    List.Forall₂ (Item.Moved distance) (passed policy items) (passed policy items') ∧
      (obstacle policy items').isNone = (obstacle policy items).isNone := by
  induction h with
  | nil => exact ⟨.nil, rfl⟩
  | @cons item item' items items' hitem _ ih =>
      have hstops := isNone_stopping_of_moved policy hitem
      cases hstop : stopping policy item with
      | none =>
          rw [hstop, Option.isNone_none, Option.isNone_iff_eq_none] at hstops
          obtain ⟨hpassed, hobstacle⟩ := passed_cons_of_none items hstop
          obtain ⟨hpassed', hobstacle'⟩ := passed_cons_of_none items' hstops
          rw [hpassed, hpassed', hobstacle, hobstacle']
          exact ⟨.cons hitem ih.1, ih.2⟩
      | some fault =>
          cases hstop' : stopping policy item' with
          | none =>
              rw [hstop, hstop'] at hstops
              cases hstops
          | some fault' =>
              obtain ⟨hpassed, hobstacle⟩ := passed_cons_of_stopping items hstop
              obtain ⟨hpassed', hobstacle'⟩ := passed_cons_of_stopping items' hstop'
              rw [hpassed, hpassed', hobstacle, hobstacle']
              exact ⟨.nil, rfl⟩

theorem summary_of_moved (h : List.Forall₂ (Item.Moved distance) items items') :
    Summary.of items' = Summary.of items := by
  have hkinds : items'.map Item.isInstruction = items.map Item.isInstruction := by
    induction h with
    | nil => rfl
    | cons hitem _ ih =>
        rw [List.map_cons, List.map_cons, ih]
        cases hitem <;> rfl
  have hcount (items : List Item) : Summary.of items
      = ⟨(items.map Item.isInstruction).countP id, (items.map Item.isInstruction).countP not⟩ := by
    rw [List.countP_map, List.countP_map]
    rfl
  rw [hcount, hcount, hkinds]

/-- A line, or the comments for one word at two addresses. -/
inductive SameLine (distance : Address) : String → String → Prop
  | same (line : String) : SameLine distance line line
  | comment (address : Address) (word : Word) (opcode : Nat) (function : Option Nat) :
      SameLine distance (comment (.unrecognized address word opcode function))
        (comment (.unrecognized (address + distance) word opcode function))

/-- What is listed of an item and of the moved one: no address, unless it is in a
    comment. -/
theorem sameLine_of_moved (h : item.Moved distance item') (hnone : stopping policy item = none) :
    SameLine distance (line item) (line item') ∧ (policy = .abort → line item' = line item) := by
  cases h with
  | instruction _ _ _ _ _ htext =>
      have hline : line (.ok _) = line (.ok _) := htext
      exact ⟨hline ▸ .same _, fun _ => hline⟩
  | word address word opcode function =>
      refine ⟨.comment address word opcode function, ?_⟩
      rintro rfl
      cases hnone
  | cut => cases policy <;> cases hnone
  | failure => cases policy <;> cases hnone

theorem lines_of_moved (h : List.Forall₂ (Item.Moved distance) items items')
    (hnone : ∀ i ∈ items, stopping policy i = none) :
    List.Forall₂ (SameLine distance) (items.map line) (items'.map line) ∧
      (policy = .abort → items'.map line = items.map line) := by
  induction h with
  | nil => exact ⟨.nil, fun _ => rfl⟩
  | cons hitem _ ih =>
      rw [List.forall_mem_cons] at hnone
      obtain ⟨hline, hsame⟩ := sameLine_of_moved hitem hnone.1
      obtain ⟨hlines, hsames⟩ := ih hnone.2
      refine ⟨.cons hline hlines, ?_⟩
      intro habort
      rw [List.map_cons, List.map_cons, hsame habort, hsames habort]

theorem stopping_of_mem_passed (h : item ∈ passed policy items) : stopping policy item = none :=
  Option.isNone_iff_eq_none.mp (List.mem_takeWhile_imp (p := fun i => (stopping policy i).isNone) h)

/-! ## Listings -/

/-- Of the item that ends a listing, only whether there is one counts for the
    sink and for success. -/
theorem outcome_congr {fault? fault?' : Option Fault} (h : fault?'.isNone = fault?.isNone)
    (summary : Summary) (written : Option Failure × Sink) :
    (outcome fault?' summary written).2 = (outcome fault? summary written).2 ∧
      ∀ counted, (outcome fault?' summary written).1 = .ok counted ↔
        (outcome fault? summary written).1 = .ok counted := by
  obtain ⟨failure?, sink⟩ := written
  cases failure? with
  | some failure => exact ⟨rfl, fun _ => Iff.rfl⟩
  | none =>
      cases fault? with
      | none =>
          obtain rfl := Option.isNone_iff_eq_none.mp h
          exact ⟨rfl, fun _ => Iff.rfl⟩
      | some fault =>
          cases fault?' with
          | none => cases h
          | some fault' => exact ⟨rfl, fun _ => ⟨nofun, nofun⟩⟩

/-- **WITHOUT COMMENTS NO ADDRESS SHOWS**: the sink is left the same, and a
    complete listing counts the same. -/
theorem write_abort_of_moved (h : List.Forall₂ (Item.Moved distance) feed.items feed'.items)
    (framing : Framing) (sink : Sink) :
    (write framing .abort feed' sink).sink = (write framing .abort feed sink).sink ∧
      ∀ summary, (write framing .abort feed' sink).result = .ok summary ↔
        (write framing .abort feed sink).result = .ok summary := by
  obtain ⟨hpassed, hobstacle⟩ := passed_of_moved .abort h
  have hlisted := (lines_of_moved hpassed fun _ => stopping_of_mem_passed).2 rfl
  have hlines : lines framing .abort feed'.items = lines framing .abort feed.items := by
    rw [lines, lines, hlisted, hobstacle]
  have hwrite := write_eq_outcome framing .abort feed sink
  have hwrite' := write_eq_outcome framing .abort feed' sink
  rw [hlines, summary_of_moved h] at hwrite'
  obtain ⟨hresult, hsink⟩ := Prod.ext_iff.mp hwrite
  obtain ⟨hresult', hsink'⟩ := Prod.ext_iff.mp hwrite'
  obtain ⟨hsame, hok⟩ := outcome_congr hobstacle (.of feed.items)
    (sink.write (linesBytes (lines framing .abort feed.items)))
  refine ⟨hsink'.trans (hsame.trans hsink.symm), ?_⟩
  intro summary
  rw [show (write framing .abort feed' sink).result = _ from hresult', hok,
    show (write framing .abort feed sink).result = _ from hresult]

/-- **ONLY ADDRESSES MOVE WITH THE BASE.**  From two bases, a stream gives as many
    items, and at every index two that differ by the distance of the bases.  Its
    listings without comments leave any sink the same and count the same.  In its
    listings with comments, line for line, nothing differs but comments, and those
    are for the same word. -/
theorem moved_of_base (events : List Event) (base base' : Address) :
    List.Forall₂ (Item.Moved (base' - base)) (Cursor.start base events).collect
      (Cursor.start base' events).collect ∧
    (∀ (framing : Framing) (sink : Sink),
      let run (base : Address) := write framing .abort (.stream (.start base events)) sink
      (run base').sink = (run base).sink ∧
        ∀ summary, (run base').result = .ok summary ↔ (run base).result = .ok summary) ∧
    (∀ (framing : Framing) (refusal : Option Refusal) (flushRefusal : Option Failure),
      let run (base : Address) :=
        write framing .comment (.stream (.start base events))
          ({ refusal, flushRefusal } : Sink)
      ∃ front front' back : List String,
        (run base).sink.accepted.toList = linesBytes (framing.prologue ++ front ++ back) ∧
        (run base').sink.accepted.toList = linesBytes (framing.prologue ++ front' ++ back) ∧
        (back = [] ∨ back = framing.epilogue) ∧
        List.Forall₂ (SameLine (base' - base)) front front' ∧
        ∀ l ∈ front ++ front', '\n' ∉ l.toList) := by
  have hmoved := Cursor.moved_collect events base base'
  refine ⟨hmoved, ?_, ?_⟩
  · intro framing sink run
    exact write_abort_of_moved hmoved framing sink
  · intro framing refusal flushRefusal run
    let feed (base : Address) : Feed := .stream (.start base events)
    let listed (base : Address) := (passed .comment (feed base).items).map line
    have houtput (base : Address) : (run base).sink.accepted.toList
        = text framing .comment (feed base).items :=
      (run_of_unlimited framing .comment (feed base) refusal flushRefusal).2.1
    have hlines (base : Address) : ∀ l ∈ listed base, '\n' ∉ l.toList := by
      intro l hl
      obtain ⟨item, hitem, rfl⟩ := List.mem_map.mp hl
      -- an item that is listed is a word, and the line of a word is one line
      obtain ⟨w, address, rfl⟩ := exists_decode_of_none (.stream base events)
        ((List.takeWhile_sublist _).subset hitem) (stopping_of_mem_passed hitem)
      exact (line_decode w address).1
    obtain ⟨hpassed, hobstacle⟩ := passed_of_moved .comment hmoved
    refine ⟨listed base, listed base',
      if (obstacle .comment (feed base).items).isNone then framing.epilogue else [],
      houtput base, ?_, ?_, (lines_of_moved hpassed fun _ => stopping_of_mem_passed).1, ?_⟩
    · rw [houtput base', text, lines]
      rw [show (obstacle .comment (feed base').items).isNone = _ from hobstacle]
      rfl
    · by_cases hnone : (obstacle .comment (feed base).items).isNone
      · exact .inr (if_pos hnone)
      · exact .inl (if_neg hnone)
    · intro l hl
      rcases List.mem_append.mp hl with hl | hl
      · exact hlines base l hl
      · exact hlines base' l hl

end Listing

end Mips32

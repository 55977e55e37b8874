import Mips32.Proofs.Assembly.RoundTrip
import Mips32.Proofs.Fault
import Mips32.Proofs.Listing.Words
import Mips32.Proofs.Parts

/-! # Reading a listing back

    A listing has no marks but its line feeds.  They are enough: no text of an
    instruction and no comment has one inside it, so cutting the listing at its
    line feeds gives the line of each item at the item's own index.  A line that
    starts with a number sign is a comment, for no instruction does, and a
    comment tells its word and the word's address.

    So two complete listings in the same frame are the same only if they tell
    the same of each of their items.  Main statement: `Listing.output_eq_iff`. -/

namespace Mips32

/-- Two items that a listing does not tell apart: instructions with the same
    text, or one word at one address that is no instruction. -/
inductive Item.Alike : Item → Item → Prop
  | instructions {i i' : Instruction} (h : i.text = i'.text) : Alike (.ok i) (.ok i')
  | words (address : Address) (word : Word) (opcode opcode' : Nat)
      (function function' : Option Nat) :
      Alike (.error (.unrecognized address word opcode function))
        (.error (.unrecognized address word opcode' function'))

/-! ## The text of an instruction -/

/-- Whether a character neither ends a line nor starts a comment. -/
def isPlain (c : Char) : Bool := c != '\n' && c != '#'

theorem isPlain_name (m : Mnemonic) : ∀ c ∈ m.name.toList, isPlain c = true := by
  apply List.all_eq_true.mp
  cases m <;> rfl

theorem name_ne_nil (m : Mnemonic) : m.name.toList ≠ [] := by
  cases m <;> decide

theorem isPlain_operand {o : Operand} {w : Word} : ∀ c ∈ (o.text w).toList, isPlain c = true := by
  intro c hc
  have hoperand := Operand.isOperandChar_of_mem_text hc
  rw [isPlain, Bool.and_eq_true, bne_iff_ne, bne_iff_ne]
  constructor
  · rintro rfl
    cases hoperand
  · rintro rfl
    cases hoperand

/-- Whether the punctuation of a piece is plain. -/
def Piece.isPlainMark : Piece → Bool
  | .mark t => t.toList.all isPlain
  | .operand _ => true

theorem isPlain_shape (s : Shape) (w : Word) : ∀ c ∈ (s.text w).toList, isPlain c = true := by
  have hmarks : s.pieces.all Piece.isPlainMark = true := by
    cases s <;> decide
  intro c hc
  rw [Shape.toList_text, Piece.textOf, List.mem_flatMap] at hc
  obtain ⟨p, hp, hc⟩ := hc
  cases p with
  | mark t => exact List.all_eq_true.mp (List.all_eq_true.mp hmarks _ hp) c hc
  | operand o => exact isPlain_operand c hc

/-- **AN INSTRUCTION IS A LINE** that is not empty, is not cut, and is no
    comment. -/
theorem isPlain_text {w : Word} {address : Address} {i : Instruction}
    (h : decode w address = .ok i) :
    i.text.toList ≠ [] ∧ ∀ c ∈ i.text.toList, isPlain c = true := by
  obtain ⟨d, -, -, hoperands⟩ := exists_descriptor h
  have hshape := isPlain_shape d.shape w
  rw [← hoperands] at hshape
  rw [Instruction.text]
  by_cases hempty : i.operands = ""
  · rw [if_pos hempty]
    exact ⟨name_ne_nil i.mnemonic, isPlain_name i.mnemonic⟩
  · rw [if_neg hempty, String.toList_append, String.toList_append]
    refine ⟨?_, ?_⟩
    · simp
    · intro c hc
      rcases List.mem_append.mp hc with hfront | hoperand
      · rcases List.mem_append.mp hfront with hname | hspace
        · exact isPlain_name i.mnemonic c hname
        · rw [List.mem_singleton.mp hspace]
          rfl
      · exact hshape c hoperand

/-! ## Cutting at the line feeds -/

namespace Listing

open Sink (linesBytes)

variable {framing : Framing} {policy : Policy} {feed : Feed} {sink : Sink} {summary : Summary}

/-- Lines with what ends each of them. -/
def joined (lines : List String) : String :=
  String.ofList ((lines.map String.toList).flatMap fun line => line ++ ['\n'])

theorem linesBytes_eq_joined (lines : List String) :
    linesBytes lines = Utf8.bytes (joined lines) := by
  induction lines with
  | nil => rfl
  | cons l lines ih =>
      have hjoined : joined (l :: lines) = l ++ "\n" ++ joined lines := by
        apply String.toList_inj.mp
        simp [joined]
      rw [hjoined, Utf8.bytes_append, ← ih, Sink.linesBytes_cons]
      rfl

theorem split_joined {lines : List String} (h : ∀ l ∈ lines, '\n' ∉ l.toList) :
    Parts.split '\n' (joined lines).toList = lines.map String.toList ++ [[]] := by
  rw [joined, String.toList_ofList]
  exact Parts.split_flatMap (List.forall_mem_map.mpr h)

theorem joined_inj {lines lines' : List String} (h : ∀ l ∈ lines, '\n' ∉ l.toList)
    (h' : ∀ l ∈ lines', '\n' ∉ l.toList) : joined lines = joined lines' ↔ lines = lines' := by
  constructor
  · intro heq
    have hparts := split_joined h
    rw [heq, split_joined h', List.append_cancel_right_eq] at hparts
    exact (List.map_inj_right fun _ _ => String.toList_inj.mp).mp hparts.symm
  · rintro rfl
    rfl

/-! ## The line of an item -/

/-- A word is an instruction, or its own fault. -/
theorem decode_cases (w : Word) (address : Address) :
    (∃ i, decode w address = .ok i) ∨
      ∃ opcode function, decode w address = .error (.unrecognized address w opcode function) := by
  rw [decode]
  split
  · exact .inl ⟨_, rfl⟩
  · exact .inr ⟨_, _, rfl⟩

/-- The line of a word is one line, and starts with a number sign exactly if it
    is a comment. -/
theorem line_decode (w : Word) (address : Address) :
    let text := (line (decode w address)).toList
    '\n' ∉ text ∧ text ≠ [] ∧
      (text.head? = some '#' ↔ (decode w address).isInstruction = false) := by
  rcases decode_cases w address with ⟨i, hok⟩ | ⟨opcode, function, herror⟩
  · obtain ⟨hne, hplain⟩ := isPlain_text hok
    rw [hok]
    refine ⟨fun h => absurd (hplain _ h) (by decide), hne, ?_⟩
    constructor
    · intro h
      exact absurd (hplain _ (List.mem_of_head? h)) (by decide)
    · intro h
      cases h
  · rw [herror]
    have htext : (line (.error (.unrecognized address w opcode function))).toList
        = '#' :: ' ' :: (Fault.message (.unrecognized address w opcode function)).toList := by
      simp [line]
    intro text
    rw [show text = _ from htext]
    refine ⟨?_, List.cons_ne_nil _ _, fun _ => rfl, fun _ => rfl⟩
    intro h
    rw [List.mem_cons, List.mem_cons] at h
    rcases h with h | h | h
    · cases h
    · cases h
    · exact Fault.newline_not_mem_message address w opcode function h

/-- **A LINE TELLS ITS ITEM**, as far as a listing tells items apart. -/
theorem line_eq_iff (w w' : Word) (address address' : Address) :
    line (decode w address) = line (decode w' address') ↔
      (decode w address).Alike (decode w' address') := by
  -- the first character tells which of the two kinds a line is
  have hkind (h : line (decode w address) = line (decode w' address')) :
      (decode w address).isInstruction = false ↔ (decode w' address').isInstruction = false := by
    rw [← (line_decode w address).2.2, h, (line_decode w' address').2.2]
  rcases decode_cases w address with ⟨i, hi⟩ | ⟨opcode, function, hi⟩
  · rcases decode_cases w' address' with ⟨i', hi'⟩ | ⟨opcode', function', hi'⟩
    · rw [hi, hi']
      refine ⟨.instructions, ?_⟩
      rintro ⟨htext⟩
      exact htext
    · rw [hi, hi'] at hkind ⊢
      refine ⟨fun h => (nomatch (hkind h).mpr rfl), ?_⟩
      rintro ⟨⟩
  · rcases decode_cases w' address' with ⟨i', hi'⟩ | ⟨opcode', function', hi'⟩
    · rw [hi, hi'] at hkind ⊢
      refine ⟨fun h => (nomatch (hkind h).mp rfl), ?_⟩
      rintro ⟨⟩
    · constructor
      · intro h
        rw [hi, hi'] at h ⊢
        obtain ⟨rfl, rfl, -, -⟩ := Fault.message_unrecognized_inj ((String.append_right_inj _).mp h)
        exact .words ..
      · intro h
        rw [hi, hi'] at h
        -- the same word at the same address
        cases h
        rfl

/-- Lines that are the same are as many, and tell the same at every index. -/
theorem map_line_eq_iff {items items' : List Item}
    (h : ∀ item ∈ items, ∃ w address, item = decode w address)
    (h' : ∀ item ∈ items', ∃ w address, item = decode w address) :
    items.map line = items'.map line ↔
      items.length = items'.length ∧
        ∀ (k : Nat) item item', items[k]? = some item → items'[k]? = some item' →
          item.Alike item' := by
  have hline {item item' : Item} (hmem : item ∈ items) (hmem' : item' ∈ items') :
      line item = line item' ↔ item.Alike item' := by
    obtain ⟨w, address, rfl⟩ := h item hmem
    obtain ⟨w', address', rfl⟩ := h' item' hmem'
    exact line_eq_iff w w' address address'
  constructor
  · intro heq
    refine ⟨by simpa using congrArg List.length heq, ?_⟩
    intro k item item' hk hk'
    have hget := congrArg (fun lines => lines[k]?) heq
    simp only [List.getElem?_map, hk, hk', Option.map_some] at hget
    exact (hline (List.mem_of_getElem? hk) (List.mem_of_getElem? hk')).mp (Option.some.inj hget)
  · rintro ⟨hlength, halike⟩
    apply List.ext_getElem
    · simpa using hlength
    · intro k hk hk'
      rw [List.length_map] at hk hk'
      rw [List.getElem_map, List.getElem_map, hline (List.getElem_mem _) (List.getElem_mem _)]
      exact halike k _ _ (List.getElem?_eq_getElem hk) (List.getElem?_eq_getElem hk')

/-! ## Complete listings -/

/-- What a run added to a sink. -/
def Run.output (run : Run Sink) (before : Sink) : List UInt8 :=
  run.sink.accepted.toList.drop before.accepted.size

/-- **A COMPLETE LISTING** had no item that would end it, and all its lines were
    accepted. -/
theorem output_of_ok (h : (write framing policy feed sink).result = .ok summary) :
    (∀ item ∈ feed.items, stopping policy item = none) ∧
      (write framing policy feed sink).output sink
        = linesBytes framing.prologue ++ Utf8.bytes (joined (feed.items.map line))
          ++ linesBytes framing.epilogue := by
  by_cases hfits : sink.Fits (text framing policy feed.items).length
  · obtain ⟨hresult, haccepted, -⟩ := run_of_fits framing policy feed hfits
    cases hobstacle : obstacle policy feed.items with
    | some fault =>
        rw [hobstacle, h] at hresult
        cases hresult
    | none =>
        have hnone := List.findSome?_eq_none_iff.mp hobstacle
        refine ⟨hnone, ?_⟩
        rw [Run.output, haccepted, text, lines, (passed_eq_self hnone).1, hobstacle,
          ← linesBytes_eq_joined]
        simp [linesBytes]
  · obtain ⟨room, -, hresult, -, -⟩ := run_of_not_fits hfits
    cases h.symm.trans hresult

/-- **A LISTING READS BACK LINE BY LINE.**  The line of a word is not cut and not
    empty, and is marked exactly if it is a comment.  A complete listing, between
    the lines of its frame, falls apart into the lines of its items.  Two of them
    in the same frame, in whatever ways their bytes were read and in whatever
    sinks they were written, are the same exactly if their items are as many and
    alike at every index. -/
theorem output_eq_iff :
    (∀ w address,
      let text := (line (decode w address)).toList
      '\n' ∉ text ∧ text ≠ [] ∧
        (text.head? = some '#' ↔ (decode w address).isInstruction = false)) ∧
    (∀ (framing : Framing) (policy : Policy) (feed : Feed) (sink : Sink) (summary : Summary),
      feed.FromBytes → (write framing policy feed sink).result = .ok summary →
      ∃ body : String,
        (write framing policy feed sink).output sink
          = linesBytes framing.prologue ++ Utf8.bytes body ++ linesBytes framing.epilogue ∧
        Parts.split '\n' body.toList
          = feed.items.map (fun item => (line item).toList) ++ [[]]) ∧
    (∀ (framing : Framing) (policy policy' : Policy) (feed feed' : Feed) (sink sink' : Sink)
        (summary summary' : Summary), feed.FromBytes → feed'.FromBytes →
      (write framing policy feed sink).result = .ok summary →
      (write framing policy' feed' sink').result = .ok summary' →
      ((write framing policy feed sink).output sink
          = (write framing policy' feed' sink').output sink' ↔
        feed.items.length = feed'.items.length ∧
          ∀ (k : Nat) item item', feed.items[k]? = some item → feed'.items[k]? = some item' →
            item.Alike item')) := by
  have hdecoded {policy : Policy} {feed : Feed} (hfeed : feed.FromBytes)
      (hnone : ∀ item ∈ feed.items, stopping policy item = none) :
      ∀ item ∈ feed.items, ∃ w address, item = decode w address :=
    fun item hitem => exists_decode_of_none hfeed hitem (hnone item hitem)
  have hlines {items : List Item} (h : ∀ item ∈ items, ∃ w address, item = decode w address) :
      ∀ l ∈ items.map line, '\n' ∉ l.toList := by
    rw [List.forall_mem_map]
    intro item hitem
    obtain ⟨w, address, rfl⟩ := h item hitem
    exact (line_decode w address).1
  refine ⟨line_decode, ?_, ?_⟩
  · intro framing policy feed sink summary hfeed hok
    obtain ⟨hnone, houtput⟩ := output_of_ok hok
    refine ⟨_, houtput, ?_⟩
    rw [split_joined (hlines (hdecoded hfeed hnone)), List.map_map]
    rfl
  · intro framing policy policy' feed feed' sink sink' summary summary' hfeed hfeed' hok hok'
    obtain ⟨hnone, houtput⟩ := output_of_ok hok
    obtain ⟨hnone', houtput'⟩ := output_of_ok hok'
    have hitems := hdecoded hfeed hnone
    have hitems' := hdecoded hfeed' hnone'
    rw [houtput, houtput', List.append_cancel_right_eq, List.append_cancel_left_eq,
      Utf8.bytes_inj, joined_inj (hlines hitems) (hlines hitems'), map_line_eq_iff hitems hitems']

/-- Two words that differ in bits that their text does not show, each before the
    same reserved word: one listing, unless the reserved word is elsewhere. -/
theorem output_eq_iff_stray_bits :
    let stream := Feed.stream (.start 0
      [.data [0xE1, 0xF0, 0xCF, 0x71, 3], .fail ⟨.interrupted, "again"⟩, .data [0, 0, 0x70]])
    let batch (base : Address) := Feed.batch
      (Batch.decodeOn (.sharing 2) [0x21, 0xF0, 0xC0, 0x71, 3, 0, 0, 0x70] base)
    let run (feed : Feed) := write .program .comment feed ({} : Sink)
    (run stream).result = .ok ⟨1, 1⟩ ∧ (run (batch 0)).result = .ok ⟨1, 1⟩ ∧
    (run (batch 4)).result = .ok ⟨1, 1⟩ ∧
    (∃ body : String,
      (run stream).output {}
        = Utf8.bytes (".text\n.globl main\nmain:\n" ++ body ++ "li $v0, 10\nsyscall\n") ∧
      Parts.split '\n' body.toList
        = ["clo $fp, $t6".toList,
          "# unrecognized instruction 0x70000003 at 0x4 (opcode 0x1c, function 0x03)".toList, []]) ∧
    (run stream).output {} = (run (batch 0)).output {} ∧
    (run stream).output {} ≠ (run (batch 4)).output {} := by
  intro stream batch run
  have hstream : stream.items = [decode 0x71CFF0E1 0, decode 0x70000003 4] :=
    (Cursor.collect_start 0 _).trans rfl
  have hbatch (base : Address) : (batch base).FromBytes :=
    .batch (Batch.Pool.sharing_inOrder 2) _ base
  have hzero : (batch 0).items = [decode 0x71C0F021 0, decode 0x70000003 4] := rfl
  have hfour : (batch 4).items = [decode 0x71C0F021 4, decode 0x70000003 8] := rfl
  have hlisted {feed : Feed} {items : List Item} (hitems : feed.items = items)
      (hnone : obstacle .comment items = none) (hcount : Summary.of items = ⟨1, 1⟩) :
      (run feed).result = .ok ⟨1, 1⟩ := by
    have hresult := (run_of_unlimited .program .comment feed none none).1
    rwa [hitems, hnone, hcount] at hresult
  have hwords (w w' : Word) (address address' : Address) :
      ∀ item ∈ [decode w address, decode w' address'], ∃ w address, item = decode w address := by
    rw [List.forall_mem_cons, List.forall_mem_singleton]
    exact ⟨⟨w, address, rfl⟩, ⟨w', address', rfl⟩⟩
  have hok := hlisted hstream rfl rfl
  have hok' := hlisted hzero rfl rfl
  have hok'' := hlisted hfour rfl rfl
  obtain ⟨-, hread, heq⟩ := output_eq_iff
  refine ⟨hok, hok', hok'', ?_, ?_, ?_⟩
  · obtain ⟨body, houtput, hsplit⟩ := hread _ _ _ _ _ (.stream ..) hok
    refine ⟨body, ?_, ?_⟩
    · rw [Utf8.bytes_append, Utf8.bytes_append]
      exact houtput
    · rw [hsplit, hstream]
      rfl
  · refine (heq _ _ _ _ _ _ _ _ _ (.stream ..) (hbatch 0) hok hok').mpr ?_
    rw [hstream, hzero]
    exact (map_line_eq_iff (hwords _ _ _ _) (hwords _ _ _ _)).mp rfl
  · intro hsame
    have halike : (decode 0x70000003 4).Alike (decode 0x70000003 8) :=
      ((heq _ _ _ _ _ _ _ _ _ (.stream ..) (hbatch 4) hok hok'').mp hsame).2 1 _ _
        (by rw [hstream]; rfl) (by rw [hfour]; rfl)
    exact absurd ((line_eq_iff ..).mpr halike) (by decide)

end Listing

end Mips32

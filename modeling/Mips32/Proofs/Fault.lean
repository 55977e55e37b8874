import Mips32.Listing
import Mips32.Proofs.Numeral

/-! # What a message tells

    Everything that is known about a word without an instruction stands in its
    message, and in the same order: the word, its address, the opcode and, if
    there is one, the second field.  They are numerals of different kinds without
    any mark of their length, but behind each of them there is punctuation, so
    the message can be taken apart again.  So can that of a word that is cut off.
    A stream that cannot be read is told in the words of whoever refused it, and
    those hide the class of the refusal and nothing else.

    The kind of a fault is told by its first letter.  Main statement:
    `Fault.message_eq_iff`. -/

namespace Mips32.Fault

open Numeral

variable {address address' : Address} {word word' : Word} {opcode opcode' : Nat}
  {function function' : Option Nat} {available available' : Nat}

/-- A text that starts with punctuation, and so ends a numeral in front of it. -/
def MarkAhead (text : String) : Prop := text.toList.head?.map Char.isAlphanum = some false

theorem MarkAhead.head {text : String} (h : MarkAhead text) (c : Char)
    (hc : text.toList.head? = some c) : c.isAlphanum = false := by
  rw [MarkAhead, hc] at h
  exact Option.some.inj h

theorem MarkAhead.append {text : String} (h : MarkAhead text) {rest : List Char} (c : Char)
    (hc : (text.toList ++ rest).head? = some c) : c.isAlphanum = false := by
  have hsome : text.toList.head?.isSome := by
    rw [← Option.isSome_map, show text.toList.head?.map Char.isAlphanum = some false from h]
    rfl
  rw [List.head?_append, Option.or_of_isSome hsome] at hc
  exact h.head c hc

/-- The message of a word without an instruction, from numeral to numeral. -/
theorem toList_message_unrecognized (address : Address) (word : Word) (opcode : Nat)
    (function : Option Nat) :
    (message (.unrecognized address word opcode function)).toList
      = "unrecognized instruction ".toList ++ ((hexPadded 8 word.toNat).toList
        ++ (" at ".toList ++ ((hexPadded 0 address.toNat).toList
        ++ (" (opcode ".toList ++ ((hexPadded 2 opcode).toList
        ++ ((functionText function).toList ++ ")".toList)))))) := by
  unfold message
  simp only [hex_eq_hexPadded, String.toList_append, List.append_assoc]

/-- What is behind the opcode starts with punctuation, which tells whether there
    is a second field. -/
theorem head?_functionText (function : Option Nat) :
    ((functionText function).toList ++ ")".toList).head?
      = some (if function.isSome then ',' else ')') := by
  cases function <;> simp [functionText]

theorem isAlphanum_head?_functionText (function : Option Nat) (c : Char)
    (h : ((functionText function).toList ++ ")".toList).head? = some c) :
    c.isAlphanum = false := by
  rw [head?_functionText] at h
  obtain rfl := Option.some.inj h
  cases function <;> rfl

theorem functionText_inj
    (h : (functionText function).toList ++ ")".toList
      = (functionText function').toList ++ ")".toList) : function = function' := by
  have hend : MarkAhead ")" := rfl
  have hhead := congrArg List.head? h
  rw [head?_functionText, head?_functionText] at hhead
  cases function with
  | none =>
      cases function' with
      | none => rfl
      | some f' => exact absurd (Option.some.inj hhead) (show ')' ≠ ',' by decide)
  | some f =>
      cases function' with
      | none => exact absurd (Option.some.inj hhead) (show ',' ≠ ')' by decide)
      | some f' =>
          rw [functionText, functionText, String.toList_append, String.toList_append,
            List.append_assoc, List.append_assoc, List.append_cancel_left_eq] at h
          rw [(hexPadded_append_inj hend.head hend.head h).1]

/-- **A MESSAGE TELLS EVERYTHING** about a word without an instruction, whether
    its parts fit together or not. -/
theorem message_unrecognized_inj
    (h : message (.unrecognized address word opcode function)
      = message (.unrecognized address' word' opcode' function')) :
    address = address' ∧ word = word' ∧ opcode = opcode' ∧ function = function' := by
  have hat : MarkAhead " at " := rfl
  have hopcode : MarkAhead " (opcode " := rfl
  have htext := String.toList_inj.mpr h
  rw [toList_message_unrecognized, toList_message_unrecognized,
    List.append_cancel_left_eq] at htext
  obtain ⟨hword, htext⟩ := hexPadded_append_inj hat.append hat.append htext
  rw [List.append_cancel_left_eq] at htext
  obtain ⟨haddress, htext⟩ := hexPadded_append_inj hopcode.append hopcode.append htext
  rw [List.append_cancel_left_eq] at htext
  obtain ⟨hop, htext⟩ := hexPadded_append_inj (isAlphanum_head?_functionText _)
    (isAlphanum_head?_functionText _) htext
  exact ⟨BitVec.eq_of_toNat_eq haddress, BitVec.eq_of_toNat_eq hword, hop, functionText_inj htext⟩

theorem toList_message_truncated (address : Address) (available : Nat) :
    (message (.truncated address available)).toList
      = "truncated instruction at ".toList ++ ((hexPadded 0 address.toNat).toList
        ++ (": expected 4 bytes, found ".toList ++ (decimal available).toList)) := by
  unfold message
  simp only [hex_eq_hexPadded, String.toList_append, List.append_assoc]

/-- **A CUT-OFF WORD IS TOLD WHOLLY**: where it starts, and how much of it there
    is. -/
theorem message_truncated_inj
    (h : message (.truncated address available) = message (.truncated address' available')) :
    address = address' ∧ available = available' := by
  have hcolon : MarkAhead ": expected 4 bytes, found " := rfl
  have htext := String.toList_inj.mpr h
  rw [toList_message_truncated, toList_message_truncated, List.append_cancel_left_eq] at htext
  obtain ⟨haddress, htext⟩ := hexPadded_append_inj hcolon.append hcolon.append htext
  rw [List.append_cancel_left_eq] at htext
  exact ⟨BitVec.eq_of_toNat_eq haddress, decimal_inj (String.toList_inj.mp htext)⟩

/-- The first letter of a message. -/
def initial : Fault → Char
  | .unrecognized .. => 'u'
  | .truncated .. => 't'
  | .unreadable _ => 'f'

theorem head?_message (e : Fault) : e.message.toList.head? = some e.initial := by
  cases e with
  | unrecognized address word opcode function =>
      rw [toList_message_unrecognized]
      rfl
  | truncated address available =>
      rw [toList_message_truncated]
      rfl
  | unreadable failure =>
      unfold message
      rw [String.toList_append]
      rfl

/-- Faults of different kinds never have the same message, whatever a refusal
    may say. -/
theorem initial_eq_of_message_eq {e e' : Fault} (h : e.message = e'.message) :
    e.initial = e'.initial := by
  have hhead := head?_message e
  rw [h, head?_message] at hhead
  exact (Option.some.inj hhead).symm

/-- The message of a word without an instruction is one line. -/
theorem newline_not_mem_message (address : Address) (word : Word) (opcode : Nat)
    (function : Option Nat) :
    '\n' ∉ (message (.unrecognized address word opcode function)).toList := by
  have hnumeral (count n : Nat) : '\n' ∉ (hexPadded count n).toList :=
    fun h => absurd (isAlphanum_of_mem_hexPadded h) (by decide)
  have hfunction : '\n' ∉ (functionText function).toList := by
    cases function with
    | none => exact List.not_mem_nil
    | some f =>
        rw [functionText, String.toList_append, List.mem_append]
        exact not_or.mpr ⟨by decide, hnumeral 2 f⟩
  simp only [toList_message_unrecognized, List.mem_append, hnumeral, hfunction, false_or]
  decide

/-- Faults with the same message are the same, or refusals in the same words. -/
theorem eq_or_unreadable_of_message_eq {e e' : Fault} (h : e.message = e'.message) :
    e = e' ∨ ∃ f f', e = .unreadable f ∧ e' = .unreadable f' ∧ f.text = f'.text := by
  have hinitial := initial_eq_of_message_eq h
  cases e with
  | unrecognized address word opcode function =>
      cases e' with
      | unrecognized address' word' opcode' function' =>
          obtain ⟨rfl, rfl, rfl, rfl⟩ := message_unrecognized_inj h
          exact .inl rfl
      | truncated _ _ => exact absurd hinitial (show 'u' ≠ 't' by decide)
      | unreadable _ => exact absurd hinitial (show 'u' ≠ 'f' by decide)
  | truncated address available =>
      cases e' with
      | unrecognized _ _ _ _ => exact absurd hinitial (show 't' ≠ 'u' by decide)
      | truncated address' available' =>
          obtain ⟨rfl, rfl⟩ := message_truncated_inj h
          exact .inl rfl
      | unreadable _ => exact absurd hinitial (show 't' ≠ 'f' by decide)
  | unreadable failure =>
      cases e' with
      | unrecognized _ _ _ _ => exact absurd hinitial (show 'f' ≠ 'u' by decide)
      | truncated _ _ => exact absurd hinitial (show 'f' ≠ 't' by decide)
      | unreadable failure' =>
          exact .inr ⟨failure, failure', rfl, rfl, (String.append_right_inj _).mp h⟩

/-- **MESSAGES ARE THE SAME EXACTLY IF THE FAULTS ARE**, but for the class of a
    refusal.  So the message of a word that is no instruction, or is cut off, is
    the message of no other fault, and the comment that is made of it is no other
    comment. -/
theorem message_eq_iff :
    (∀ e e' : Fault, e.message = e'.message ↔
      e = e' ∨ ∃ f f', e = .unreadable f ∧ e' = .unreadable f' ∧ f.text = f'.text) ∧
    (∀ e e' : Fault, (∀ f, e ≠ .unreadable f) →
      (e.message = e'.message ↔ e = e') ∧
        (Listing.comment e = Listing.comment e' ↔ e = e')) := by
  constructor
  · intro e e'
    refine ⟨eq_or_unreadable_of_message_eq, ?_⟩
    rintro (rfl | ⟨f, f', rfl, rfl, htext⟩)
    · rfl
    · exact (String.append_right_inj _).mpr htext
  · intro e e' hreadable
    have hsame : e.message = e'.message ↔ e = e' := by
      refine ⟨?_, congrArg message⟩
      intro h
      rcases eq_or_unreadable_of_message_eq h with heq | ⟨f, -, hf, -, -⟩
      · exact heq
      · exact absurd hf (hreadable f)
    refine ⟨hsame, ?_⟩
    rw [← hsame]
    exact String.append_right_inj _

/-- A refusal is told alike whatever its class is; a cut-off word and a word with
    an opcode that does not fit it are told apart from every other fault. -/
theorem message_eq_iff_truncated :
    (message (.unreadable ⟨.timedOut, "truncated"⟩) = message (.unreadable ⟨.other, "truncated"⟩)) ∧
    (∀ f, Fault.truncated 8 3 ≠ .unreadable f) ∧
    (∀ e : Fault, e.message = "truncated instruction at 0x8: expected 4 bytes, found 3" ↔
      e = .truncated 8 3) ∧
    (∀ e : Fault, Listing.comment e
        = "# unrecognized instruction 0x70000003 at 0x40 (opcode 0xff, function 0x03)" ↔
      e = .unrecognized 0x40 0x70000003 0xFF (some 3)) := by
  have hcut : ∀ f, Fault.truncated 8 3 ≠ .unreadable f := fun f h => nomatch h
  refine ⟨(message_eq_iff.1 _ _).mpr (.inr ⟨_, _, rfl, rfl, rfl⟩), hcut, ?_, ?_⟩
  · intro e
    rw [eq_comm, eq_comm (a := e)]
    exact (message_eq_iff.2 (.truncated 8 3) e hcut).1
  · intro e
    rw [eq_comm, eq_comm (a := e)]
    exact (message_eq_iff.2 (.unrecognized 0x40 0x70000003 0xFF (some 3)) e
      (fun f h => nomatch h)).2

end Mips32.Fault

import Mips32.Writer

/-! # Writing to a sink

    A listing reaches its sink piece by piece, and a piece may take several
    calls.  A sink with room left takes what fits of each call, and a call for
    which there is no room at all is refused.

    None of these cuts shows.  Main statements: `Sink.write_append`, writing one
    thing behind another is writing both at once, and `Sink.pour_eq_write`, any
    pieces and the calls they take come to a single write. -/

namespace Mips32.Sink

variable {s : Sink} {a b : List UInt8}

/-- Whether so many bytes more can be accepted. -/
def Fits (s : Sink) (n : Nat) : Prop := ∀ room, s.room = some room → n ≤ room

/-- The bytes of lines, one behind the other and a line feed behind each. -/
def linesBytes (lines : List String) : List UInt8 :=
  lines.flatMap fun line => Utf8.bytes line ++ [0x0A]

/-! ## One write -/

theorem Fits.mono {n m : Nat} (h : s.Fits n) (hle : m ≤ n) : s.Fits m :=
  fun room hroom => Nat.le_trans hle (h room hroom)

theorem fits_zero (s : Sink) : s.Fits 0 := fun _ _ => Nat.zero_le _

/-- What fits is accepted as it is, and uses up room. -/
theorem write_of_fits (h : s.Fits a.length) :
    s.write a = (none,
      { s with room := s.room.map (· - a.length), accepted := s.accepted ++ a }) := by
  cases hroom : s.room with
  | none => simp [write, hroom]
  | some n =>
      have hle : a.length ≤ n := h n hroom
      simp [write, hroom, hle, List.take_of_length_le hle]

/-- What does not fit leaves a full sink behind. -/
theorem write_of_not_fits (h : ¬ s.Fits a.length) :
    ∃ n, s.room = some n ∧ n < a.length ∧
      s.write a = (some s.overflow,
        { s with room := some 0, accepted := s.accepted ++ a.take n }) := by
  cases hroom : s.room with
  | none => exact absurd (fun room hsome => nomatch hroom.symm.trans hsome) h
  | some n =>
      have hlt : n < a.length := by
        refine Nat.lt_of_not_le fun hle => h ?_
        intro room hsome
        rw [hroom] at hsome
        cases hsome
        exact hle
      refine ⟨n, rfl, hlt, ?_⟩
      have hover : ¬ a.length ≤ n := by omega
      have hfull : n - a.length = 0 := by omega
      simp [write, hroom, hover, hfull]

theorem fst_write_eq_none_iff : (s.write a).1 = none ↔ s.Fits a.length := by
  constructor
  · intro h
    by_cases hfits : s.Fits a.length
    · exact hfits
    · obtain ⟨n, -, -, hwrite⟩ := write_of_not_fits hfits
      rw [hwrite] at h
      cases h
  · intro h
    rw [write_of_fits h]

theorem accept_append (accepted : Array UInt8) (a b : List UInt8) :
    accepted ++ (a ++ b) = accepted ++ a ++ b :=
  Array.ext' (by simp)

/-- **ONE BEHIND THE OTHER IS BOTH AT ONCE**: the second is not tried if the
    first did not fit, and what is accepted is the same. -/
theorem write_append (s : Sink) (a b : List UInt8) :
    s.write (a ++ b) = match s.write a with
      | (some failure, s) => (some failure, s)
      | (none, s) => s.write b := by
  by_cases ha : s.Fits a.length
  · rw [write_of_fits ha]
    cases hroom : s.room with
    | none => simp [write, hroom, accept_append]
    | some n =>
        have hle : a.length ≤ n := ha n hroom
        have hiff : a.length + b.length ≤ n ↔ b.length ≤ n - a.length := by omega
        simp [write, hroom, overflow, overflowSaying, hiff, List.take_append,
          List.take_of_length_le hle, Nat.sub_sub, accept_append]
  · -- the sink is full within `a`, so of `b` nothing is accepted
    obtain ⟨n, hroom, hlt, hwrite⟩ := write_of_not_fits ha
    have hover : ¬ a.length + b.length ≤ n := by omega
    have hfull : n - (a.length + b.length) = 0 := by omega
    rw [hwrite]
    simp [write, hroom, hover, hfull, List.take_append_of_le_length (Nat.le_of_lt hlt)]

theorem write_nil (s : Sink) : s.write [] = (none, s) := by
  rw [write_of_fits (s.fits_zero)]
  cases hroom : s.room <;> simp [← hroom]

theorem write_of_full (hroom : s.room = some 0) (h : a ≠ []) :
    s.write a = (some s.overflow, s) := by
  obtain ⟨room, refusal, flushRefusal, accepted, flushed⟩ := s
  cases hroom
  simp [write, h]

/-- A line is its text and a line feed. -/
theorem lineBytes_eq (line : String) : lineBytes line = Utf8.bytes line ++ [0x0A] := by
  rw [lineBytes, Utf8.bytes_append]
  rfl

theorem linesBytes_cons (line : String) (lines : List String) :
    linesBytes (line :: lines) = lineBytes line ++ linesBytes lines := by
  rw [linesBytes, List.flatMap_cons, lineBytes_eq]
  rfl

theorem linesBytes_append (lines lines' : List String) :
    linesBytes (lines ++ lines') = linesBytes lines ++ linesBytes lines' := List.flatMap_append

/-- To a sink, a line is written as bytes are. -/
theorem writeLine_eq_write (s : Sink) (line : String) :
    Writer.writeLine s line = s.write (lineBytes line) := rfl

theorem writeLines_eq_write (s : Sink) (lines : List String) :
    Writer.writeLines s lines = s.write (linesBytes lines) := by
  induction lines generalizing s with
  | nil => exact (write_nil s).symm
  | cons line lines ih =>
      rw [linesBytes_cons, write_append, Writer.writeLines, writeLine_eq_write]
      rcases s.write (lineBytes line) with ⟨failure | failure, s'⟩
      · exact ih s'
      · rfl

/-! ## Calls and pieces -/

/-- One call: how much of the bytes is accepted, or how the call is refused. -/
def call (s : Sink) (bytes : List UInt8) : Except Failure Nat × Sink :=
  match s.room, s.refusal with
  | none, _ => (.ok bytes.length, { s with accepted := s.accepted ++ bytes })
  | some 0, some refusal => (.error refusal.toFailure, s)
  | some n, _ =>
    (.ok (min n bytes.length),
      { s with room := some (n - bytes.length), accepted := s.accepted ++ bytes.take n })

/-- Calls until all the bytes are accepted.  A call that accepts none of them is
    a failure. -/
def callAll (s : Sink) (bytes : List UInt8) : Option Failure × Sink :=
  if bytes = [] then (none, s)
  else
    match s.call bytes with
    | (.error failure, s) => (some failure, s)
    | (.ok 0, s) => (some ⟨.writeZero, "failed to write whole buffer"⟩, s)
    | (.ok (n + 1), s) => s.callAll (bytes.drop (n + 1))
termination_by bytes.length
decreasing_by
  rw [List.length_drop]
  have := List.length_pos_iff.mpr ‹bytes ≠ []›
  omega

/-- Pieces, up to the first that fails. -/
def pour (s : Sink) : List (List UInt8) → Option Failure × Sink
  | [] => (none, s)
  | piece :: pieces =>
    match s.callAll piece with
    | (some failure, s) => (some failure, s)
    | (none, s) => s.pour pieces

theorem callAll_of_full (hroom : s.room = some 0) (h : a ≠ []) :
    s.callAll a = (some s.overflow, s) := by
  obtain ⟨room, refusal, flushRefusal, accepted, flushed⟩ := s
  cases hroom
  cases refusal with
  | none => simp [callAll, h, call, overflow, overflowSaying]
  | some refusal => simp [callAll, h, call, overflow, overflowSaying]

/-- The first call takes what fits, and a second one is made only behind a sink
    that is full. -/
theorem callAll_eq_write (s : Sink) (bytes : List UInt8) : s.callAll bytes = s.write bytes := by
  by_cases hnil : bytes = []
  · rw [hnil, write_nil, callAll, if_pos rfl]
  obtain ⟨k, hk⟩ : ∃ k, bytes.length = k + 1 :=
    ⟨bytes.length - 1, by have := List.length_pos_iff.mpr hnil; omega⟩
  cases hroom : s.room with
  | none =>
      rw [callAll, if_neg hnil]
      simp only [call, hroom, hk]
      rw [← hk, List.drop_length, callAll, if_pos rfl]
      simp [write, hroom]
  | some n =>
      cases n with
      | zero =>
          rw [callAll_of_full hroom hnil, write_of_full hroom hnil]
      | succ n =>
          have hcall : s.call bytes = (.ok (min n k + 1),
              { s with
                room := some (n + 1 - bytes.length)
                accepted := s.accepted ++ bytes.take (n + 1) }) := by
            simp [call, hroom, hk, Nat.succ_min_succ]
          rw [callAll, if_neg hnil, hcall]
          by_cases hle : bytes.length ≤ n + 1
          · have hall : bytes.drop (min n k + 1) = [] := by
              apply List.drop_of_length_le
              omega
            simp only [hall]
            rw [callAll, if_pos rfl]
            simp [write, hroom, hle]
          · have hrest : bytes.drop (min n k + 1) ≠ [] := by
              rw [Ne, List.drop_eq_nil_iff]
              omega
            have hfull : n + 1 - bytes.length = 0 := by omega
            simp only [hfull]
            rw [callAll_of_full rfl hrest]
            simp [write, hroom, hle, hfull, overflow, overflowSaying]

/-- **PIECES AND CALLS DO NOT SHOW**: all that counts is the bytes in a row. -/
theorem pour_eq_write (s : Sink) (pieces : List (List UInt8)) :
    s.pour pieces = s.write pieces.flatten := by
  induction pieces generalizing s with
  | nil => exact (write_nil s).symm
  | cons piece pieces ih =>
      rw [pour, List.flatten_cons, write_append, callAll_eq_write]
      rcases s.write piece with ⟨failure | failure, s'⟩
      · exact ih s'
      · rfl

end Mips32.Sink

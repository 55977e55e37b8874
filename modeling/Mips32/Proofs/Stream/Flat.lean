import Mips32.Source

/-! # The flat view — what a list of events comes to

    A source hands its bytes out in pieces, with interruptions between them,
    and a word is collected from as many calls as it takes.  None of that is
    left in the FLAT view: the bytes before the first event that ends the
    input, and the failure that ended it, if it was one.

    Main statements: `Source.fst_draw` and `Source.flat_snd_draw`.  A word is
    drawn from the flat bytes, whatever events they came in, and drawing it
    takes exactly its four bytes out of the flat view. -/

namespace Mips32

namespace Event

/-- Whether the input ends here: at a call that is answered with no bytes, or
    at a failure other than an interruption. -/
def ends : Event → Bool
  | .data bytes => bytes.isEmpty
  | .fail failure => failure.kind ≠ .interrupted
  | .stop => true

/-- The bytes that an event holds. -/
def held : Event → List UInt8
  | .data bytes => bytes
  | .fail _ => []
  | .stop => []

/-- The failure that an event is, if it is one. -/
def failure? : Event → Option Failure
  | .data _ => none
  | .fail failure => some failure
  | .stop => none

end Event

/-- A byte stream without the calls that read it. -/
structure Flat where
  /-- All its bytes. -/
  bytes : List UInt8
  /-- How reading failed behind them, unless the input just ended. -/
  failure : Option Failure
deriving DecidableEq, Repr

namespace Flat

/-- What is left of events when the calls are forgotten. -/
def ofEvents (events : List Event) : Flat where
  bytes := (events.takeWhile fun e => !e.ends).flatMap Event.held
  failure := (events.find? Event.ends).bind Event.failure?

/-- The stream with some bytes in front of it. -/
def behind (held : List UInt8) (f : Flat) : Flat := { f with bytes := held ++ f.bytes }

/-- The stream without its first word. -/
def rest (f : Flat) : Flat := { f with bytes := f.bytes.drop 4 }

/-- What looking for a word in the stream comes to. -/
def draw (f : Flat) : Draw :=
  if 4 ≤ f.bytes.length then .word (LittleEndian.word (f.bytes.take 4))
  else
    match f.failure with
    | some failure => .failed failure
    | none => Source.atEnd f.bytes

theorem behind_behind (as bs : List UInt8) (f : Flat) :
    (f.behind bs).behind as = f.behind (as ++ bs) := by
  simp [behind]

/-! ## Events in front -/

theorem ofEvents_nil : ofEvents [] = ⟨[], none⟩ := rfl

/-- Nothing counts behind an event that ends the input. -/
theorem ofEvents_of_ends {e : Event} (h : e.ends = true) (events : List Event) :
    ofEvents (e :: events) = ⟨[], e.failure?⟩ := by
  simp [ofEvents, h]

/-- Any other event only puts its bytes in front. -/
theorem ofEvents_of_not_ends {e : Event} (h : e.ends = false) (events : List Event) :
    ofEvents (e :: events) = (ofEvents events).behind e.held := by
  simp [ofEvents, behind, h]

/-- Events that come to the same do so behind any others. -/
theorem ofEvents_append_congr (before : List Event) {events events' : List Event}
    (h : ofEvents events = ofEvents events') :
    ofEvents (before ++ events) = ofEvents (before ++ events') := by
  induction before with
  | nil => exact h
  | cons e before ih =>
      rw [List.cons_append, List.cons_append]
      cases he : e.ends with
      | true => rw [ofEvents_of_ends he, ofEvents_of_ends he]
      | false => rw [ofEvents_of_not_ends he, ofEvents_of_not_ends he, ih]

/-- Events that do not end the input put all their bytes in front, wherever
    these are cut or interrupted. -/
theorem ofEvents_append {events : List Event} (h : ∀ e ∈ events, e.ends = false)
    (after : List Event) :
    ofEvents (events ++ after) = (ofEvents after).behind (events.flatMap Event.held) := by
  induction events with
  | nil => rfl
  | cons e events ih =>
      rw [List.cons_append, ofEvents_of_not_ends (h e (by simp)),
        ih (fun e' he' => h e' (by simp [he'])), behind_behind]
      rfl

theorem ofEvents_leave (bytes : List UInt8) (events : List Event) :
    ofEvents (Source.leave bytes events) = (ofEvents events).behind bytes := by
  unfold Source.leave
  cases bytes with
  | nil => rfl
  | cons b bs => exact ofEvents_of_not_ends rfl events

/-- A single event holds all the bytes, even if there are none. -/
theorem ofEvents_data (bytes : List UInt8) : ofEvents [.data bytes] = ⟨bytes, none⟩ := by
  cases bytes with
  | nil => rfl
  | cons b bs =>
      rw [ofEvents_of_not_ends rfl]
      simp [ofEvents_nil, behind, Event.held]

/-! ## Drawing from a flat stream -/

theorem draw_of_le {f : Flat} (h : 4 ≤ f.bytes.length) :
    f.draw = .word (LittleEndian.word (f.bytes.take 4)) := if_pos h

theorem draw_of_lt {f : Flat} (h : f.bytes.length < 4) :
    f.draw = match f.failure with
      | some failure => .failed failure
      | none => Source.atEnd f.bytes := if_neg (by omega)

/-! ## Collecting a word -/

theorem short_behind_nil {held : List UInt8} (h : held.length < 4) (failure : Option Failure) :
    ((⟨[], failure⟩ : Flat).behind held).bytes.length < 4 := by
  show (held ++ []).length < 4
  rw [List.append_nil]
  exact h

theorem draw_behind_nil {held : List UInt8} (h : held.length < 4) (failure : Option Failure) :
    ((⟨[], failure⟩ : Flat).behind held).draw
      = match failure with
        | some failure => .failed failure
        | none => Source.atEnd held := by
  rw [draw_of_lt (short_behind_nil h failure)]
  show (match failure with
    | some failure => Draw.failed failure
    | none => Source.atEnd (held ++ [])) = _
  rw [List.append_nil]

/-- Whether what was collected, and where, is what drawing from a flat stream
    comes to: the same draw, and behind a word the rest of the stream. -/
def Collected (f : Flat) (r : Draw × Source) : Prop :=
  r.1 = f.draw ∧ (4 ≤ f.bytes.length → ofEvents r.2.pending = f.rest)

/-- Where the input is over, the held bytes are all there is. -/
theorem collected_of_over {held : List UInt8} (h : held.length < 4) (failure : Option Failure)
    (s : Source) :
    Collected ((⟨[], failure⟩ : Flat).behind held)
      (match failure with
        | some failure => .failed failure
        | none => Source.atEnd held, s) := by
  have hshort := short_behind_nil h failure
  refine ⟨(draw_behind_nil h failure).symm, ?_⟩
  intro hle
  omega

/-- A piece that completes the word is cut where the word ends. -/
theorem behind_of_full {held bytes : List UInt8} (hheld : held.length < 4)
    (hfull : 4 ≤ (held ++ bytes.take (4 - held.length)).length) (f : Flat) :
    (f.behind (held ++ bytes)).bytes.take 4 = held ++ bytes.take (4 - held.length) ∧
      (f.behind (held ++ bytes)).rest = f.behind (bytes.drop (4 - held.length)) := by
  have hlen : 4 - held.length ≤ bytes.length := by
    rw [List.length_append, List.length_take] at hfull
    omega
  have htake : held.take 4 = held := List.take_of_length_le (by omega)
  have hdrop : held.drop 4 = [] := List.drop_of_length_le (by omega)
  constructor
  · show ((held ++ bytes) ++ f.bytes).take 4 = _
    rw [List.append_assoc, List.take_append, htake, List.take_append_of_le_length hlen]
  · show (⟨((held ++ bytes) ++ f.bytes).drop 4, f.failure⟩ : Flat) = _
    rw [List.append_assoc, List.drop_append, hdrop, List.drop_append_of_le_length hlen]
    rfl

/-- A word that a piece completes is the first of the flat stream, and what the
    piece has left over is in front of the next one. -/
theorem collected_of_full {held bytes : List UInt8} (hheld : held.length < 4)
    (hfull : 4 ≤ (held ++ bytes.take (4 - held.length)).length) (events : List Event)
    (calls delivered : Nat) :
    Collected ((ofEvents events).behind (held ++ bytes))
      (.word (LittleEndian.word (held ++ bytes.take (4 - held.length))),
        ⟨Source.leave (bytes.drop (4 - held.length)) events, calls, delivered⟩) := by
  obtain ⟨htake, hrest⟩ := behind_of_full hheld hfull (ofEvents events)
  have hle : 4 ≤ ((ofEvents events).behind (held ++ bytes)).bytes.length := by
    have hlen := congrArg List.length htake
    rw [List.length_take] at hlen
    omega
  constructor
  · rw [draw_of_le hle, htake]
  · intro _
    rw [hrest]
    exact ofEvents_leave _ events

end Flat

namespace Source

open Flat

/-- **COLLECTING IS FLAT**: what is collected behind `held` bytes is what the
    flat stream behind them gives, and a word takes its four bytes away. -/
theorem collect_flat {calls delivered : Nat} {held : List UInt8} {events : List Event}
    (hheld : held.length < 4) :
    Collected ((ofEvents events).behind held) (collect calls delivered held events) := by
  induction events generalizing calls delivered held with
  | nil => exact collected_of_over hheld none _
  | cons event events ih =>
      cases event with
      | stop =>
          rw [ofEvents_of_ends rfl]
          exact collected_of_over hheld none _
      | fail failure =>
          by_cases hk : failure.kind = .interrupted
          · -- the call is made again, at the same fill level
            rw [ofEvents_of_not_ends (by simp [Event.ends, hk]), collect, if_pos hk]
            exact ih hheld
          · rw [ofEvents_of_ends (by simp [Event.ends, hk]), collect, if_neg hk]
            exact collected_of_over hheld (some failure) _
      | data bytes =>
          by_cases hb : bytes = []
          · subst hb
            rw [ofEvents_of_ends rfl]
            simp only [collect, List.take_nil, List.isEmpty_nil, if_true]
            exact collected_of_over hheld none _
          · have hends : (Event.data bytes).ends = false := by simp [Event.ends, hb]
            have htaken : (bytes.take (4 - held.length)).isEmpty = false := by
              rw [List.isEmpty_eq_false_iff, Ne, List.take_eq_nil_iff]
              rintro (hroom | hnil)
              · omega
              · exact hb hnil
            rw [ofEvents_of_not_ends hends, behind_behind]
            simp only [collect, htaken, Bool.false_eq_true, if_false, Event.held]
            by_cases hshort : (held ++ bytes.take (4 - held.length)).length < 4
            · -- the whole piece is taken, and the word still has bytes missing
              have hall : bytes.take (4 - held.length) = bytes := by
                rw [List.length_append, List.length_take] at hshort
                exact List.take_of_length_le (by omega)
              rw [hall] at hshort ⊢
              rw [if_pos hshort]
              exact ih hshort
            · rw [if_neg hshort]
              exact collected_of_full hheld (Nat.le_of_not_lt hshort) events _ _

/-- **A WORD IS DRAWN FROM THE FLAT BYTES**, however they come. -/
theorem fst_draw (s : Source) : s.draw.1 = (ofEvents s.pending).draw :=
  (collect_flat (by simp)).1

theorem flat_snd_draw {s : Source} (h : 4 ≤ (ofEvents s.pending).bytes.length) :
    ofEvents s.draw.2.pending = (ofEvents s.pending).rest :=
  (collect_flat (by simp)).2 h

end Source

end Mips32

import Mips32.Proofs.Listing.Output

/-! # Listings in two writers

    A listing looks at its writer only to learn whether a call failed.  So if two
    writers are related in a way that every call keeps, and fail alike, the
    listings in them come out alike and leave them related.  Where the items come
    from does not matter either, as long as they are the same.

    The loop keeps the relation item by item.  Main statement:
    `Listing.write_simulates`. -/

namespace Mips32

namespace Writer

variable {V W : Type} {R : V → W → Prop} {v : V} {w : W}

/-- Two calls that fail alike, if they do, and leave their writers related. -/
def Alike (R : V → W → Prop) (a : Option Failure × V) (b : Option Failure × W) : Prop :=
  a.1 = b.1 ∧ R a.2 b.2

theorem Alike.exists_eq {a : Option Failure × V} {b : Option Failure × W} (h : Alike R a b) :
    ∃ failure v w, a = (failure, v) ∧ b = (failure, w) ∧ R v w :=
  ⟨a.1, a.2, b.2, rfl, Prod.ext h.1.symm rfl, h.2⟩

/-- What is done next is alike, if what was done before is. -/
theorem Alike.andThen {a : Option Failure × V} {b : Option Failure × W}
    {next : V → Option Failure × V} {next' : W → Option Failure × W} (h : Alike R a b)
    (hnext : ∀ v w, R v w → Alike R (next v) (next' w)) :
    Alike R (Writer.andThen a next) (Writer.andThen b next') := by
  obtain ⟨failure, v, w, rfl, rfl, hR⟩ := h.exists_eq
  cases failure with
  | none => exact hnext v w hR
  | some failure => exact ⟨rfl, hR⟩

variable [Writer V] [Writer W]

/-- A relation of writers that no call can tell apart. -/
structure Simulates (R : V → W → Prop) : Prop where
  write : ∀ v w, R v w → ∀ bytes, Alike R (Writer.write v bytes) (Writer.write w bytes)
  flush : ∀ v w, R v w → Alike R (Writer.flush v) (Writer.flush w)

theorem Simulates.writeLine (hR : Simulates R) (h : R v w) (line : String) :
    Alike R (Writer.writeLine v line) (Writer.writeLine w line) :=
  hR.write v w h (Sink.lineBytes line)

theorem Simulates.writeLines (hR : Simulates R) (h : R v w) (lines : List String) :
    Alike R (Writer.writeLines v lines) (Writer.writeLines w lines) := by
  induction lines generalizing v w with
  | nil => exact ⟨rfl, h⟩
  | cons line lines ih => exact (hR.writeLine h line).andThen fun _ _ h => ih h

/-- Every writer is related to itself. -/
theorem simulates_eq : Simulates (Eq : W → W → Prop) where
  write := by
    rintro w _ rfl bytes
    exact ⟨rfl, rfl⟩
  flush := by
    rintro w _ rfl
    exact ⟨rfl, rfl⟩

end Writer

namespace Listing

variable {V W : Type} [Writer V] [Writer W] {R : V → W → Prop} {v : V} {w : W}
  {feed feed' : Feed}

/-- Two runs with the same result, and their writers related. -/
structure Run.Alike (R : V → W → Prop) (a : Run V) (b : Run W) : Prop where
  result : a.result = b.result
  sink : R a.sink b.sink

/-- **THE LOOP KEEPS THE RELATION**, whatever was noted before. -/
theorem writeItems_simulates (hR : Writer.Simulates R) (h : R v w)
    (hfeed : feed.items = feed'.items) (policy : Policy) (log log' : Array Log.Record)
    (summary : Summary) :
    (writeItems policy feed v log summary).Alike R (writeItems policy feed' w log' summary) := by
  -- on the items still to come: feeds and writers are others in each round
  generalize hitems : feed'.items = items at hfeed
  induction items generalizing feed feed' v w log log' summary with
  | nil =>
      rw [writeItems_of_none (Feed.next_of_items_nil hfeed),
        writeItems_of_none (Feed.next_of_items_nil hitems)]
      exact ⟨rfl, h⟩
  | cons item items ih =>
      obtain ⟨hitem, hrest⟩ := Feed.next_of_items_cons hfeed
      obtain ⟨hitem', hrest'⟩ := Feed.next_of_items_cons hitems
      rw [writeItems_of_some hitem, writeItems_of_some hitem']
      cases stopping policy item with
      | some fault => exact ⟨rfl, h⟩
      | none =>
          obtain ⟨failure, v', w', hv, hw, h'⟩ := (hR.writeLine h (line item)).exists_eq
          rw [hv, hw]
          cases failure with
          | none => exact ih h' _ _ _ hrest' hrest
          | some failure => exact ⟨rfl, h'⟩

theorem Run.Alike.close (hR : Writer.Simulates R) {a : Run V} {b : Run W} (h : a.Alike R b)
    (framing : Framing) : (close framing a).Alike R (close framing b) := by
  obtain ⟨result, v, feed, log⟩ := a
  obtain ⟨result', w, feed', log'⟩ := b
  obtain ⟨rfl, hsink⟩ : result = result' ∧ R v w := ⟨h.result, h.sink⟩
  cases result with
  | error e => exact ⟨rfl, hsink⟩
  | ok summary =>
      obtain ⟨failure, v', w', hv, hw, h'⟩ := (hR.writeLines hsink framing.epilogue).exists_eq
      simp only [Listing.close, hv, hw]
      cases failure with
      | some failure => exact ⟨rfl, h'⟩
      | none =>
          obtain ⟨failure, v'', w'', hv', hw', h''⟩ := (hR.flush v' w' h').exists_eq
          simp only [hv', hw']
          cases failure with
          | some failure => exact ⟨rfl, h''⟩
          | none => exact ⟨rfl, h''⟩

/-- **RELATED WRITERS, THE SAME LISTING**: with the same items, listings in
    related writers come to the same result and leave them related. -/
theorem write_simulates (hR : Writer.Simulates R) (h : R v w) (hfeed : feed.items = feed'.items)
    (framing : Framing) (policy : Policy) :
    (write framing policy feed v).Alike R (write framing policy feed' w) := by
  obtain ⟨failure, v', w', hv, hw, h'⟩ := (hR.writeLines h framing.prologue).exists_eq
  rw [write, write, hv, hw]
  cases failure with
  | none => exact (writeItems_simulates hR h' hfeed policy #[] #[] {}).close hR framing
  | some failure => exact ⟨rfl, h'⟩

end Listing

end Mips32

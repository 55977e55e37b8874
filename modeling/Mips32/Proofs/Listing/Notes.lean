import Mips32.Proofs.Listing.Simulation

/-! # What a listing notes

    While a listing is written, two parts take notes: the decoder on each pull,
    and the listing before each comment.  The notes of the decoder are DETAILS,
    and a choice of records that keeps no detail does not show whether there was
    a decoder at work at all.

    What is left are the warnings, and these come from the items and from what
    the writer takes.  Main statement: `Listing.write_congr`, two feeds with the
    same items give the same listing and the same warnings. -/

namespace Mips32

namespace Log

/-- Whether a record only tells how the work goes on. -/
def Record.IsDetail (r : Record) : Prop := r.level = .debug ∨ r.level = .trace

/-- A choice of records that keeps no detail. -/
def Coarse (keep : Record → Bool) : Prop := ∀ r : Record, r.IsDetail → keep r = false

theorem Coarse.filter_eq_nil {keep : Record → Bool} (h : Coarse keep) {records : List Record}
    (hdetail : ∀ r ∈ records, r.IsDetail) : records.filter keep = [] := by
  rw [List.filter_eq_nil_iff]
  intro r hr
  rw [h r (hdetail r hr)]
  exact Bool.false_ne_true

theorem coarse_warn : Coarse fun r => decide (r.level = .warn) := by
  rintro r (hdebug | htrace)
  · simp [hdebug]
  · simp [htrace]

/-- The filters that keep no detail. -/
def coarseFilters : List Filter := [none, some .error, some .warn, some .info]

theorem coarse_admits {f : Filter} (h : f ∈ coarseFilters) : Coarse f.admits := by
  have hall : ∀ g ∈ coarseFilters, ∀ l ∈ [Level.debug, .trace],
      g.admits ⟨l, .decoder, ""⟩ = false := by
    decide
  -- only the level of a record counts
  have hlevel (r : Record) (l : Level) (hr : r.level = l) :
      f.admits r = f.admits ⟨l, .decoder, ""⟩ := by
    subst hr
    rfl
  rintro r (hdebug | htrace)
  · rw [hlevel r .debug hdebug]
    exact hall f h .debug (by decide)
  · rw [hlevel r .trace htrace]
    exact hall f h .trace (by decide)

end Log

theorem Cursor.isDetail_of_mem_next {c : Cursor} {r : Log.Record} (h : r ∈ c.next.records) :
    r.IsDetail := by
  unfold next at h
  split at h
  · cases h
  · split at h
    · rename_i w s hdraw
      obtain rfl := List.mem_singleton.mp h
      -- the level of a trace does not depend on the item
      cases decode w c.address <;> exact .inr rfl
    · obtain rfl := List.mem_singleton.mp h
      exact .inl rfl
    · cases h
    · cases h

theorem Feed.isDetail_of_mem_next {f : Feed} {r : Log.Record} (h : r ∈ f.next.records) :
    r.IsDetail := by
  match f with
  | .batch [] => cases h
  | .batch (_ :: _) => cases h
  | .stream _ => exact Cursor.isDetail_of_mem_next h

namespace Listing

variable {W : Type} [Writer W] {policy : Policy} {feed feed' : Feed} {keep : Log.Record → Bool}

/-- The warnings of a listing of some items: each before its line is written, and
    none behind the item or the line that ends the listing. -/
def noted (policy : Policy) (sink : W) : List Item → List Log.Record
  | [] => []
  | item :: items =>
    match stopping policy item with
    | some _ => []
    | none =>
      match Writer.writeLine sink (line item) with
      | (some _, _) => warnings item
      | (none, sink) => warnings item ++ noted policy sink items

theorem filter_log_pull (hkeep : Log.Coarse keep) (feed : Feed) (log : Array Log.Record) :
    (log ++ feed.next.records).toList.filter keep = log.toList.filter keep := by
  have hdetail : feed.next.records.filter keep = [] :=
    hkeep.filter_eq_nil fun r hr => Feed.isDetail_of_mem_next hr
  simp [hdetail]

/-- **ONLY WARNINGS ARE SEEN**: of all that the loop notes, a choice without
    details keeps what the items and the sink tell. -/
theorem filter_log_writeItems (hkeep : Log.Coarse keep) (policy : Policy) (feed : Feed)
    (sink : W) (log : Array Log.Record) (summary : Summary) :
    (writeItems policy feed sink log summary).log.toList.filter keep
      = log.toList.filter keep ++ (noted policy sink feed.items).filter keep := by
  generalize hitems : feed.items = items
  induction items generalizing feed sink log summary with
  | nil =>
      rw [writeItems_of_none (Feed.next_of_items_nil hitems), filter_log_pull hkeep]
      exact (List.append_nil _).symm
  | cons item items ih =>
      obtain ⟨hitem, hrest⟩ := Feed.next_of_items_cons hitems
      have hbefore : (log ++ feed.next.records ++ warnings item).toList.filter keep
          = log.toList.filter keep ++ (warnings item).filter keep := by
        rw [Array.toList_appendList, List.filter_append, filter_log_pull hkeep]
      rw [writeItems_of_some hitem, noted]
      cases stopping policy item with
      | some fault =>
          show (log ++ feed.next.records).toList.filter keep = _
          rw [filter_log_pull hkeep]
          exact (List.append_nil _).symm
      | none =>
          rcases Writer.writeLine sink (line item) with ⟨failure | failure, last⟩
          · show (writeItems policy feed.next.feed last _ _).log.toList.filter keep = _
            rw [ih _ _ _ _ hrest, hbefore, List.append_assoc, ← List.filter_append]
          · exact hbefore

theorem log_close (framing : Framing) (run : Run W) : (close framing run).log = run.log := by
  unfold close
  split
  · rfl
  · split
    · rfl
    · split <;> rfl

theorem filter_log_write (hkeep : Log.Coarse keep) (framing : Framing) (policy : Policy)
    (feed : Feed) (sink : W) :
    (write framing policy feed sink).log.toList.filter keep
      = match Writer.writeLines sink framing.prologue with
        | (some _, _) => []
        | (none, sink) => (noted policy sink feed.items).filter keep := by
  unfold write
  rcases Writer.writeLines sink framing.prologue with ⟨failure | failure, sink'⟩
  · show (close framing (writeItems policy feed sink' #[] {})).log.toList.filter keep = _
    rw [log_close, filter_log_writeItems hkeep]
    rfl
  · rfl

/-- **WHERE ITEMS COME FROM DOES NOT SHOW**: two feeds with the same items leave
    the writer the same, come to the same result, and leave the same warnings. -/
theorem write_congr (h : feed.items = feed'.items) (framing : Framing) (policy : Policy)
    (sink : W) :
    (write framing policy feed sink).result = (write framing policy feed' sink).result ∧
      (write framing policy feed sink).sink = (write framing policy feed' sink).sink ∧
      ∀ keep, Log.Coarse keep →
        (write framing policy feed sink).log.toList.filter keep
          = (write framing policy feed' sink).log.toList.filter keep := by
  obtain ⟨hresult, hsink⟩ := write_simulates Writer.simulates_eq (w := sink) rfl h framing policy
  refine ⟨hresult, hsink, ?_⟩
  intro keep hkeep
  rw [filter_log_write hkeep, filter_log_write hkeep, h]

end Listing

end Mips32

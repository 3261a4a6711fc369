import Kaleidoscope.Library.Interleaving
import Kaleidoscope.Sieve.AnySampler

/-!
# The periodic summary

The three counters are atomic, but neither a record nor a snapshot is: requests count their traces
while the timer swaps one counter after the other. What is told in all windows together is exact.
Of the traces that were kept by rate a window may tell too many.
-/

namespace Kaleidoscope.Sieve

open Interleaving Run

/-- The fields of `Counters`. -/
structure AtomicCounters where
  keptTotal : UInt64
  keptErrorBearing : UInt64
  dropped : UInt64
  deriving DecidableEq, Repr

/-- The fields of the summary. -/
structure Summary (R : Type) where
  kept : UInt64
  keptErrorBearing : UInt64
  keptSampled : UInt64
  dropped : UInt64
  rate : R
  deriving DecidableEq, Repr

/-- `emit_summary`. -/
def emitSummary {R : Type} (keptTotal keptErrorBearing dropped : UInt64) (rate : R) :
    Summary R where
  kept := keptTotal
  keptErrorBearing := keptErrorBearing
  keptSampled := .ofNat (keptTotal.toNat - keptErrorBearing.toNat)
  dropped := dropped
  rate := rate

/-- The calls on the counters; `snapshot_and_reset` is followed by `emit_summary`. -/
inductive CounterCall where
  | recordKeptErrorBearing
  | recordKeptSampled
  | recordDropped
  | snapshotAndReset
  deriving DecidableEq, Repr

/-- The next atomic step of a call. -/
inductive CounterPoint where
  | addKeptTotal (errorBearing : Bool)
  | addKeptErrorBearing
  | addDropped
  | swapKeptTotal
  | swapKeptErrorBearing (kept : UInt64)
  | swapDropped (kept keptErrorBearing : UInt64)
  deriving DecidableEq, Repr

/-- Where a call begins. -/
def CounterCall.entry : CounterCall → CounterPoint
  | recordKeptErrorBearing => .addKeptTotal true
  | recordKeptSampled => .addKeptTotal false
  | recordDropped => .addDropped
  | snapshotAndReset => .swapKeptTotal

/-- The counters, with the summaries so far. -/
structure Summarised (R : Type) where
  counters : AtomicCounters
  summaries : List (Summary R)

/-- A quantity that a counter counts, the summaries tell and a call under way holds. -/
structure Quantity (R : Type) where
  counter : AtomicCounters → UInt64
  told : Summary R → UInt64
  held : CounterPoint → Nat

section

variable {R : Type} (rate : R)

/-- One atomic step. -/
def countStep (point : CounterPoint) (s : Summarised R) :
    Option CounterPoint × Summarised R :=
  match point with
  | .addKeptTotal errorBearing =>
    (if errorBearing then some .addKeptErrorBearing else none,
      { s with counters := { s.counters with keptTotal := s.counters.keptTotal + 1 } })
  | .addKeptErrorBearing =>
    (none, { s with counters :=
      { s.counters with keptErrorBearing := s.counters.keptErrorBearing + 1 } })
  | .addDropped =>
    (none, { s with counters := { s.counters with dropped := s.counters.dropped + 1 } })
  | .swapKeptTotal =>
    (some (.swapKeptErrorBearing s.counters.keptTotal),
      { s with counters := { s.counters with keptTotal := 0 } })
  | .swapKeptErrorBearing kept =>
    (some (.swapDropped kept s.counters.keptErrorBearing),
      { s with counters := { s.counters with keptErrorBearing := 0 } })
  | .swapDropped kept keptErrorBearing =>
    (none,
      { counters := { s.counters with dropped := 0 }
        summaries := s.summaries ++ [emitSummary kept keptErrorBearing s.counters.dropped rate] })

/-- The counters of a new sink, after a series of turns. -/
def summarisedAfter (turns : List (Turn CounterCall)) :
    Threads (Summarised R) CounterPoint :=
  run (turn CounterCall.entry (countStep rate)) ⟨⟨⟨0, 0, 0⟩, []⟩, []⟩ turns

/-- The calls that were started. -/
def started (turns : List (Turn CounterCall)) : List CounterCall :=
  turns.filterMap fun
    | .start call => some call
    | .advance _ => none

/-- Every call has returned. -/
def Quiet (w : Threads (Summarised R) CounterPoint) : Prop := ∀ point ∈ w.points, point = none

/-- The traces that were kept. -/
def keptQuantity : Quantity R where
  counter := AtomicCounters.keptTotal
  told := Summary.kept
  held
    | .addKeptTotal _ => 1
    | .swapKeptErrorBearing kept | .swapDropped kept _ => kept.toNat
    | _ => 0

/-- Those of them that bear an error. -/
def keptErrorBearingQuantity : Quantity R where
  counter := AtomicCounters.keptErrorBearing
  told := Summary.keptErrorBearing
  held
    | .addKeptTotal true | .addKeptErrorBearing => 1
    | .swapDropped _ keptErrorBearing => keptErrorBearing.toNat
    | _ => 0

/-- The traces that were dropped. -/
def droppedQuantity : Quantity R where
  counter := AtomicCounters.dropped
  told := Summary.dropped
  held
    | .addDropped => 1
    | _ => 0

/-- What the summaries tell of a quantity altogether. -/
def Quantity.sum (q : Quantity R) (summaries : List (Summary R)) : Nat :=
  (summaries.map fun summary => (q.told summary).toNat).sum

/-- What is counted or told of a quantity. -/
def Quantity.stored (q : Quantity R) (s : Summarised R) : Nat :=
  (q.counter s.counters).toNat + q.sum s.summaries

/-- No step loses or adds anything, short of an overflow. -/
structure Quantity.Conserved (q : Quantity R) : Prop where
  initial : q.counter ⟨0, 0, 0⟩ = 0
  step : ∀ point s, q.stored s + q.held point ≤ 2 ^ 64 - 1 →
    q.stored (countStep rate point s).2 + (countStep rate point s).1.elim 0 q.held =
      q.stored s + q.held point

variable {rate}

theorem toNat_add_one {n : UInt64} (h : n.toNat + 1 ≤ 2 ^ 64 - 1) :
    (n + 1).toNat = n.toNat + 1 := by
  have hlt : n.toNat + 1 < 2 ^ 64 := by omega
  rw [UInt64.toNat_add]
  exact Nat.mod_eq_of_lt hlt

theorem Quantity.sum_append (q : Quantity R) (summaries : List (Summary R))
    (summary : Summary R) :
    q.sum (summaries ++ [summary]) = q.sum summaries + (q.told summary).toNat := by
  simp [sum]

theorem keptQuantity_conserved : keptQuantity.Conserved rate := by
  refine ⟨rfl, fun point s h => ?_⟩
  simp only [Quantity.stored] at h ⊢
  cases point with
  | addKeptTotal errorBearing =>
    have hadd : (s.counters.keptTotal + 1).toNat = s.counters.keptTotal.toNat + 1 :=
      toNat_add_one (by simp only [keptQuantity] at h; omega)
    cases errorBearing <;> simp only [keptQuantity, countStep, hadd] <;> simp <;> omega
  | swapDropped kept keptErrorBearing =>
    simp only [countStep, Quantity.sum_append]
    simp [keptQuantity, emitSummary]
    omega
  | _ => simp [keptQuantity, countStep] <;> omega

theorem keptErrorBearingQuantity_conserved : keptErrorBearingQuantity.Conserved rate := by
  refine ⟨rfl, fun point s h => ?_⟩
  simp only [Quantity.stored] at h ⊢
  cases point with
  | addKeptTotal errorBearing => cases errorBearing <;> simp [keptErrorBearingQuantity, countStep]
  | addKeptErrorBearing =>
    have hadd : (s.counters.keptErrorBearing + 1).toNat = s.counters.keptErrorBearing.toNat + 1 :=
      toNat_add_one (by simp only [keptErrorBearingQuantity] at h; omega)
    simp only [keptErrorBearingQuantity, countStep, hadd]
    simp
    omega
  | swapDropped kept keptErrorBearing =>
    simp only [countStep, Quantity.sum_append]
    simp [keptErrorBearingQuantity, emitSummary]
    omega
  | _ => simp [keptErrorBearingQuantity, countStep] <;> omega

theorem droppedQuantity_conserved : droppedQuantity.Conserved rate := by
  refine ⟨rfl, fun point s h => ?_⟩
  simp only [Quantity.stored] at h ⊢
  cases point with
  | addKeptTotal errorBearing => cases errorBearing <;> simp [droppedQuantity, countStep]
  | addDropped =>
    have hadd : (s.counters.dropped + 1).toNat = s.counters.dropped.toNat + 1 :=
      toNat_add_one (by simp only [droppedQuantity] at h; omega)
    simp only [droppedQuantity, countStep, hadd]
    simp
    omega
  | swapDropped kept keptErrorBearing =>
    simp only [countStep, Quantity.sum_append]
    simp [droppedQuantity, emitSummary]
    omega
  | _ => simp [droppedQuantity, countStep]

/-- What calls bring, as a sum over the calls. -/
theorem brought_eq (q : Quantity R) (turns : List (Turn CounterCall)) :
    brought q.held CounterCall.entry turns =
      ((started turns).map fun call => q.held call.entry).sum := by
  induction turns with
  | nil => rfl
  | cons e turns ih =>
    have hcons : brought q.held CounterCall.entry (e :: turns) =
        brought q.held CounterCall.entry [e] + brought q.held CounterCall.entry turns := by
      simp [brought]
    rw [hcons, ih]
    cases e <;> simp [brought, started]

/-- Once every call has returned, all that the calls brought is counted or told. -/
theorem stored_summarisedAfter {q : Quantity R} (hq : q.Conserved rate)
    {turns : List (Turn CounterCall)} (hquiet : Quiet (summarisedAfter rate turns))
    (hbound : ((started turns).map fun call => q.held call.entry).sum < 2 ^ 64) :
    q.stored (summarisedAfter rate turns).shared =
      ((started turns).map fun call => q.held call.entry).sum := by
  let new : Threads (Summarised R) CounterPoint := ⟨⟨⟨0, 0, 0⟩, []⟩, []⟩
  have hzero : total q.stored q.held new = 0 := by
    simp [new, total, Quantity.stored, Quantity.sum, hq.initial]
  have hheld : ((summarisedAfter rate turns).points.map fun point => point.elim 0 q.held).sum =
      0 := by
    refine List.sum_eq_zero fun n hn => ?_
    obtain ⟨point, hpoint, rfl⟩ := List.mem_map.mp hn
    rw [hquiet point hpoint]
    rfl
  have htotal : total q.stored q.held (summarisedAfter rate turns) =
      total q.stored q.held new + brought q.held CounterCall.entry turns :=
    total_run hq.step (by rw [hzero, brought_eq]; omega)
  rwa [hzero, Nat.zero_add, brought_eq, total, hheld, Nat.add_zero] at htotal

/-- What a window tells of the traces that were kept by rate. -/
def Summary.Derived (summary : Summary R) : Prop :=
  summary.keptSampled.toNat = summary.kept.toNat - summary.keptErrorBearing.toNat

theorem derived_emitSummary (keptTotal keptErrorBearing dropped : UInt64) :
    (emitSummary keptTotal keptErrorBearing dropped rate).Derived := by
  have hlt := keptTotal.toNat_lt
  exact UInt64.toNat_ofNat_of_lt' (Nat.lt_of_le_of_lt (Nat.sub_le _ _) hlt)

variable (rate) in
/-- So it is in every window. -/
theorem derived_summarisedAfter (turns : List (Turn CounterCall)) :
    ∀ summary ∈ (summarisedAfter rate turns).shared.summaries, summary.Derived := by
  have hproved : Proved CounterCall.entry (countStep rate)
      (fun s => ∀ summary ∈ s.summaries, summary.Derived) (fun _ _ => True) := by
    refine ⟨fun _ _ _ => trivial, fun point s h _ => ?_, fun _ _ _ _ _ _ => trivial,
      fun _ _ _ _ _ _ => trivial⟩
    cases point with
    | swapDropped kept keptErrorBearing =>
      intro summary hsummary
      rcases List.mem_append.mp hsummary with hold | hnew
      · exact h summary hold
      · rw [List.mem_singleton.mp hnew]
        exact derived_emitSummary kept keptErrorBearing s.counters.dropped
    | _ => exact h
  exact (hproved.run ⟨fun _ h => absurd h List.not_mem_nil, fun _ _ => trivial⟩ turns).shared

/-- How many of the traces that the windows tell were kept by rate bear an error. -/
def toldTooMany (summaries : List (Summary R)) : Nat :=
  (summaries.map fun summary => summary.keptErrorBearing.toNat - summary.kept.toNat).sum

/-- What the windows tell of the traces that were kept by rate. -/
def toldSampled (summaries : List (Summary R)) : Nat :=
  (summaries.map fun summary => summary.keptSampled.toNat).sum

theorem toldSampled_add {summaries : List (Summary R)}
    (h : ∀ summary ∈ summaries, summary.Derived) :
    toldSampled summaries + keptErrorBearingQuantity.sum summaries =
      keptQuantity.sum summaries + toldTooMany summaries := by
  induction summaries with
  | nil => rfl
  | cons summary summaries ih =>
    have hrest := ih fun s hs => h s (List.mem_cons_of_mem _ hs)
    have hderived : summary.keptSampled.toNat = _ := h summary List.mem_cons_self
    simp only [toldSampled, toldTooMany, Quantity.sum, List.map_cons, List.sum_cons,
      keptQuantity, keptErrorBearingQuantity] at hrest ⊢
    omega

end

section

variable {S P C Res R : Type} {sampler : Sampler S P} {rate : R}

/-- `record_decision`: the call for an answer of the sampler. -/
def Ask.call (ask : Ask P) : CounterCall :=
  match ask.decision with
  | .keep => if isErrorBearing ask.spans then .recordKeptErrorBearing else .recordKeptSampled
  | .drop => .recordDropped

/-- A request with what the sampler was asked about it. -/
structure Served (sampler : Sampler S P) (C Res : Type) where
  state : S
  request : ExportTraceServiceRequest P C Res
  asks : List (Ask P)
  asked : sampler.Asked state request asks

/-- Where a quantity counts the answers of one kind and no snapshots, they are all that is counted
or told of it. -/
theorem stored_eq_countP {q : Quantity R} (hq : q.Conserved rate)
    {turns : List (Turn CounterCall)} {asks : List (Ask P)}
    (hcalls : ((started turns).filter (· ≠ .snapshotAndReset)).Perm (asks.map Ask.call))
    (hbound : asks.length < 2 ^ 64) (hquiet : Quiet (summarisedAfter rate turns))
    {p : Ask P → Bool} (hsnapshot : q.held .swapKeptTotal = 0)
    (hheld : ∀ ask : Ask P, q.held ask.call.entry = if p ask then 1 else 0) :
    q.stored (summarisedAfter rate turns).shared = asks.countP p := by
  have hfilter (calls : List CounterCall) : (calls.map fun call => q.held call.entry).sum =
      ((calls.filter (· ≠ .snapshotAndReset)).map fun call => q.held call.entry).sum := by
    induction calls with
    | nil => rfl
    | cons call calls ih =>
      rw [List.filter_cons]
      split_ifs with hne
      · rw [List.map_cons, List.sum_cons, List.map_cons, List.sum_cons, ih]
      · obtain rfl : call = .snapshotAndReset := by simpa using hne
        rw [List.map_cons, List.sum_cons, ih]
        simp [CounterCall.entry, hsnapshot]
  have hcount (asks : List (Ask P)) :
      ((asks.map Ask.call).map fun call => q.held call.entry).sum = asks.countP p := by
    induction asks with
    | nil => rfl
    | cons ask asks ih =>
      rw [List.map_cons, List.map_cons, List.sum_cons, ih, hheld, List.countP_cons, Nat.add_comm]
  have hsum : ((started turns).map fun call => q.held call.entry).sum = asks.countP p := by
    rw [hfilter, (hcalls.map _).sum_eq, hcount]
  rw [← hsum]
  refine stored_summarisedAfter hq hquiet ?_
  rw [hsum]
  exact List.countP_le_length.trans_lt hbound

/-- A trace is kept or dropped. -/
theorem countP_not_dropped (asks : List (Ask P)) :
    asks.countP (fun ask => !ask.dropped) =
      asks.countP Ask.keptWithError + asks.countP Ask.keptWithoutError := by
  have hlength := length_eq_countP asks
  have hsplit := List.length_eq_countP_add_countP Ask.dropped (l := asks)
  have hnot : asks.countP (fun ask => !ask.dropped) =
      asks.countP fun ask => decide ¬ ask.dropped = true :=
    List.countP_congr fun ask _ => by cases ask.dropped <;> simp
  omega

/-- The sampler is asked once about each trace of the requests. -/
theorem length_asks (served : List (Served sampler C Res)) :
    (served.flatMap Served.asks).length =
      (served.map fun entry => entry.request.traceIds.card).sum := by
  rw [List.length_flatMap]
  congr 1
  refine List.map_congr_left fun entry _ => ?_
  rw [← entry.asked.traces, List.toFinset_card_of_nodup entry.asked.once, List.length_map]

/-- Whatever turns the records of any requests and the snapshots take: once all have returned,
every trace of every request is told in one window or still counted, as what it was decided to
be, and the windows tell as many kept by rate as there are, and those of each window in which more
errors than traces were told. -/
theorem summaries_account (served : List (Served sampler C Res)) {turns : List (Turn CounterCall)}
    (hcalls : ((started turns).filter (· ≠ .snapshotAndReset)).Perm
      ((served.flatMap Served.asks).map Ask.call))
    (hbound : (served.flatMap Served.asks).length < 2 ^ 64)
    (hquiet : Quiet (summarisedAfter rate turns)) :
    let s := (summarisedAfter rate turns).shared
    let asks := served.flatMap Served.asks
    keptQuantity.stored s = asks.countP Ask.keptWithError + asks.countP Ask.keptWithoutError ∧
    keptErrorBearingQuantity.stored s = asks.countP Ask.keptWithError ∧
    droppedQuantity.stored s = asks.countP Ask.dropped ∧
    keptQuantity.stored s + droppedQuantity.stored s =
      (served.map fun entry => entry.request.traceIds.card).sum ∧
    toldSampled s.summaries + keptErrorBearingQuantity.sum s.summaries =
      keptQuantity.sum s.summaries + toldTooMany s.summaries := by
  intro s asks
  have hdropped : droppedQuantity.stored s = asks.countP Ask.dropped :=
    stored_eq_countP droppedQuantity_conserved hcalls hbound hquiet rfl fun ask => by
      cases hdecision : ask.decision <;> cases herror : isErrorBearing ask.spans <;>
        simp [Ask.call, Ask.dropped, hdecision, herror, CounterCall.entry, droppedQuantity]
  have herrors : keptErrorBearingQuantity.stored s = asks.countP Ask.keptWithError :=
    stored_eq_countP keptErrorBearingQuantity_conserved hcalls hbound hquiet rfl fun ask => by
      cases hdecision : ask.decision <;> cases herror : isErrorBearing ask.spans <;>
        simp [Ask.call, Ask.keptWithError, hdecision, herror, CounterCall.entry,
          keptErrorBearingQuantity]
  have hkept : keptQuantity.stored s = asks.countP fun ask => !ask.dropped :=
    stored_eq_countP keptQuantity_conserved hcalls hbound hquiet rfl fun ask => by
      cases hdecision : ask.decision <;> cases herror : isErrorBearing ask.spans <;>
        simp [Ask.call, Ask.dropped, hdecision, herror, CounterCall.entry, keptQuantity]
  rw [countP_not_dropped] at hkept
  refine ⟨hkept, herrors, hdropped, ?_, toldSampled_add (derived_summarisedAfter rate turns)⟩
  rw [hkept, hdropped, ← length_asks, ← length_eq_countP]

/-- A request with one span, which bears an error. -/
def failedSpan : Span Unit := ⟨List.replicate 16 7, some ⟨"", statusCodeError⟩, ()⟩

/-- The request with that span. -/
def failedRequest : ExportTraceServiceRequest Unit Unit Unit :=
  ⟨[⟨none, [⟨none, [failedSpan], ""⟩], ""⟩]⟩

/-- What a sampler that keeps everything is asked about it. -/
def failedAsks : List (Ask Unit) := [⟨⟨List.replicate 16 7, rfl⟩, [failedSpan], .keep⟩]

theorem asked_failedRequest :
    (⟨fun s _ _ => (.keep, s)⟩ : Sampler Unit Unit).Asked () failedRequest failedAsks :=
  ⟨rfl, List.nodup_singleton _, by decide, by decide⟩

/-- The request as it is served. -/
def failedServed : Served (⟨fun s _ _ => (.keep, s)⟩ : Sampler Unit Unit) Unit Unit :=
  ⟨(), failedRequest, failedAsks, asked_failedRequest⟩

/-- A window ends between the two additions of its record. -/
def tornWindow : List (Turn CounterCall) :=
  [.start .recordKeptErrorBearing, .advance 0, .start .snapshotAndReset, .advance 1, .advance 1,
    .advance 1, .advance 0]

/-- The trace is told once, and told to be kept by rate. -/
theorem tornWindow_account :
    let s := (summarisedAfter () tornWindow).shared
    keptQuantity.stored s + droppedQuantity.stored s = 1 ∧ toldSampled s.summaries = 1 := by
  have hquiet : Quiet (summarisedAfter () tornWindow) := by
    have hpoints : (summarisedAfter () tornWindow).points = [none, none] := by decide
    rw [Quiet, hpoints]
    simp
  have hcalls : ((started tornWindow).filter (· ≠ .snapshotAndReset)).Perm
      (([failedServed].flatMap Served.asks).map Ask.call) := by decide
  have haccount := summaries_account [failedServed] hcalls (by decide) hquiet
  exact ⟨haccount.2.2.2.1, by decide⟩

end

end Kaleidoscope.Sieve

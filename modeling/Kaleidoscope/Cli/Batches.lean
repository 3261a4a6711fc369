import Kaleidoscope.Cli.Invocation
import Kaleidoscope.Durability.TornTail
import Kaleidoscope.Wal.Session

/-!
# The tier items of the batches

Every batch a successful flush counts is to have a tier item of its own. The sequence number
in the name of the item starts anew with each `ingest`, so this holds as long as no tenant
whose first batch has an item already is ingested for again.
-/

namespace Kaleidoscope.Cli

open Utf8 Aegis HashMap Cinder

theorem ofDigitChars_padded (batchSeq : Nat) :
    Nat.ofDigitChars 10 (padded batchSeq) 0 = batchSeq := by
  rw [padded, List.leftpad, Nat.ofDigitChars_append, Nat.ofDigitChars_replicate_zero, Nat.mul_zero,
    Nat.ofDigitChars_ten_toDigits]

/-- Different batches of a tenant have different names. -/
theorem batchItem_injective (tenant : TenantId) : Function.Injective (batchItem tenant) := by
  intro a b h
  have hname : tenant.name ++ ("/batch-" ++ String.ofList (padded a)) =
      tenant.name ++ ("/batch-" ++ String.ofList (padded b)) := congrArg ItemId.id h
  have hpadded : padded a = padded b := by
    simpa [← String.toList_inj] using hname
  calc
    a = Nat.ofDigitChars 10 (padded a) 0 := (ofDigitChars_padded a).symm
    _ = Nat.ofDigitChars 10 (padded b) 0 := by rw [hpadded]
    _ = b := ofDigitChars_padded b

/-- The items of a tenant. -/
def itemsOf (entries : Entries) (tenant : TenantId) : Set ItemId :=
  {item | (entries.lookup (tenant, item)).isSome}

/-- The names of the batches of a tenant. -/
def batchNames (tenant : TenantId) : Set ItemId := Set.range (batchItem tenant)

/-- The flush added a new item, in the hot tier, and left every other entry as it was. -/
def Flushed.AddsItem (f : Flushed) : Prop :=
  f.before.lookup (f.tenant, f.item) = none ∧
    f.after.lookup (f.tenant, f.item) = some ⟨.hot, f.now, f.now⟩ ∧
      ∀ key ≠ (f.tenant, f.item), f.after.lookup key = f.before.lookup key

/-- The number of batches flushed for a tenant. -/
def countFor (flushed : List Flushed) (tenant : TenantId) : Nat :=
  flushed.countP fun f => f.tenant = tenant

theorem countFor_append_singleton (flushed : List Flushed) (f : Flushed) (tenant : TenantId) :
    countFor (flushed ++ [f]) tenant =
      countFor flushed tenant + if f.tenant = tenant then 1 else 0 := by
  simp [countFor, List.countP_append, List.countP_singleton]

/-- The batches that have an item are the first ones of each tenant, this many. -/
def Counted (entries : Entries) (count : TenantId → Nat) : Prop :=
  ∀ tenant batchSeq, batchItem tenant batchSeq ∈ itemsOf entries tenant ↔ batchSeq < count tenant

theorem Counted.ncard {entries : Entries} {count : TenantId → Nat} (h : Counted entries count)
    (tenant : TenantId) : (itemsOf entries tenant ∩ batchNames tenant).ncard = count tenant := by
  have himage : itemsOf entries tenant ∩ batchNames tenant =
      batchItem tenant '' ↑(Finset.range (count tenant)) := by
    ext item
    constructor
    · rintro ⟨hitem, batchSeq, rfl⟩
      exact ⟨batchSeq, Finset.mem_coe.mpr (Finset.mem_range.mpr ((h _ _).mp hitem)), rfl⟩
    · rintro ⟨batchSeq, hlt, rfl⟩
      exact ⟨(h _ _).mpr (Finset.mem_range.mp (Finset.mem_coe.mp hlt)), batchSeq, rfl⟩
  rw [himage, Set.ncard_image_of_injective _ (batchItem_injective tenant), Set.ncard_coe_finset,
    Finset.card_range]

/-- Only which items have an entry matters. -/
theorem Counted.congr {entries entries' : Entries} {count : TenantId → Nat}
    (h : Counted entries count)
    (hsame : ∀ key, (entries'.lookup key).isSome = (entries.lookup key).isSome) :
    Counted entries' count := by
  intro tenant batchSeq
  rw [← h tenant batchSeq, itemsOf, itemsOf, Set.mem_ofPred_eq, Set.mem_ofPred_eq, hsame]

/-- An entry for the next batch of a tenant counts as one more. -/
theorem Counted.insert {entries : Entries} {count : TenantId → Nat} (h : Counted entries count)
    (tenant : TenantId) (entry : TierEntry) :
    Counted (entries.insert (tenant, batchItem tenant (count tenant)) entry)
      fun t => count t + if tenant = t then 1 else 0 := by
  intro t batchSeq
  have hcount := h t batchSeq
  simp only [itemsOf, Set.mem_ofPred_eq] at hcount ⊢
  rw [lookup_insert_ite]
  by_cases ht : tenant = t
  · subst ht
    rw [if_pos rfl, Nat.lt_succ_iff, Nat.le_iff_lt_or_eq, ← hcount]
    by_cases hseq : batchSeq = count tenant
    · subst hseq
      simp
    · rw [if_neg fun he => hseq (batchItem_injective tenant (congrArg Prod.snd he)),
        or_iff_left hseq]
  · rw [if_neg fun he => ht (congrArg Prod.fst he).symm, if_neg ht, hcount, Nat.add_zero]

/-- So does a new entry for an item that is no batch, or that has an entry already. -/
theorem Counted.insert_old {entries : Entries} {count : TenantId → Nat} (h : Counted entries count)
    {tenant : TenantId} {item : ItemId}
    (hnamed : item ∈ batchNames tenant → item ∈ itemsOf entries tenant) (entry : TierEntry) :
    Counted (entries.insert (tenant, item) entry) count := by
  intro t batchSeq
  have hcount := h t batchSeq
  simp only [itemsOf, Set.mem_ofPred_eq] at hcount hnamed ⊢
  rw [lookup_insert_ite]
  split_ifs with hkey
  · cases hkey
    exact iff_of_true rfl (hcount.mp (hnamed ⟨batchSeq, rfl⟩))
  · exact hcount

section Codecs

variable (fromStr : Text → Except String Lumen.LogRecord) (lumenWal : LineSerde Lumen.WalRecord)
  (lumenSnap : FileSerde Lumen.Snapshot) (cinderWal : LineSerde Cinder.WalRecord)
  (cinderSnap : FileSerde Cinder.Snapshot)

/-- Every flush so far added an item of its own, and the tiering store that opens has as many
items under the batch names of a tenant as batches were flushed for it. -/
structure World.BatchesHaveItems (w : World) : Prop where
  addsItem : ∀ f ∈ w.flushed, f.AddsItem
  counts : ∃ cinder,
    (fileBackedTieringStore cinderWal cinderSnap).openWithFsyncBackend w.dir.cinder = .ok cinder ∧
      ∀ tenant, (itemsOf cinder.state tenant ∩ batchNames tenant).ncard =
        countFor w.flushed tenant

/-- An ingest that has a record finds no item for the first batch of its tenant, `place` names
a batch only where that item exists, and an append to the tiering store that fails leaves
nothing of its record behind. -/
def Uncontested (w : World) (invocation : Invocation) : Prop :=
  ∀ cinder,
    (fileBackedTieringStore cinderWal cinderSnap).openWithFsyncBackend w.dir.cinder = .ok cinder →
      match invocation with
      | .ingest tenant lines ticks =>
        ((∃ record records, parseAll fromStr 0 lines = .ok (record :: records)) →
          batchItem tenant 0 ∉ itemsOf cinder.state tenant) ∧
        ∀ batchSeq, (fileBackedTieringStore cinderWal cinderSnap).Harmless
          (placeSteps tenant (batchItem tenant batchSeq) .hot (ticks batchSeq).now)
          [(ticks batchSeq).placeFault]
      | .place tenant itemId tierArg now fault =>
        ∀ tier ∈ parseTier tierArg,
          (⟨itemId⟩ ∈ batchNames tenant → ⟨itemId⟩ ∈ itemsOf cinder.state tenant) ∧
          (fileBackedTieringStore cinderWal cinderSnap).Harmless
            (placeSteps tenant ⟨itemId⟩ tier now) [fault]
      | .migrate tenant itemId toTierArg now fault =>
        ∀ toTier ∈ parseTier toTierArg, (fileBackedTieringStore cinderWal cinderSnap).Harmless
          (migrateSteps tenant ⟨itemId⟩ toTier now cinder.state) [fault]
      | .evaluatePolicy hotToWarmSecs warmToColdSecs now order faults =>
        (fileBackedTieringStore cinderWal cinderSnap).Harmless
          (evaluateAtSteps order now
            ⟨hotToWarmSecs * 1000000000, warmToColdSecs * 1000000000⟩ cinder.state) faults

section Service

/-- An open tiering store whose failed appends have left nothing behind. -/
def Serving (cinder : Store Entries) : Prop :=
  ∃ ledger, (lastWriter cinderWal cinderSnap).refinement.InService ledger cinder cinder.state

variable {cinderWal cinderSnap}

theorem serving_new : (fileBackedTieringStore cinderWal cinderSnap).openWithFsyncBackend .none =
      .ok ⟨∅, none, none, .new []⟩ ∧
    Serving cinderWal cinderSnap ⟨∅, none, none, .new []⟩ :=
  ⟨rfl, [], (lastWriter cinderWal cinderSnap).refinement.inService_new⟩

/-- What a process leaves behind opens to the same entries. -/
theorem Serving.reopen {cinder : Store Entries} (h : Serving cinderWal cinderSnap cinder) :
    ∃ cinder', (fileBackedTieringStore cinderWal cinderSnap).openWithFsyncBackend cinder.drop =
        .ok cinder' ∧ cinder'.state = cinder.state ∧ Serving cinderWal cinderSnap cinder' := by
  obtain ⟨ledger, hservice⟩ := h
  obtain ⟨d, cinder', hd, hopen, hstate, hservice'⟩ := hservice.reopen
  have hsame : cinder'.state = cinder.state := hstate.trans hd
  exact ⟨cinder', Pillar.openWithFsyncBackend_of_openNode _ hopen, hsame, ledger,
    hsame ▸ hservice'⟩

variable (hwal : ∀ r, cinderWal.Faithful r) (hsnap : ∀ k, cinderSnap.Faithful k)
include hwal hsnap

/-- An operation whose failed appends leave nothing behind keeps the store in service. -/
theorem Serving.call {cinder : Store Entries} (h : Serving cinderWal cinderSnap cinder)
    (c : Call) {faults : List Fault}
    (hfaults : (fileBackedTieringStore cinderWal cinderSnap).Harmless
      (plan c cinder.state).steps faults) :
    Serving cinderWal cinderSnap
      ((fileBackedTieringStore cinderWal cinderSnap).call (plan c cinder.state) faults
        cinder).store := by
  obtain ⟨ledger, hservice⟩ := h
  obtain ⟨j, -, hservice'⟩ := hservice.attempt ((lastWriter cinderWal cinderSnap).restores hsnap)
    (fun hlive => legal cinderWal cinderSnap hwal c faults _ _ hlive) hfaults
  obtain rfl : _ = j := hservice'.live
  exact ⟨_, hservice'⟩

/-- `place` inserts the entry or changes no entry, and keeps the store in service. -/
theorem Serving.place {cinder : Store Entries} (h : Serving cinderWal cinderSnap cinder)
    (tenant : TenantId) (item : ItemId) (tier : Tier) (now : SystemTime) {fault : Fault}
    (hfault : (fileBackedTieringStore cinderWal cinderSnap).Harmless
      (placeSteps tenant item tier now) [fault]) :
    ∃ result cinder', Cinder.place cinderWal cinderSnap cinder tenant item tier now fault =
        (result, cinder') ∧ Serving cinderWal cinderSnap cinder' ∧
      (result = .ok () ∧
          cinder'.state = cinder.state.insert (tenant, item) ⟨tier, now, now⟩ ∨
        (∃ e, result = .error e) ∧ cinder'.state = cinder.state) := by
  refine ⟨_, _, rfl, h.call hwal hsnap (.place tenant item tier now) hfault, ?_⟩
  rcases (fileBackedTieringStore cinderWal cinderSnap).call_singleton cinder.state
    ⟨.place tenant item tier now,
      fun entries => applyToEntries entries (.place tenant item tier now)⟩
    fault cinder with ⟨hresult, hstate⟩ | ⟨e, hresult, hstate⟩
  · exact .inl ⟨hresult, hstate⟩
  · exact .inr ⟨⟨e, hresult⟩, hstate⟩

omit hwal hsnap in
/-- `migrate` and `evaluate_at` change entries, not which items have one. -/
theorem isSome_lookup_call {cinder : Store Entries} {c : Call}
    (hplace : ∀ tenant item tier placedAt, c ≠ .place tenant item tier placedAt)
    (faults : List Fault) (key : TenantId × ItemId) :
    (((fileBackedTieringStore cinderWal cinderSnap).call (plan c cinder.state) faults
        cinder).store.state.lookup key).isSome = (cinder.state.lookup key).isSome := by
  let sameItem (entries : Entries) : Prop :=
    (entries.lookup key).isSome = (cinder.state.lookup key).isSome
  have hcommit : ∀ step ∈ (plan c cinder.state).steps, ∀ entries, sameItem entries →
      sameItem (step.commit entries) := by
    intro step hstep entries hsame
    cases c with
    | place tenant item tier placedAt => exact absurd rfl (hplace tenant item tier placedAt)
    | migrate tenant item toTier migratedAt =>
      simp only [plan, migrateSteps] at hstep
      split_ifs at hstep
      · obtain rfl := List.mem_singleton.mp hstep
        exact (isSome_lookup_modify _ _ _ _).trans hsame
      · exact absurd hstep List.not_mem_nil
    | evaluateAt order now policy =>
      obtain ⟨m, -, rfl⟩ := List.mem_map.mp hstep
      exact (isSome_lookup_modify _ _ _ _).trans hsame
  exact Pillar.runSteps_state (Q := sameItem) rfl hcommit

end Service

/-- What every flush of an ingest for a tenant keeps, over the batches counted before it. -/
structure Progress.Tracks (base : TenantId → Nat) (p : Progress) : Prop where
  serving : Serving cinderWal cinderSnap p.cinder
  addsItem : ∀ f ∈ p.flushed, f.AddsItem
  counted : Counted p.cinder.state fun t => base t + countFor p.flushed t

/-- What every invocation keeps. -/
structure World.Tracks (w : World) : Prop where
  addsItem : ∀ f ∈ w.flushed, f.AddsItem
  opens : ∃ cinder,
    (fileBackedTieringStore cinderWal cinderSnap).openWithFsyncBackend w.dir.cinder = .ok cinder ∧
      Serving cinderWal cinderSnap cinder ∧ Counted cinder.state (countFor w.flushed)

section Ingest

variable {cinderWal cinderSnap} (hwal : ∀ r, cinderWal.Faithful r)
  (hsnap : ∀ k, cinderSnap.Faithful k)
include hwal hsnap

/-- A flush for the next batch of the tenant adds its item, or fails and adds none. -/
theorem Progress.Tracks.flush {base : TenantId → Nat} {p : Progress}
    (h : p.Tracks cinderWal cinderSnap base) {tenant : TenantId}
    (hnext : base tenant + countFor p.flushed tenant = p.stats.batchesFlushed) {tick : Tick}
    (hfault : (fileBackedTieringStore cinderWal cinderSnap).Harmless
      (placeSteps tenant (batchItem tenant p.stats.batchesFlushed) .hot tick.now)
      [tick.placeFault]) (buffer : List Lumen.LogRecord) :
    ∃ result p', Cli.flush lumenWal lumenSnap cinderWal cinderSnap tenant tick buffer p =
        (result, p') ∧ p'.Tracks cinderWal cinderSnap base ∧
      p'.stats.batchesFlushed = p.stats.batchesFlushed ∧
      (result = .ok () →
        base tenant + countFor p'.flushed tenant = p.stats.batchesFlushed + 1) := by
  rw [Cli.flush]
  rcases Lumen.ingest lumenWal lumenSnap p.lumen tenant ⟨buffer⟩ tick.ingestFault with
    ⟨e | receipt, lumen⟩
  · exact ⟨_, _, rfl, ⟨h.serving, h.addsItem, h.counted⟩, rfl, fun he => nomatch he⟩
  · obtain ⟨result, cinder', hplace, hserving, ⟨rfl, hstate⟩ | ⟨⟨e, rfl⟩, hstate⟩⟩ :=
      h.serving.place hwal hsnap tenant (batchItem tenant p.stats.batchesFlushed) .hot tick.now
        hfault
    · simp only [hplace]
      have hcounted := h.counted.insert tenant ⟨.hot, tick.now, tick.now⟩
      simp only [hnext] at hcounted
      refine ⟨_, _, rfl, ⟨hserving, fun f hf => ?_, fun t batchSeq => ?_⟩, rfl, fun _ => ?_⟩
      · rcases List.mem_append.mp hf with hf | hf
        · exact h.addsItem f hf
        · obtain rfl := List.mem_singleton.mp hf
          have hnew : batchItem tenant p.stats.batchesFlushed ∉ itemsOf p.cinder.state tenant := by
            intro hitem
            have hlt : p.stats.batchesFlushed < base tenant + countFor p.flushed tenant :=
              (h.counted tenant p.stats.batchesFlushed).mp hitem
            omega
          refine ⟨Option.not_isSome_iff_eq_none.mp hnew, ?_, fun key hkey => ?_⟩
          · simp only [hstate, lookup_insert_ite, if_true]
          · simp only [hstate, lookup_insert_ite, if_neg hkey]
      · simp only [hstate, countFor_append_singleton, ← Nat.add_assoc]
        exact hcounted t batchSeq
      · rw [countFor_append_singleton, if_pos rfl, ← Nat.add_assoc, hnext]
    · simp only [hplace]
      refine ⟨_, _, rfl, ⟨hserving, h.addsItem, ?_⟩, rfl, fun he => nomatch he⟩
      rw [hstate]
      exact h.counted

/-- So does a series of flushes, until one fails. -/
theorem Progress.Tracks.flushAll {base : TenantId → Nat} {p : Progress}
    (h : p.Tracks cinderWal cinderSnap base) (tenant : TenantId)
    (hnext : base tenant + countFor p.flushed tenant = p.stats.batchesFlushed)
    {ticks : Nat → Tick}
    (hfaults : ∀ batchSeq, (fileBackedTieringStore cinderWal cinderSnap).Harmless
      (placeSteps tenant (batchItem tenant batchSeq) .hot (ticks batchSeq).now)
      [(ticks batchSeq).placeFault]) (chunks : List (List Lumen.LogRecord)) :
    (Cli.flushAll lumenWal lumenSnap cinderWal cinderSnap tenant ticks chunks p).2.Tracks
      cinderWal cinderSnap base := by
  induction chunks generalizing p with
  | nil => exact h
  | cons chunk rest ih =>
    rw [Cli.flushAll]
    obtain ⟨result, p', hflush, htracks, hseq, hcount⟩ :=
      h.flush lumenWal lumenSnap hwal hsnap hnext (hfaults _) chunk
    rw [hflush]
    cases result with
    | error e => exact htracks
    | ok u =>
      refine ih ⟨htracks.serving, htracks.addsItem, htracks.counted⟩ ?_
      rw [hcount rfl, hseq]

omit hwal hsnap in
theorem World.Tracks.of_serving {w : World} (haddsItem : ∀ f ∈ w.flushed, f.AddsItem)
    {cinder : Store Entries} (hdir : w.dir.cinder = cinder.drop)
    (hserving : Serving cinderWal cinderSnap cinder)
    (hcounted : Counted cinder.state (countFor w.flushed)) :
    w.Tracks cinderWal cinderSnap := by
  obtain ⟨cinder', hopen, hstate, hserving'⟩ := hserving.reopen
  exact ⟨haddsItem, cinder', hdir ▸ hopen, hserving', hstate ▸ hcounted⟩

theorem World.Tracks.ingest {w : World} (h : w.Tracks cinderWal cinderSnap) (tenant : TenantId)
    (lines : List (Except String Text)) (ticks : Nat → Tick)
    (hcond : Uncontested fromStr cinderWal cinderSnap w (.ingest tenant lines ticks)) :
    (invoke fromStr lumenWal lumenSnap cinderWal cinderSnap w
      (.ingest tenant lines ticks)).Tracks cinderWal cinderSnap := by
  obtain ⟨cinder, hopen, hserving, hcounted⟩ := h.opens
  obtain ⟨hfirst, hfaults⟩ := hcond cinder hopen
  simp only [invoke, ingestLines]
  cases hlumen : (Lumen.fileBackedLogStore lumenWal lumenSnap).openWithFsyncBackend w.dir.lumen with
  | error e => simpa using h
  | ok lumen =>
    simp only [hopen]
    cases hparse : parseAll fromStr 0 lines with
    | error e =>
      simp only [List.append_nil]
      exact .of_serving h.addsItem rfl hserving hcounted
    | ok validated =>
      have htracks : Progress.Tracks cinderWal cinderSnap (countFor w.flushed)
          ⟨lumen, cinder, ⟨0, 0, 0⟩, []⟩ := ⟨hserving, by simp, hcounted⟩
      have hended : (flushAll lumenWal lumenSnap cinderWal cinderSnap tenant ticks
          (validated.toChunks defaultBatchSize) ⟨lumen, cinder, ⟨0, 0, 0⟩, []⟩).2.Tracks
          cinderWal cinderSnap (countFor w.flushed) := by
        cases validated with
        | nil => exact htracks
        | cons record records =>
          have hnone : countFor w.flushed tenant = 0 := by
            by_contra hsome
            exact hfirst ⟨record, records, hparse⟩
              ((hcounted tenant 0).mpr (Nat.pos_of_ne_zero hsome))
          exact htracks.flushAll lumenWal lumenSnap hwal hsnap tenant hnone hfaults _
      refine .of_serving (fun f hf => ?_) rfl hended.serving fun t batchSeq => ?_
      · exact (List.mem_append.mp hf).elim (h.addsItem f) (hended.addsItem f)
      · rw [countFor, List.countP_append]
        exact hended.counted t batchSeq

theorem World.Tracks.place {w : World} (h : w.Tracks cinderWal cinderSnap) (tenant : TenantId)
    (itemId tierArg : String) (now : SystemTime) (fault : Fault)
    (hcond : Uncontested fromStr cinderWal cinderSnap w (.place tenant itemId tierArg now fault)) :
    (invoke fromStr lumenWal lumenSnap cinderWal cinderSnap w
      (.place tenant itemId tierArg now fault)).Tracks cinderWal cinderSnap := by
  obtain ⟨cinder, hopen, hserving, hcounted⟩ := h.opens
  simp only [invoke, placeItem]
  cases htier : parseTier tierArg with
  | none => exact h
  | some tier =>
    obtain ⟨hnamed, hfault⟩ := hcond cinder hopen tier htier
    obtain ⟨result, cinder', hplace, hserving', hstate⟩ :=
      hserving.place hwal hsnap tenant ⟨itemId⟩ tier now hfault
    simp only [hopen, hplace]
    refine .of_serving h.addsItem rfl hserving' ?_
    rcases hstate with ⟨-, hstate⟩ | ⟨-, hstate⟩
    · rw [hstate]
      exact hcounted.insert_old hnamed _
    · rwa [hstate]

/-- An operation that places nothing leaves the items as they are. -/
theorem World.Tracks.of_call {w : World} (h : w.Tracks cinderWal cinderSnap) {dir : DataDir}
    (c : Call) (hplace : ∀ tenant item tier placedAt, c ≠ .place tenant item tier placedAt)
    {faults : List Fault} {cinder : Store Entries}
    (hopen : (fileBackedTieringStore cinderWal cinderSnap).openWithFsyncBackend w.dir.cinder =
      .ok cinder)
    (hfaults : (fileBackedTieringStore cinderWal cinderSnap).Harmless
      (plan c cinder.state).steps faults)
    (hdir : dir.cinder = ((fileBackedTieringStore cinderWal cinderSnap).call
      (plan c cinder.state) faults cinder).store.drop) :
    World.Tracks cinderWal cinderSnap { w with dir := dir } := by
  obtain ⟨cinder', hopen', hserving, hcounted⟩ := h.opens
  obtain rfl : cinder = cinder' := Except.ok.inj (hopen.symm.trans hopen')
  exact .of_serving h.addsItem hdir (hserving.call hwal hsnap c hfaults)
    (hcounted.congr (isSome_lookup_call hplace faults))

theorem World.Tracks.migrate {w : World} (h : w.Tracks cinderWal cinderSnap) (tenant : TenantId)
    (itemId toTierArg : String) (now : SystemTime) (fault : Fault)
    (hcond : Uncontested fromStr cinderWal cinderSnap w
      (.migrate tenant itemId toTierArg now fault)) :
    (invoke fromStr lumenWal lumenSnap cinderWal cinderSnap w
      (.migrate tenant itemId toTierArg now fault)).Tracks cinderWal cinderSnap := by
  obtain ⟨cinder, hopen, hserving, hcounted⟩ := h.opens
  simp only [invoke, migrateItem]
  cases htier : parseTier toTierArg with
  | none => exact h
  | some toTier =>
    have hfault := hcond cinder hopen toTier htier
    simp only [hopen]
    cases hentry : getEntry cinder tenant ⟨itemId⟩ with
    | none => exact .of_serving h.addsItem rfl hserving hcounted
    | some entry =>
      have hplaced : (cinder.state.lookup (tenant, ⟨itemId⟩)).isSome = true :=
        congrArg Option.isSome hentry
      simp only [Cinder.migrate, hplaced, if_true]
      exact h.of_call hwal hsnap (.migrate tenant ⟨itemId⟩ toTier now)
        (fun _ _ _ _ he => nomatch he) hopen hfault rfl

theorem World.Tracks.evaluatePolicy {w : World} (h : w.Tracks cinderWal cinderSnap)
    (hotToWarmSecs warmToColdSecs : Nat) (now : SystemTime)
    (order : IterOrder (TenantId × ItemId) TierEntry) (faults : List Fault)
    (hcond : Uncontested fromStr cinderWal cinderSnap w
      (.evaluatePolicy hotToWarmSecs warmToColdSecs now order faults)) :
    (invoke fromStr lumenWal lumenSnap cinderWal cinderSnap w
      (.evaluatePolicy hotToWarmSecs warmToColdSecs now order faults)).Tracks
      cinderWal cinderSnap := by
  obtain ⟨cinder, hopen, -, -⟩ := h.opens
  simp only [invoke, Cli.evaluatePolicy, hopen]
  exact h.of_call hwal hsnap (.evaluateAt order now _) (fun _ _ _ _ he => nomatch he) hopen
    (hcond cinder hopen) rfl

/-- The step theorem: an uncontested invocation keeps what the next one relies on. -/
theorem World.Tracks.invoke {w : World} (h : w.Tracks cinderWal cinderSnap)
    (invocation : Invocation) (hcond : Uncontested fromStr cinderWal cinderSnap w invocation) :
    (invoke fromStr lumenWal lumenSnap cinderWal cinderSnap w invocation).Tracks
      cinderWal cinderSnap := by
  cases invocation with
  | ingest => exact h.ingest _ _ _ hwal hsnap _ _ _ hcond
  | place => exact h.place _ _ _ hwal hsnap _ _ _ _ _ hcond
  | migrate => exact h.migrate _ _ _ hwal hsnap _ _ _ _ _ hcond
  | evaluatePolicy => exact h.evaluatePolicy _ _ _ hwal hsnap _ _ _ _ _ hcond

end Ingest

theorem World.Tracks.init : World.init.Tracks cinderWal cinderSnap where
  addsItem _ hf := absurd hf List.not_mem_nil
  opens := ⟨_, serving_new.1, serving_new.2, fun _ _ => by simp [itemsOf, countFor, World.init]⟩

/-- Where no ingest with a record finds its tenant's first batch placed already, and nobody
else names a batch, every batch flushed has its own tier item after every invocation. -/
theorem batches_have_items {cinderWal : LineSerde Cinder.WalRecord}
    {cinderSnap : FileSerde Cinder.Snapshot} (hwal : ∀ r, cinderWal.Faithful r)
    (hsnap : ∀ k, cinderSnap.Faithful k) {invocations : List Invocation}
    (h : Run.AllSteps (invoke fromStr lumenWal lumenSnap cinderWal cinderSnap)
      (Uncontested fromStr cinderWal cinderSnap) .init invocations) :
    (Run.run (invoke fromStr lumenWal lumenSnap cinderWal cinderSnap) .init
      invocations).BatchesHaveItems cinderWal cinderSnap := by
  obtain ⟨haddsItem, cinder, hopen, -, hcounted⟩ := h.invariant
    (fun w invocation hw hcond => World.Tracks.invoke fromStr lumenWal lumenSnap hwal hsnap hw
      invocation hcond) (World.Tracks.init cinderWal cinderSnap)
  exact ⟨haddsItem, cinder, hopen, hcounted.ncard⟩

end Codecs

/-- A line of input with a log record. -/
def startedInput : LineTable Lumen.LogRecord where
  rows :=
    [(Lumen.started,
      chars "\x7b\"observed_time_unix_nano\":1,\"severity_number\":9," rfl ++
        chars "\"severity_text\":\"INFO\",\"body\":\"started\"," rfl ++
        chars "\"attributes\":\x7b\x7d,\"resource_attributes\":\x7b\x7d," rfl ++
        chars "\"trace_id\":null,\"span_id\":null\x7d" rfl)]
  ascii := by decide +kernel
  oneLine := by decide +kernel
  prefixFree := by simp

/-- The JSON of the placement of the first batch of a tenant. -/
def batchLine : LineTable WalRecord where
  rows :=
    [(.place ⟨"acme"⟩ (batchItem ⟨"acme"⟩ 0) .hot 1000000000,
      chars "\x7b\"op\":\"place\",\"tenant\":\"acme\",\"item\":\"acme/batch-00000\"," rfl ++
        chars "\"tier\":\"Hot\",\"placed_at\":\x7b\"secs_since_epoch\":1," rfl ++
        chars "\"nanos_since_epoch\":0\x7d\x7d" rfl)]
  ascii := by decide +kernel
  oneLine := by decide +kernel
  prefixFree := by simp

/-- An ingest of one batch without faults. -/
def ingestStarted : Invocation :=
  .ingest ⟨"acme"⟩ (startedInput.rows.map fun e => .ok e.2) fun _ => ⟨.none, .none, 1000000000⟩

/-- An ingest of blank lines. -/
def ingestBlank : Invocation :=
  .ingest ⟨"acme"⟩ [.ok [' '], .ok []] fun _ => ⟨.none, .none, 1000000000⟩

/-- The command line for that input. -/
def invokeStarted : World → Invocation → World :=
  invoke startedInput.serde.fromStr Lumen.startedLine.serde (.single ⟨[]⟩ []) batchLine.serde
    (.single ⟨[]⟩ [])

/-- The one batch has its item. -/
theorem started_has_item :
    (Run.run invokeStarted .init [ingestStarted, ingestBlank]).BatchesHaveItems
    batchLine.serde (.single ⟨[]⟩ []) := by
  refine batches_have_items _ _ _ batchLine.faithful (FileSerde.single_faithful _ _)
    ⟨fun cinder hopen => ⟨fun _ hitem => ?_, fun _ _ _ => ⟨.inl trivial, fun _ => trivial⟩⟩,
      fun _ _ => ⟨fun ⟨record, records, hparse⟩ => ?_,
        fun _ _ _ => ⟨.inl trivial, fun _ => trivial⟩⟩, trivial⟩
  · obtain rfl := Except.ok.inj (serving_new.1.symm.trans hopen)
    cases hitem
  · cases hparse

/-- A second ingest for the tenant overwrites the item of the first. -/
theorem overwritten_batch :
    ¬∀ (fromStr : Text → Except String Lumen.LogRecord) (lumenWal : LineSerde Lumen.WalRecord)
      (lumenSnap : FileSerde Lumen.Snapshot) (cinderWal : LineSerde WalRecord)
      (cinderSnap : FileSerde Snapshot), (∀ r, cinderWal.Faithful r) →
        (∀ k, cinderSnap.Faithful k) → ∀ invocations : List Invocation,
          (Run.run (invoke fromStr lumenWal lumenSnap cinderWal cinderSnap) .init
            invocations).BatchesHaveItems cinderWal cinderSnap := by
  intro h
  have hitems : (Run.run invokeStarted .init [ingestStarted, ingestStarted]).BatchesHaveItems
      batchLine.serde (.single ⟨[]⟩ []) :=
    h _ _ _ _ _ batchLine.faithful (FileSerde.single_faithful _ _) _
  have hany : ((Run.run invokeStarted .init [ingestStarted, ingestStarted]).flushed.any
      fun f => (f.before.lookup (f.tenant, f.item)).isSome) = true := by decide +kernel
  obtain ⟨f, hf, hsome⟩ := List.any_eq_true.mp hany
  rw [(hitems.addsItem f hf).1] at hsome
  cases hsome

end Kaleidoscope.Cli

import Kaleidoscope.Library.Traverse
import Kaleidoscope.Sluice.FileBacked

/-!
# The queue as a queue

A queue in the abstract holds each message once: pending with its tenant, or in flight
under its id. Log records drive it, and the file-backed queue refines it.
-/

namespace Kaleidoscope.Sluice

open Aegis HashMap Replay

/-- A queue in which every message has one place. -/
@[ext] structure Ideal where
  /-- No id beyond this one was handed out. -/
  nextId : Nat
  pending : TenantId → List Message
  inFlight : MessageId → Option Message
  tenant_eq : ∀ t, ∀ m ∈ pending t, m.tenant = t
  pending_le : ∀ t, ∀ m ∈ pending t, m.id.id ≤ nextId
  nodup : ∀ t, ((pending t).map Message.id).Nodup
  unique : ∀ t t', ∀ m ∈ pending t, ∀ m' ∈ pending t', m.id = m'.id → t = t'
  id_eq : ∀ id, ∀ m ∈ inFlight id, m.id = id
  inFlight_le : ∀ id, ∀ m ∈ inFlight id, m.id.id ≤ nextId
  apart : ∀ t, ∀ m ∈ pending t, inFlight m.id = none

namespace Ideal

/-- The queue without messages. -/
def empty : Ideal where
  nextId := 0
  pending _ := []
  inFlight _ := none
  tenant_eq := by simp
  pending_le := by simp
  nodup := by simp
  unique := by simp
  id_eq := by simp
  inFlight_le := by simp
  apart := by simp

/-- The queue of one tenant is replaced. -/
def replace (pending : TenantId → List Message) (tenant : TenantId) (q : List Message) :
    TenantId → List Message := fun t => if t = tenant then q else pending t

/-- A message with a fresh id joins the end of its tenant's queue. -/
def enqueue (i : Ideal) {id : Nat} (h : i.nextId < id) (tenant : TenantId)
    (payload : List UInt8) : Ideal where
  nextId := id
  pending := replace i.pending tenant (i.pending tenant ++ [⟨⟨id⟩, tenant, payload⟩])
  inFlight := i.inFlight
  tenant_eq := by grind [replace, i.tenant_eq]
  pending_le t m hm := by
    have := i.pending_le t m
    grind [replace]
  nodup t := by
    have hfresh : ∀ m ∈ i.pending tenant, m.id ≠ ⟨id⟩ := fun m hm he => by
      have := i.pending_le tenant m hm
      rw [he] at this
      exact absurd h (Nat.not_lt.mpr this)
    have := i.nodup t
    rw [replace]
    split_ifs with ht
    · subst ht
      rw [List.map_append, List.nodup_append]
      exact ⟨this, by simp, by simpa using hfresh⟩
    · exact this
  unique t t' m hm m' hm' he := by
    have h₁ := i.pending_le t m
    have h₂ := i.pending_le t' m'
    have h₃ := i.unique t t' m
    grind [replace]
  id_eq := i.id_eq
  inFlight_le id' m hm := (i.inFlight_le id' m hm).trans h.le
  apart t m hm := by
    have h₁ := i.apart t m
    have h₂ : i.inFlight ⟨id⟩ = none := Option.eq_none_iff_forall_not_mem.mpr fun m hm => by
      have := i.inFlight_le _ m hm
      rw [i.id_eq _ m hm] at this
      exact absurd h (Nat.not_lt.mpr this)
    grind [replace]

/-- The front of a queue is put in flight. -/
def dequeue (i : Ideal) {tenant : TenantId} {m : Message} {rest : List Message}
    (h : i.pending tenant = m :: rest) : Ideal where
  nextId := i.nextId
  pending := replace i.pending tenant rest
  inFlight id := if id = m.id then some m else i.inFlight id
  tenant_eq t m' hm' := by
    have := i.tenant_eq t m'
    grind [replace]
  pending_le t m' hm' := by
    have := i.pending_le t m'
    grind [replace]
  nodup t := by
    have := i.nodup t
    grind [replace]
  unique t t' m' hm' m'' hm'' he := by
    have := i.unique t t' m'
    grind [replace]
  id_eq id m' hm' := by
    have := i.id_eq id m'
    grind
  inFlight_le id m' hm' := by
    have h₁ := i.inFlight_le id m'
    have h₂ := i.pending_le tenant m
    grind
  apart t m' hm' := by
    have h₁ := i.apart t m'
    have h₂ := i.unique t tenant m'
    have h₃ := i.nodup tenant
    grind [replace]

/-- A message in flight leaves the queue. -/
def ack (i : Ideal) (id : MessageId) : Ideal where
  nextId := i.nextId
  pending := i.pending
  inFlight j := if j = id then none else i.inFlight j
  tenant_eq := i.tenant_eq
  pending_le := i.pending_le
  nodup := i.nodup
  unique := i.unique
  id_eq j m hm := by
    have := i.id_eq j m
    grind
  inFlight_le j m hm := by
    have := i.inFlight_le j m
    grind
  apart t m hm := by
    have := i.apart t m hm
    grind

/-- A message in flight goes back to the front of its tenant's queue. -/
def nack (i : Ideal) {id : MessageId} {m : Message} (h : i.inFlight id = some m) : Ideal where
  nextId := i.nextId
  pending := replace i.pending m.tenant (m :: i.pending m.tenant)
  inFlight j := if j = id then none else i.inFlight j
  tenant_eq t m' hm' := by
    have := i.tenant_eq t m'
    grind [replace]
  pending_le t m' hm' := by
    have h₁ := i.pending_le t m'
    have h₂ := i.inFlight_le id m h
    grind [replace]
  nodup t := by
    have h₁ := i.nodup t
    have h₂ : ∀ m' ∈ i.pending m.tenant, m'.id ≠ m.id := fun m' hm' he => by
      have := i.apart _ m' hm'
      rw [he, i.id_eq id m h, h] at this
      cases this
    grind [replace]
  unique t t' m' hm' m'' hm'' he := by
    have h₁ := i.unique t t' m'
    have h₂ : ∀ t, ∀ m' ∈ i.pending t, m'.id ≠ m.id := fun t m' hm' he => by
      have := i.apart _ m' hm'
      rw [he, i.id_eq id m h, h] at this
      cases this
    grind [replace]
  id_eq j m' hm' := by
    have := i.id_eq j m'
    grind
  inFlight_le j m' hm' := by
    have := i.inFlight_le j m'
    grind
  apart t m' hm' := by
    have h₁ := i.apart t m'
    have h₂ := i.id_eq id m h
    grind [replace]

/-- What a log record does to a queue that appended it. -/
inductive Next : Ideal → WalRecord → Ideal → Prop where
  | enqueue {i : Ideal} {id : Nat} (h : i.nextId < id) (tenant : TenantId)
      (payload : List UInt8) :
      Next i (.enqueue id tenant (encodeHex payload)) (i.enqueue h tenant payload)
  | dequeue {i : Ideal} {tenant : TenantId} {m : Message} {rest : List Message}
      (h : i.pending tenant = m :: rest) : Next i (.dequeue m.id.id) (i.dequeue h)
  | ack (i : Ideal) (id : MessageId) : Next i (.ack id.id) (i.ack id)
  | nack {i : Ideal} {id : MessageId} {m : Message} (h : i.inFlight id = some m) :
      Next i (.nack id.id) (i.nack h)

/-- A state of the file-backed queue holds the messages of the abstract one. When `exact`
is asked for, the next id agrees as well; otherwise it may be ahead, as failed appends of
`enqueue` leave it. -/
structure Holds (exact : Prop) (s : Inner) (i : Ideal) : Prop where
  nextId_le : i.nextId ≤ s.nextId
  nextId_eq : exact → s.nextId = i.nextId
  pending : ∀ t, s.queue t = i.pending t
  inFlight : ∀ id, s.inFlight.lookup id = i.inFlight id

end Ideal

/-- Two states hold the same messages in the same places, and hand out the same ids. -/
structure Inner.Same (s s' : Inner) : Prop where
  nextId : s'.nextId = s.nextId
  pending : ∀ t, s'.queue t = s.queue t
  inFlight : s'.inFlight = s.inFlight

/-- No message id has two places. -/
structure Inner.NoDuplicates (s : Inner) : Prop where
  nodup : ∀ t, ((s.queue t).map Message.id).Nodup
  unique : ∀ t t', ∀ m ∈ s.queue t, ∀ m' ∈ s.queue t', m.id = m'.id → t = t'
  id_eq : ∀ id m, s.inFlight.lookup id = some m → m.id = id
  apart : ∀ t, ∀ m ∈ s.queue t, s.inFlight.lookup m.id = none

/-- States that hold the same abstract queue exactly are the same. -/
theorem Ideal.Holds.same {s s' : Inner} {i : Ideal} (h : Ideal.Holds True s i)
    (h' : Ideal.Holds True s' i) : s.Same s' where
  nextId := (h'.nextId_eq trivial).trans (h.nextId_eq trivial).symm
  pending t := (h'.pending t).trans (h.pending t).symm
  inFlight := Finmap.ext_lookup fun id => (h'.inFlight id).trans (h.inFlight id).symm

theorem Ideal.Holds.noDuplicates {exact : Prop} {s : Inner} {i : Ideal}
    (h : Ideal.Holds exact s i) : s.NoDuplicates := by
  refine ⟨fun t => ?_, fun t t' => ?_, fun id m hm => ?_, fun t m => ?_⟩
  · rw [h.pending]
    exact i.nodup t
  · rw [h.pending, h.pending]
    exact i.unique t t'
  · rw [h.inFlight] at hm
    exact i.id_eq id m hm
  · rw [h.pending, h.inFlight]
    exact i.apart t m

theorem queue_upsert (s : Inner) (tenant t : TenantId) (f : List Message → List Message) :
    ((s.pending.upsert tenant [] f).lookup t).getD [] =
      if t = tenant then f (s.queue tenant) else s.queue t := by
  rw [lookup_upsert]
  split_ifs <;> rfl

theorem lookup_putQueue (pending : Pending) (tenant t : TenantId) (q : List Message) :
    ((putQueue pending tenant q).lookup t).getD [] =
      if t = tenant then q else (pending.lookup t).getD [] := by
  unfold putQueue
  split_ifs with hq ht ht <;> simp [lookup_erase_ite, lookup_insert_ite, ht, hq]

private theorem lookup_eq_some {exact : Prop} {s : Inner} {i : Ideal}
    (h : Ideal.Holds exact s i) {t : TenantId} {q : List Message}
    (hq : s.pending.lookup t = some q) : q = i.pending t := by
  rw [← h.pending t, Inner.queue, hq, Option.getD_some]

/-- Replay finds a message where it is: no other tenant has one with its id. -/
theorem findPending_eq {exact : Prop} (order : IterOrder TenantId (List Message)) {s : Inner}
    {i : Ideal} (h : Ideal.Holds exact s i) {tenant : TenantId} {m : Message}
    {rest : List Message} (hm : i.pending tenant = m :: rest) :
    findPending order s.pending m.id = some (tenant, m) := by
  have hfound : ∀ e ∈ order.entries s.pending, ∀ r,
      (e.2.find? fun m' => m'.id = m.id).map (fun m' => (e.1, m')) = some r →
        r = (tenant, m) := by
    rintro ⟨t, q⟩ he r hr
    obtain ⟨m', hm', rfl⟩ := Option.map_eq_some_iff.mp hr
    obtain rfl := lookup_eq_some h ((order.mem_iff _ _ _).mp he)
    have hid : m'.id = m.id := by simpa using List.find?_some hm'
    obtain rfl := i.unique t tenant m' (List.mem_of_find?_eq_some hm') m (by simp [hm]) hid
    rw [hm, List.find?_cons_of_pos (by simp)] at hm'
    rw [Option.some.inj hm']
  cases hf : findPending order s.pending m.id with
  | some r =>
    obtain ⟨e, he, hr⟩ := List.exists_of_findSome?_eq_some hf
    rw [hfound e he r hr]
  | none =>
    -- the tenant's own queue would have been found
    have hq : s.pending.lookup tenant = some (m :: rest) := by
      have hp := h.pending tenant
      rw [hm, Inner.queue] at hp
      cases hl : s.pending.lookup tenant with
      | none => rw [hl] at hp; cases hp
      | some q => rw [hl] at hp; exact congrArg some hp
    have hnone := List.findSome?_eq_none_iff.mp hf _ ((order.mem_iff _ _ _).mpr hq)
    simp at hnone

namespace Ideal

/-- Replay of a record of the log does what the record did. -/
theorem Holds.applyRecord {exact : Prop} (order : IterOrder TenantId (List Message))
    {s : Inner} {i j : Ideal} {r : WalRecord} (h : Holds exact s i) (hr : Next i r j) :
    ∃ s', applyRecord order s r = .ok s' ∧ Holds exact s' j := by
  cases hr with
  | @enqueue id hid tenant payload =>
    refine ⟨{ s with
      nextId := if s.nextId < id then id else s.nextId
      pending := s.pending.upsert tenant [] (· ++ [⟨⟨id⟩, tenant, payload⟩]) },
      by rw [Sluice.applyRecord, decodeHex_encodeHex]; rfl, ?_, fun he => ?_, fun t => ?_,
      h.inFlight⟩
    · change id ≤ if s.nextId < id then id else s.nextId
      split_ifs <;> omega
    · change (if s.nextId < id then id else s.nextId) = id
      rw [h.nextId_eq he, if_pos hid]
    · rw [Inner.queue, queue_upsert, h.pending, h.pending]
      rfl
  | @dequeue tenant m rest hm =>
    have hq : (s.pending.lookup tenant).getD [] = m :: rest := (h.pending tenant).trans hm
    refine ⟨{ s with
      pending := putQueue s.pending tenant rest
      inFlight := s.inFlight.insert m.id m }, ?_, h.nextId_le, h.nextId_eq, fun t => ?_,
      fun id => ?_⟩
    · rw [Sluice.applyRecord, findPending_eq order h hm]
      simp [hq]
    · rw [Inner.queue, lookup_putQueue]
      change (if t = tenant then rest else s.queue t) = _
      rw [h.pending]
      rfl
    · rw [lookup_insert_ite, h.inFlight]
      rfl
  | ack id =>
    refine ⟨_, rfl, h.nextId_le, h.nextId_eq, h.pending, fun j => ?_⟩
    rw [lookup_erase_ite, h.inFlight]
    rfl
  | @nack id m hm =>
    refine ⟨{ s with
      inFlight := s.inFlight.erase id
      pending := s.pending.upsert m.tenant [] (m :: ·) },
      by rw [Sluice.applyRecord, h.inFlight, hm], h.nextId_le, h.nextId_eq, fun t => ?_,
      fun j => ?_⟩
    · rw [Inner.queue, queue_upsert, h.pending, h.pending]
      rfl
    · rw [lookup_erase_ite, h.inFlight]
      rfl

end Ideal

/-- A message survives its snapshot. -/
theorem message_snapshot (m : Message) : m.snapshot.message = .ok m := by
  rw [MessageSnapshot.message, Message.snapshot, decodeHex_encodeHex]
  rfl

theorem mapM_message_snapshot (q : List Message) :
    (q.map Message.snapshot).mapM MessageSnapshot.message = .ok q :=
  Traverse.mapM_map_self fun m _ => message_snapshot m

private theorem foldlM_pending (entries : List (TenantId × List Message)) (pending : Pending) :
    (entries.map fun e => TenantPending.mk e.1 (e.2.map Message.snapshot)).foldlM
        (fun (pending : Pending) t => do
          let q ← t.messages.mapM MessageSnapshot.message
          return pending.insert t.tenant q) pending =
      (.ok (pending.insertAll entries) : Except EnqueueError Pending) := by
  induction entries generalizing pending with
  | nil => rfl
  | cons e entries ih =>
    rw [List.map_cons, List.foldlM_cons, mapM_message_snapshot]
    exact ih _

private theorem foldlM_inFlight (entries : List (MessageId × Message))
    (h : ∀ e ∈ entries, e.2.id = e.1) (inFlight : InFlight) :
    (entries.map fun e => e.2.snapshot).foldlM
        (fun (inFlight : InFlight) m => do
          let message ← m.message
          return inFlight.insert ⟨m.id⟩ message) inFlight =
      (.ok (inFlight.insertAll entries) : Except EnqueueError InFlight) := by
  induction entries generalizing inFlight with
  | nil => rfl
  | cons e entries ih =>
    rw [List.map_cons, List.foldlM_cons, message_snapshot]
    have he := ih (fun e he => h e (List.mem_cons_of_mem _ he)) (inFlight.insert e.2.id e.2)
    rw [insertAll_cons, ← h e List.mem_cons_self]
    exact he

/-- A snapshot restores the queue it was taken of. -/
theorem fromSnapshot_toSnapshot {exact : Prop}
    (order : IterOrder TenantId (List Message) × IterOrder MessageId Message) {s : Inner}
    {i : Ideal} (h : Ideal.Holds exact s i) :
    fromSnapshot (toSnapshot order s) = .ok { s with total := 0 } := by
  have hid : ∀ e ∈ order.2.entries s.inFlight, e.2.id = e.1 := by
    rintro ⟨id, m⟩ he
    have := (order.2.mem_iff _ _ _).mp he
    rw [h.inFlight] at this
    exact i.id_eq id m this
  simp only [fromSnapshot, toSnapshot, foldlM_pending, foldlM_inFlight _ hid,
    IterOrder.insertAll_entries]
  rfl

section Refinement

variable (order : IterOrder TenantId (List Message)) (wal : LineSerde WalRecord)
  (snap : FileSerde Snapshot) (exact : Prop)

/-- The file-backed queue refines the abstract one. -/
def refinement : Refinement (fileBackedQueue order wal snap) Ideal where
  init := .empty
  next i r j := wal.Faithful r ∧ Ideal.Next i r j
  compacts := Eq
  loaded := Ideal.Holds exact
  disk := Ideal.Holds exact
  live := Ideal.Holds exact
  faithful h := h.1
  empty_loaded := ⟨le_rfl, fun _ => rfl, fun _ => rfl, fun _ => rfl⟩
  loaded_disk := id
  apply_disk hr hs := hs.applyRecord order hr.2
  settle_live hs := ⟨hs.nextId_le, hs.nextId_eq, hs.pending, hs.inFlight⟩

theorem restores (hsnap : ∀ k, snap.Faithful k) : (refinement order wal snap exact).Restores := by
  intro s i hs order'
  exact ⟨hsnap _, _, i, fromSnapshot_toSnapshot order' hs,
    ⟨hs.nextId_le, hs.nextId_eq, hs.pending, hs.inFlight⟩, hs, rfl⟩

variable {order wal snap exact}

/-- Creating the entry of a tenant leaves every queue as it is. -/
theorem queue_entry (s : Inner) (tenant t : TenantId) :
    ({ s with pending := s.pending.upsert tenant [] id } : Inner).queue t = s.queue t := by
  rw [Inner.queue, queue_upsert]
  split_ifs with ht
  · rw [ht, id]
  · rfl

/-- The appends of every operation drive the abstract queue. -/
theorem legalSteps (hwal : ∀ r, wal.Faithful r) (cap : Nat) (c : Call) {s : Inner} {i : Ideal}
    (h : Ideal.Holds exact s i) :
    (refinement order wal snap exact).LegalSteps (plan cap c s).steps (plan cap c s).prepared
      i := by
  cases c with
  | enqueue tenant payload =>
    simp only [plan, enqueuePlan]
    split_ifs with hfull
    · trivial
    · have hid : i.nextId < s.nextId + 1 := Nat.lt_succ_of_le h.nextId_le
      refine ⟨i.enqueue hid tenant payload, ⟨hwal _, .enqueue hid tenant payload⟩,
        ⟨le_rfl, fun _ => rfl, fun t => ?_, h.inFlight⟩, trivial⟩
      change ((upsert (s.pending.upsert tenant [] id) tenant [] _).lookup t).getD [] = _
      rw [queue_upsert ⟨s.nextId, s.pending.upsert tenant [] id, s.inFlight, s.total⟩]
      simp only [queue_entry, h.pending]
      rfl
  | dequeue tenant =>
    simp only [plan, dequeuePlan]
    cases hq : s.queue tenant with
    | nil => exact trivial
    | cons m rest =>
      have hm : i.pending tenant = m :: rest := by rw [← h.pending, hq]
      refine ⟨i.dequeue hm, ⟨hwal _, .dequeue hm⟩,
        ⟨h.nextId_le, h.nextId_eq, fun t => ?_, fun id => ?_⟩, trivial⟩
      · rw [Inner.queue, lookup_putQueue, hq]
        change (if t = tenant then rest else s.queue t) = _
        rw [h.pending]
        rfl
      · rw [lookup_insert_ite, h.inFlight]
        rfl
  | ack id =>
    simp only [plan, ackPlan]
    split_ifs
    · refine ⟨i.ack id, ⟨hwal _, .ack i id⟩, ⟨h.nextId_le, h.nextId_eq, h.pending, fun j => ?_⟩,
        trivial⟩
      rw [lookup_erase_ite, h.inFlight]
      rfl
    · trivial
  | nack id =>
    simp only [plan, nackPlan]
    cases hm : s.inFlight.lookup id with
    | none => exact trivial
    | some m =>
      have hi : i.inFlight id = some m := by rw [← h.inFlight, hm]
      refine ⟨i.nack hi, ⟨hwal _, .nack hi⟩,
        ⟨h.nextId_le, h.nextId_eq, fun t => ?_, fun j => ?_⟩, trivial⟩
      · rw [Inner.queue, queue_upsert, h.pending, h.pending]
        rfl
      · rw [lookup_erase_ite, h.inFlight]
        rfl

/-- What an operation does before its append shows in the next id only. -/
theorem holds_prepared (cap : Nat) (c : Call) {s : Inner} {i : Ideal}
    (h : Ideal.Holds exact s i) (hexact : exact → (plan cap c s).steps = []) :
    Ideal.Holds exact (plan cap c s).prepared i := by
  cases c with
  | enqueue tenant payload =>
    simp only [plan, enqueuePlan] at hexact ⊢
    split_ifs at hexact ⊢
    · exact ⟨h.nextId_le, h.nextId_eq, fun t => (queue_entry s tenant t).trans (h.pending t),
        h.inFlight⟩
    · exact ⟨h.nextId_le.trans (Nat.le_succ _), fun he => by simpa using hexact he,
        fun t => (queue_entry s tenant t).trans (h.pending t), h.inFlight⟩
  | _ => exact h

/-- Every operation is legal, but a failing `enqueue` uses up an id. -/
theorem legal (hwal : ∀ r, wal.Faithful r) (cap : Nat) (c : Call) {faults : List Fault}
    {s : Inner} {i : Ideal} (h : Ideal.Holds exact s i)
    (hexact : exact → (plan cap c s).steps ≠ [] →
      (fileBackedQueue order wal snap).FirstSucceeds (plan cap c s).steps faults) :
    (refinement order wal snap exact).Legal (plan cap c s) faults i := by
  refine ⟨?_, legalSteps hwal cap c h⟩
  by_cases hnil : exact → (plan cap c s).steps = []
  · exact Or.inl (holds_prepared cap c h hnil)
  · obtain ⟨he, hne⟩ := Classical.not_imp.mp hnil
    exact Or.inr (hexact he hne)

end Refinement

end Kaleidoscope.Sluice
